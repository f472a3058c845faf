import ModuleHost.KernelLog.Line
import ModuleHost.Proofs.Text.Utf8

namespace ModuleHost

/-!
# What a buffer keeps of a text

It does not matter in which chunks a text is written to a buffer: the buffer takes the
first bytes of the whole, and what it shows is the longest text that they begin with.  The
text in front of a message is never cut, as no time and no severity makes it too long.
-/

namespace Text

theorem encode_append (first second : String) :
    encode (first ++ second) = encode first ++ encode second := by
  rw [encode, String.toList_append, List.flatMap_append]
  rfl

theorem encode_join (chunks : List String) :
    encode (String.join chunks) = chunks.flatMap encode := by
  rw [encode, String.toList_join, List.flatMap_assoc]
  rfl

/-- The text is the longest beginning of the whole that has no more bytes than the limit. -/
structure LongestWithin (limit : Nat) (text whole : String) : Prop where
  begins : encode text <+: encode whole
  within : (encode text).length ≤ limit
  longest : ∀ other : String, encode other <+: encode whole → (encode other).length ≤ limit →
    encode other <+: encode text

theorem LongestIn.within {limit : Nat} {text whole : String}
    (longest : LongestIn text ((encode whole).take limit)) : LongestWithin limit text whole where
  begins := longest.begins.trans (List.take_prefix _ _)
  within := Nat.le_trans longest.begins.length_le (List.length_take_le _ _)
  longest other begins short := longest.longest other (List.prefix_take_iff.mpr ⟨begins, short⟩)

/-- Characters of the ASCII range take one byte each. -/
theorem length_encode_of_ascii {chars : List Char} (ascii : ∀ char ∈ chars, char.toNat < 0x80) :
    (encode (String.ofList chars)).length = chars.length := by
  rw [encode, String.toList_ofList]
  induction chars with
  | nil => rfl
  | cons char rest others =>
      rcases List.forall_mem_cons.mp ascii with ⟨first, later⟩
      have single : char.utf8Size = 1 := Char.utf8Size_eq_one_iff.mpr <|
        UInt32.le_iff_toNat_le.mpr (Nat.le_of_lt_succ first)
      rw [List.flatMap_cons, List.length_append, String.length_utf8EncodeChar, single,
        others later, List.length_cons, Nat.add_comm]

/-- A column with a number is as wide as it was asked for, or as wide as the number. -/
theorem length_encode_padLeft (filler : Char) (width number : Nat) (ascii : filler.toNat < 0x80) :
    (encode (padLeft filler width (toString number))).length =
      max width (Nat.toDigits 10 number).length := by
  have digits : toString number = String.ofList (Nat.toDigits 10 number) := rfl
  have column : ∀ char ∈ List.replicate (width - (Nat.toDigits 10 number).length) filler ++
      Nat.toDigits 10 number, char.toNat < 0x80 := by
    intro char listed
    rcases List.mem_append.mp listed with fill | digit
    · rw [List.eq_of_mem_replicate fill]
      exact ascii
    · have shown := Nat.isDigit_of_mem_toDigits (by decide) (by decide) digit
      have bounds := Char.isDigit_iff_toNat.mp shown
      exact Nat.lt_of_le_of_lt bounds.2 (by decide)
  rw [padLeft, digits, String.length_ofList, ← String.ofList_append,
    length_encode_of_ascii column, List.length_append, List.length_replicate]
  omega

end Text

namespace KernelLog

/-- Filling a buffer chunk by chunk is filling it at once. -/
theorem foldl_fill {limit : Nat} (chunks : List String) {buffer : List UInt8}
    (within : buffer.length ≤ limit) :
    chunks.foldl (fun buffer chunk => fill limit buffer (Text.encode chunk)) buffer =
      (buffer ++ chunks.flatMap Text.encode).take limit := by
  induction chunks generalizing buffer with
  | nil => rw [List.flatMap_nil, List.append_nil, List.take_of_length_le within, List.foldl_nil]
  | cons chunk rest filled =>
      have fuller : (fill limit buffer (Text.encode chunk)).length ≤ limit := by
        rw [fill, List.length_append, List.length_take]
        omega
      rw [List.foldl_cons, filled fuller, List.flatMap_cons, ← List.append_assoc]
      -- A chunk that does not fit fills the buffer, and what follows is dropped on both sides.
      by_cases room : (Text.encode chunk).length ≤ limit - buffer.length
      · rw [fill, List.take_of_length_le room]
      · have full : (fill limit buffer (Text.encode chunk)).length = limit := by
          rw [fill, List.length_append, List.length_take]
          omega
        rw [List.take_append_of_le_length (Nat.le_of_eq full.symm),
          List.take_append_of_le_length (by rw [List.length_append]; omega), List.take_append,
          List.take_of_length_le (Nat.le_of_eq full), List.take_of_length_le within, fill]

/-- What a buffer shows depends on the whole of what is written to it. -/
theorem bounded_eq (limit : Nat) (chunks : List String) :
    bounded limit chunks =
      Text.decodeLeading ((Text.encode (String.join chunks)).take limit) := by
  have empty : ([] : List UInt8).length ≤ limit := Nat.zero_le limit
  have filled := foldl_fill chunks empty
  rw [List.nil_append, ← Text.encode_join] at filled
  rw [bounded, filled]

/-- A buffer shows the longest text that the first bytes written to it begin with. -/
theorem longestIn_bounded (limit : Nat) (chunks : List String) :
    Text.LongestIn (bounded limit chunks) ((Text.encode (String.join chunks)).take limit) := by
  rw [bounded_eq]
  exact Text.longestIn_decodeLeading _

/-- A text is shown as it is exactly when it fits. -/
theorem bounded_eq_join_iff (limit : Nat) (chunks : List String) :
    bounded limit chunks = String.join chunks ↔
      (Text.encode (String.join chunks)).length ≤ limit := by
  constructor
  · intro whole
    rw [← whole]
    exact (longestIn_bounded limit chunks).within.within
  · intro short
    rw [bounded_eq, List.take_of_length_le short, Text.decodeLeading_encode]

/-- Nothing is shown of what is written to a full buffer. -/
theorem bounded_append_of_full {limit : Nat} {chunks : List String}
    (full : limit ≤ (Text.encode (String.join chunks)).length) (later : List String) :
    bounded limit (chunks ++ later) = bounded limit chunks := by
  rw [bounded_eq, bounded_eq, String.join_append, Text.encode_append,
    List.take_append_of_le_length full]

/-! ## The text in front of a message -/

/-- The time in seconds with six places after the point, then the severity. -/
def stampText (timestamp : UInt64) (severity : Severity) : String :=
  "[" ++ Text.padLeft ' ' 6 (toString (timestamp.toNat / 1000000)) ++ "." ++
    Text.padLeft '0' 6 (toString (timestamp.toNat % 1000000)) ++ "] " ++
    severityColumn severity ++ ": "

/-- The seconds of any time have at most fourteen digits. -/
theorem length_encode_stampText (timestamp : UInt64) (severity : Severity) :
    (Text.encode (stampText timestamp severity)).length ≤ 31 := by
  have seconds : (Nat.toDigits 10 (timestamp.toNat / 1000000)).length ≤ 14 := by
    have word := timestamp.toNat_lt
    rw [Nat.length_toDigits_le_iff (by decide) (by decide)]
    omega
  have micros : (Nat.toDigits 10 (timestamp.toNat % 1000000)).length ≤ 6 := by
    rw [Nat.length_toDigits_le_iff (by decide) (by decide)]
    omega
  have column : (Text.encode (severityColumn severity)).length = 5 := by
    cases severity <;> decide
  have marks : (Text.encode "[").length = 1 ∧ (Text.encode ".").length = 1 ∧
      (Text.encode "] ").length = 2 ∧ (Text.encode ": ").length = 2 := by
    decide
  have blank := Text.length_encode_padLeft ' ' 6 (timestamp.toNat / 1000000) (by decide)
  have zero := Text.length_encode_padLeft '0' 6 (timestamp.toNat % 1000000) (by decide)
  rw [stampText]
  simp only [Text.encode_append, List.length_append, blank, zero, column, marks]
  omega

/-- The text in front of a message is never cut, in whatever chunks it is written. -/
theorem bounded_stampText {timestamp : UInt64} {severity : Severity} {chunks : List String}
    (spelt : String.join chunks = stampText timestamp severity) :
    bounded stampLimit chunks = stampText timestamp severity := by
  have short := length_encode_stampText timestamp severity
  rw [← spelt, bounded_eq_join_iff, spelt]
  exact Nat.le_trans short (by decide)

theorem stamp_eq (timestamp : UInt64) (severity : Severity) :
    stamp timestamp severity = stampText timestamp severity :=
  bounded_stampText (by simp [stampText, String.join])

/-- A buffer shows the longest text of whole characters that begins what is written to it
and fits.  The text decides, not its chunks; it is cut only if it does not fit, and then
nothing follows.  The text in front of a message always fits. -/
theorem bounded_keeps_longest (limit : Nat) (chunks : List String) :
    Text.LongestWithin limit (bounded limit chunks) (String.join chunks) ∧
    (∀ others, String.join others = String.join chunks →
      bounded limit others = bounded limit chunks) ∧
    (bounded limit chunks = String.join chunks ↔
      (Text.encode (String.join chunks)).length ≤ limit) ∧
    (∀ later, limit ≤ (Text.encode (String.join chunks)).length →
      bounded limit (chunks ++ later) = bounded limit chunks) ∧
    ∀ timestamp severity, stamp timestamp severity = stampText timestamp severity ∧
      ∀ spelling, String.join spelling = stampText timestamp severity →
        bounded stampLimit spelling = stampText timestamp severity := by
  refine ⟨(longestIn_bounded limit chunks).within, fun others same => ?_,
    bounded_eq_join_iff limit chunks, fun later full => bounded_append_of_full full later,
    fun timestamp severity => ⟨stamp_eq timestamp severity, fun _ => bounded_stampText⟩⟩
  rw [bounded_eq, bounded_eq, same]

/-- The dash is cut after its first byte; the letter behind it would have had room there. -/
example : bounded 4 ["a", "é–", "b"] = "aé" := by
  cbv

end KernelLog
end ModuleHost
