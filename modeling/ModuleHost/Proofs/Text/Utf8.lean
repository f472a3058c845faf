import Mathlib.Data.List.Infix
import ModuleHost.Text.Utf8

namespace ModuleHost
namespace Text

/-!
# Reading UTF-8

Reading a character undoes writing it, whatever bytes follow, and only the bytes that
writing produces are read.  So the text that is read from a byte string is the longest
one whose bytes are a beginning of it.
-/

variable {char : Char} {bytes rest : List UInt8}

/-! ## One character -/

theorem continuation?_eq_some_iff {byte : UInt8} {low : Nat} :
    continuation? byte = some low ↔ byte.toNat = low + 128 ∧ low < 64 := by
  unfold continuation?
  split <;> simp only [Option.some.injEq, reduceCtorEq, false_iff] <;> omega

theorem toNat_ofNat {number : Nat} (valid : number.isValidChar) :
    (Char.ofNat number).toNat = number := by
  rw [Char.ofNat, dif_pos valid]
  rfl

theorem scalar?_eq_some_iff {least number : Nat} :
    scalar? least number = some char ↔ least ≤ number ∧ number = char.toNat := by
  unfold scalar?
  constructor
  · intro read
    split at read
    · next valid =>
        rw [← Option.some.inj read, toNat_ofNat valid.2]
        exact ⟨valid.1, rfl⟩
    · cases read
  · rintro ⟨above, rfl⟩
    rw [if_pos ⟨above, char.valid⟩, Char.ofNat_toNat]

/-- A byte written for a number below 256 is that number. -/
theorem toNat_byte (number : Nat) (small : number < 256) :
    (UInt8.ofNat number).toNat = number := by
  rw [UInt8.toNat_ofNat', Nat.mod_eq_of_lt small]

theorem byte_eq (byte : UInt8) {number : Nat} (same : byte.toNat = number) :
    UInt8.ofNat number = byte := by
  rw [← same, UInt8.ofNat_toNat]

/-- A continuation byte written for six bits is read back. -/
theorem continuation?_byte (number : Nat) :
    continuation? (UInt8.ofNat (number % 64 + 128)) = some (number % 64) := by
  rw [continuation?_eq_some_iff, toNat_byte _ (by omega)]
  omega

theorem toNat_lt (char : Char) : char.toNat < 0x110000 := by
  rcases char.valid with low | high
  · exact Nat.lt_trans low (by decide)
  · exact high.2

/-! ### Reading what was written -/

theorem head?_two (above : 0x80 ≤ char.toNat) (below : char.toNat < 0x800) :
    head? (UInt8.ofNat (char.toNat / 64 % 32 + 192) ::
      UInt8.ofNat (char.toNat % 64 + 128) :: rest) = some (char, rest) := by
  have lead := toNat_byte (char.toNat / 64 % 32 + 192) (by omega)
  have read : scalar? 0x80 (char.toNat / 64 % 32 * 64 + char.toNat % 64) = some char :=
    scalar?_eq_some_iff.mpr (by omega)
  simp only [head?, lead, continuation?_byte, Nat.add_sub_cancel]
  rw [if_neg (by omega), if_pos (by omega)]
  simp [read]

theorem head?_three (above : 0x800 ≤ char.toNat) (below : char.toNat < 0x10000) :
    head? (UInt8.ofNat (char.toNat / 4096 % 16 + 224) ::
      UInt8.ofNat (char.toNat / 64 % 64 + 128) ::
      UInt8.ofNat (char.toNat % 64 + 128) :: rest) = some (char, rest) := by
  have lead := toNat_byte (char.toNat / 4096 % 16 + 224) (by omega)
  have read : scalar? 0x800 ((char.toNat / 4096 % 16 * 64 + char.toNat / 64 % 64) * 64 +
      char.toNat % 64) = some char := scalar?_eq_some_iff.mpr (by omega)
  simp only [head?, lead, continuation?_byte, Nat.add_sub_cancel]
  rw [if_neg (by omega), if_neg (by omega), if_pos (by omega)]
  simp [read]

theorem head?_four (above : 0x10000 ≤ char.toNat) :
    head? (UInt8.ofNat (char.toNat / 262144 % 8 + 240) ::
      UInt8.ofNat (char.toNat / 4096 % 64 + 128) ::
      UInt8.ofNat (char.toNat / 64 % 64 + 128) ::
      UInt8.ofNat (char.toNat % 64 + 128) :: rest) = some (char, rest) := by
  have bounded := toNat_lt char
  have lead := toNat_byte (char.toNat / 262144 % 8 + 240) (by omega)
  have read : scalar? 0x10000 (((char.toNat / 262144 % 8 * 64 + char.toNat / 4096 % 64) * 64 +
      char.toNat / 64 % 64) * 64 + char.toNat % 64) = some char :=
    scalar?_eq_some_iff.mpr (by omega)
  simp only [head?, lead, continuation?_byte, Nat.add_sub_cancel]
  rw [if_neg (by omega), if_neg (by omega), if_neg (by omega), if_pos (by omega)]
  simp [read]

/-- Reading undoes writing. -/
theorem head?_encode (char : Char) (rest : List UInt8) :
    head? (String.utf8EncodeChar char ++ rest) = some (char, rest) := by
  unfold String.utf8EncodeChar
  simp only [Char.toNat_val]
  split
  · next one =>
      have lead := toNat_byte char.toNat (by omega)
      simp only [List.cons_append, List.nil_append, head?, lead,
        if_pos (show char.toNat < 0x80 by omega), Char.ofNat_toNat]
  · split
    · exact head?_two (by omega) (by omega)
    · split
      · exact head?_three (by omega) (by omega)
      · exact head?_four (by omega)

/-! ### Writing what was read -/

section

variable {first second third fourth : UInt8} {high middle low : Nat}

theorem encode_one (ascii : first.toNat < 0x80) :
    String.utf8EncodeChar (Char.ofNat first.toNat) = [first] := by
  have number : (Char.ofNat first.toNat).toNat = first.toNat := toNat_ofNat (Or.inl (by omega))
  unfold String.utf8EncodeChar
  simp only [Char.toNat_val, number]
  rw [if_pos (by omega), UInt8.ofNat_toNat]

theorem encode_two (lead : 0xC0 ≤ first.toNat ∧ first.toNat < 0xE0)
    (last : continuation? second = some low)
    (read : scalar? 0x80 ((first.toNat - 0xC0) * 64 + low) = some char) :
    String.utf8EncodeChar char = [first, second] := by
  rw [continuation?_eq_some_iff] at last
  rw [scalar?_eq_some_iff] at read
  unfold String.utf8EncodeChar
  simp only [Char.toNat_val]
  rw [if_neg (by omega), if_pos (by omega), byte_eq first (by omega), byte_eq second (by omega)]

theorem encode_three (lead : 0xE0 ≤ first.toNat ∧ first.toNat < 0xF0)
    (inner : continuation? second = some middle) (last : continuation? third = some low)
    (read : scalar? 0x800 (((first.toNat - 0xE0) * 64 + middle) * 64 + low) = some char) :
    String.utf8EncodeChar char = [first, second, third] := by
  rw [continuation?_eq_some_iff] at inner last
  rw [scalar?_eq_some_iff] at read
  unfold String.utf8EncodeChar
  simp only [Char.toNat_val]
  rw [if_neg (by omega), if_neg (by omega), if_pos (by omega), byte_eq first (by omega),
    byte_eq second (by omega), byte_eq third (by omega)]

theorem encode_four (lead : 0xF0 ≤ first.toNat ∧ first.toNat < 0xF8)
    (outer : continuation? second = some high) (inner : continuation? third = some middle)
    (last : continuation? fourth = some low)
    (read : scalar? 0x10000
      ((((first.toNat - 0xF0) * 64 + high) * 64 + middle) * 64 + low) = some char) :
    String.utf8EncodeChar char = [first, second, third, fourth] := by
  rw [continuation?_eq_some_iff] at outer inner last
  rw [scalar?_eq_some_iff] at read
  have bounded := toNat_lt char
  unfold String.utf8EncodeChar
  simp only [Char.toNat_val]
  rw [if_neg (by omega), if_neg (by omega), if_neg (by omega), byte_eq first (by omega),
    byte_eq second (by omega), byte_eq third (by omega), byte_eq fourth (by omega)]

end

/-- Only what writing produces is read. -/
theorem eq_encode_of_head? (read : head? bytes = some (char, rest)) :
    bytes = String.utf8EncodeChar char ++ rest := by
  unfold head? at read
  split at read
  · cases read
  · simp only at read
    split at read
    · next ascii =>
        simp only [Option.some.injEq, Prod.mk.injEq] at read
        rcases read with ⟨rfl, rfl⟩
        rw [encode_one ascii, List.singleton_append]
    · simp only [Option.bind_eq_bind, Option.pure_def] at read
      split at read
      · next lead =>
          split at read
          · simp only [Option.bind_eq_some_iff, Option.some.injEq, Prod.mk.injEq] at read
            rcases read with ⟨low, last, spelt, scalar, rfl, rfl⟩
            rw [encode_two lead last scalar]
            rfl
          · cases read
      · split at read
        · next lead =>
            split at read
            · simp only [Option.bind_eq_some_iff, Option.some.injEq, Prod.mk.injEq] at read
              rcases read with ⟨middle, inner, low, last, spelt, scalar, rfl, rfl⟩
              rw [encode_three lead inner last scalar]
              rfl
            · cases read
        · split at read
          · next lead =>
              split at read
              · simp only [Option.bind_eq_some_iff, Option.some.injEq, Prod.mk.injEq] at read
                rcases read with
                  ⟨high, outer, middle, inner, low, last, spelt, scalar, rfl, rfl⟩
                rw [encode_four lead outer inner last scalar]
                rfl
              · cases read
          · cases read

/-! ## Texts -/

theorem leading_encode (char : Char) (rest : List UInt8) :
    leading (String.utf8EncodeChar char ++ rest) = char :: leading rest := by
  rw [leading]
  split
  · next missing =>
      rw [head?_encode] at missing
      cases missing
  · next char' rest' read =>
      rw [head?_encode, Option.some.injEq, Prod.mk.injEq] at read
      rw [read.1, read.2]

/-- What is read begins the bytes. -/
theorem encode_leading_isPrefix (bytes : List UInt8) :
    (leading bytes).flatMap String.utf8EncodeChar <+: bytes := by
  rw [leading]
  split
  · exact List.nil_prefix
  · next char rest read =>
      have shorter := length_of_head? read
      rw [List.flatMap_cons]
      conv => rhs; rw [eq_encode_of_head? read]
      exact (List.prefix_append_right_inj _).mpr (encode_leading_isPrefix rest)
termination_by bytes.length

/-- Characters whose bytes begin the bytes are read. -/
theorem prefix_leading {chars : List Char} {bytes : List UInt8}
    (begins : chars.flatMap String.utf8EncodeChar <+: bytes) : chars <+: leading bytes := by
  induction chars generalizing bytes with
  | nil => exact List.nil_prefix
  | cons char rest ih =>
      rcases begins with ⟨tail, rfl⟩
      rw [List.flatMap_cons, List.append_assoc, leading_encode]
      exact (List.prefix_cons_inj char).mpr (ih (List.prefix_append _ _))

/-- The text is the longest one whose bytes begin the given bytes. -/
structure LongestIn (text : String) (bytes : List UInt8) : Prop where
  begins : encode text <+: bytes
  longest : ∀ other : String, encode other <+: bytes → encode other <+: encode text

theorem longestIn_decodeLeading (bytes : List UInt8) :
    LongestIn (decodeLeading bytes) bytes where
  begins := by
    rw [encode, decodeLeading, String.toList_ofList]
    exact encode_leading_isPrefix bytes
  longest other begins := by
    rcases prefix_leading begins with ⟨more, same⟩
    rw [decodeLeading]
    simp only [encode, String.toList_ofList, ← same, List.flatMap_append]
    exact List.prefix_append _ _

/-- The bytes of a text spell that text and no other. -/
theorem decodeLeading_encode (text : String) : decodeLeading (encode text) = text := by
  have read : text.toList <+: leading (encode text) := prefix_leading List.prefix_rfl
  rcases read with ⟨more, same⟩
  have whole := (encode_leading_isPrefix (encode text)).length_le
  rw [← same, encode, List.flatMap_append, List.length_append] at whole
  have nothing : more = [] := by
    cases more with
    | nil => rfl
    | cons char rest =>
        have positive := char.utf8Size_pos
        rw [List.flatMap_cons, List.length_append, String.length_utf8EncodeChar] at whole
        omega
  rw [decodeLeading, ← same, nothing, List.append_nil, String.ofList_toList]

theorem decode?_eq_some_iff {text : String} : decode? bytes = some text ↔ bytes = encode text := by
  unfold decode?
  constructor
  · intro spelt
    simp only at spelt
    split at spelt
    · next whole =>
        rw [← Option.some.inj spelt]
        exact ((longestIn_decodeLeading bytes).begins.eq_of_length whole).symm
    · cases spelt
  · rintro rfl
    simp only [decodeLeading_encode, if_true]

end Text
end ModuleHost
