import Mathlib.Data.Nat.Digits.Defs
import Mathlib.Tactic.IntervalCases
import ModuleHost.Proofs.Settings.Assignment

namespace ModuleHost
namespace Settings

/-!
# Which texts are numbers

The grammar of numbers is stated here without the reader: a radix mark or none, digits of
that radix with underscores anywhere among them, a unit letter or none.  A text of the
grammar denotes the number of its digits times the factor of its unit.

Reading accepts exactly the texts whose number is a machine word.  The reader compares with
the limit after every digit, but that refuses nothing more: the digits read so far never make
a larger number than all of them, and so leading zeros do no harm.
-/

/-! ## The grammar -/

/-- The radix marks, and the radix of each. -/
def marks : List (List Char × Nat) :=
  [([], 10), (['0', 'x'], 16), (['0', 'X'], 16)]

/-- The units, and the factor of each. -/
def units : List (List Char × Nat) :=
  [([], 2 ^ 0), (['K'], 2 ^ 10), (['k'], 2 ^ 10), (['M'], 2 ^ 20), (['m'], 2 ^ 20),
    (['G'], 2 ^ 30), (['g'], 2 ^ 30)]

/-- The digits in the order of their values, letters in either case. -/
def digitRows : List (List Char) :=
  [['0', '1', '2', '3', '4', '5', '6', '7', '8', '9', 'a', 'b', 'c', 'd', 'e', 'f'],
    ['0', '1', '2', '3', '4', '5', '6', '7', '8', '9', 'A', 'B', 'C', 'D', 'E', 'F']]

/-- A character is the digit of a radix with a value. -/
def IsDigit (radix : Nat) (char : Char) (value : Nat) : Prop :=
  value < radix ∧ ∃ row ∈ digitRows, row[value]? = some char

/-- A text spells digits: it consists of them, in order, and of underscores. -/
inductive Spells (radix : Nat) : List Char → List Nat → Prop
  | nil : Spells radix [] []
  | underscore {text : List Char} {digits : List Nat} (rest : Spells radix text digits) :
      Spells radix ('_' :: text) digits
  | digit {char : Char} {value : Nat} {text : List Char} {digits : List Nat}
      (first : IsDigit radix char value) (rest : Spells radix text digits) :
      Spells radix (char :: text) (value :: digits)

/-- A text denotes a number: its digits, of which there is one at least, are those of the
number before the factor of the unit. -/
def Denotes (text : List Char) (number : Nat) : Prop :=
  ∃ mark radix body digits unit factor, text = mark ++ body ++ unit ∧
    (mark, radix) ∈ marks ∧ (unit, factor) ∈ units ∧ Spells radix body digits ∧ digits ≠ [] ∧
    number = Nat.ofDigits radix digits.reverse * factor

/-! ## Digits -/

theorem digitValue?_eq_some_iff {char : Char} {value : Nat} :
    digitValue? char = some value ↔ ∃ row ∈ digitRows, row[value]? = some char := by
  constructor
  · intro read
    have known : char = Char.ofNat char.toNat := (Char.ofNat_toNat char).symm
    have bounds : (48 ≤ char.toNat ∧ char.toNat ≤ 57 ∧ value = char.toNat - 48) ∨
        (97 ≤ char.toNat ∧ char.toNat ≤ 102 ∧ value = char.toNat - 97 + 10) ∨
        (65 ≤ char.toNat ∧ char.toNat ≤ 70 ∧ value = char.toNat - 65 + 10) := by
      unfold digitValue? at read
      split at read
      · next range => exact Or.inl ⟨range.1, range.2, (Option.some.inj read).symm⟩
      · split at read
        · next range => exact Or.inr (Or.inl ⟨range.1, range.2, (Option.some.inj read).symm⟩)
        · split at read
          · next range => exact Or.inr (Or.inr ⟨range.1, range.2, (Option.some.inj read).symm⟩)
          · cases read
    generalize char.toNat = code at known bounds
    subst known
    rcases bounds with ⟨above, below, rfl⟩ | ⟨above, below, rfl⟩ | ⟨above, below, rfl⟩ <;>
      interval_cases code <;> decide
  · rintro ⟨row, listed, found⟩
    have small : value < 16 := by
      have inside := (List.getElem?_eq_some_iff.mp found).1
      simp only [digitRows, List.mem_cons, List.not_mem_nil, or_false] at listed
      rcases listed with rfl | rfl <;> exact inside
    simp only [digitRows, List.mem_cons, List.not_mem_nil, or_false] at listed
    rcases listed with rfl | rfl <;> interval_cases value <;> cases found <;> decide

theorem digitIn?_eq_some_iff {radix : Nat} {char : Char} {value : Nat} :
    digitIn? radix char = some value ↔ IsDigit radix char value := by
  rw [digitIn?, Option.filter_eq_some_iff, digitValue?_eq_some_iff, decide_eq_true_eq, IsDigit,
    and_comm]

theorem not_isDigit_underscore {radix value : Nat} : ¬IsDigit radix '_' value := by
  rw [← digitIn?_eq_some_iff, digitIn?, show digitValue? '_' = none by decide]
  nofun

theorem spells_underscore_iff {radix : Nat} {text : List Char} {digits : List Nat} :
    Spells radix ('_' :: text) digits ↔ Spells radix text digits := by
  refine ⟨fun spells => ?_, .underscore⟩
  cases spells with
  | underscore rest => exact rest
  | digit first rest => exact absurd first not_isDigit_underscore

theorem spells_cons_iff {radix : Nat} {char : Char} {text : List Char} {digits : List Nat}
    (other : char ≠ '_') :
    Spells radix (char :: text) digits ↔
      ∃ value rest, digits = value :: rest ∧ IsDigit radix char value ∧
        Spells radix text rest := by
  constructor
  · intro spells
    cases spells with
    | underscore rest => exact absurd rfl other
    | digit first rest => exact ⟨_, _, rfl, first, rest⟩
  · rintro ⟨value, rest, rfl, first, spells⟩
    exact .digit first spells

/-- Some digit is spelt if some character is not an underscore. -/
theorem Spells.ne_nil_iff {radix : Nat} {text : List Char} {digits : List Nat}
    (spells : Spells radix text digits) : digits ≠ [] ↔ text.any (· ≠ '_') = true := by
  induction spells with
  | nil => simp
  | underscore _ later => simpa using later
  | @digit char value text digits first _ _ =>
      have other : char ≠ '_' := by
        rintro rfl
        exact not_isDigit_underscore first
      simp [other]

/-- What is spelt are underscores and digits. -/
theorem Spells.isDigit_of_mem {radix : Nat} {text : List Char} {digits : List Nat}
    (spells : Spells radix text digits) {char : Char} (listed : char ∈ text) :
    char = '_' ∨ ∃ value, IsDigit radix char value := by
  induction spells with
  | nil => cases listed
  | underscore _ later =>
      rcases List.mem_cons.mp listed with same | listed
      · exact Or.inl same
      · exact later listed
  | digit first _ later =>
      rcases List.mem_cons.mp listed with rfl | listed
      · exact Or.inr ⟨_, first⟩
      · exact later listed

/-! ## Reading digits -/

/-- One digit more in front. -/
theorem ofDigits_reverse_cons (radix value : Nat) (digits : List Nat) :
    Nat.ofDigits radix (value :: digits).reverse =
      value * radix ^ digits.length + Nat.ofDigits radix digits.reverse := by
  rw [List.reverse_cons, Nat.ofDigits_append, Nat.ofDigits_singleton, List.length_reverse,
    Nat.mul_comm, Nat.add_comm]

theorem wordSized?_eq_some_iff {number result : Nat} :
    wordSized? number = some result ↔ result = number ∧ number < addressLimit := by
  unfold wordSized?
  split
  · next fits => rw [Option.some.injEq, eq_comm, and_iff_left fits]
  · next exceeds => simp [exceeds]

/-- Digits are read onto a value until the text ends, if the number that comes out is a
machine word. -/
theorem readDigits?_eq_some_iff {radix : Nat} (positive : 0 < radix) {text : List Char}
    {start number : Nat} (small : start < addressLimit) :
    readDigits? radix start text = some number ↔
      number < addressLimit ∧ ∃ digits, Spells radix text digits ∧
        number = start * radix ^ digits.length + Nat.ofDigits radix digits.reverse := by
  induction text generalizing start with
  | nil =>
      rw [readDigits?, Option.some.injEq]
      constructor
      · rintro rfl
        exact ⟨small, [], .nil, by simp⟩
      · rintro ⟨_, digits, spells, rfl⟩
        cases spells
        simp
  | cons char text later =>
      rw [readDigits?]
      by_cases underscore : char = '_'
      · subst underscore
        simp only [if_pos, spells_underscore_iff]
        exact later small
      · rw [if_neg underscore]
        simp only [Option.bind_eq_bind, Option.bind_eq_some_iff, digitIn?_eq_some_iff,
          wordSized?_eq_some_iff, spells_cons_iff underscore]
        constructor
        · rintro ⟨value, first, _, ⟨rfl, fits⟩, read⟩
          rcases (later fits).mp read with ⟨word, digits, spells, onto⟩
          refine ⟨word, value :: digits, ⟨value, digits, rfl, first, spells⟩, ?_⟩
          rw [onto, ofDigits_reverse_cons, List.length_cons, Nat.pow_succ]
          ring
        · rintro ⟨word, _, ⟨value, digits, rfl, first, spells⟩, whole⟩
          have onto : number = (start * radix + value) * radix ^ digits.length +
              Nat.ofDigits radix digits.reverse := by
            rw [whole, ofDigits_reverse_cons, List.length_cons, Nat.pow_succ]
            ring
          -- What has been read is no larger than the number that it is going to be.
          have fits : start * radix + value < addressLimit := by
            refine Nat.lt_of_le_of_lt ?_ word
            rw [onto]
            refine Nat.le_trans (Nat.le_mul_of_pos_right _ ?_) (Nat.le_add_right _ _)
            exact Nat.pow_pos positive
          exact ⟨value, first, _, ⟨rfl, fits⟩, (later fits).mpr ⟨word, digits, spells, onto⟩⟩

/-! ## Marks and units -/

theorem mem_units_iff {unit : List Char} {factor : Nat} :
    (unit, factor) ∈ units ↔
      (unit = [] ∧ factor = 1) ∨ ∃ letter, unit = [letter] ∧ unitFactor? letter = some factor := by
  constructor
  · intro listed
    simp only [units, List.mem_cons, List.not_mem_nil, or_false, Prod.mk.injEq] at listed
    rcases listed with ⟨rfl, rfl⟩ | ⟨rfl, rfl⟩ | ⟨rfl, rfl⟩ | ⟨rfl, rfl⟩ | ⟨rfl, rfl⟩ |
      ⟨rfl, rfl⟩ | ⟨rfl, rfl⟩
    · exact Or.inl ⟨rfl, rfl⟩
    all_goals exact Or.inr ⟨_, rfl, by decide⟩
  · rintro (⟨rfl, rfl⟩ | ⟨letter, rfl, found⟩)
    · decide
    · unfold unitFactor? at found
      split at found
      · next kilo => rcases kilo with rfl | rfl <;> cases found <;> decide
      · split at found
        · next mega => rcases mega with rfl | rfl <;> cases found <;> decide
        · split at found
          · next giga => rcases giga with rfl | rfl <;> cases found <;> decide
          · cases found

/-- What is split off the end is a unit. -/
theorem eq_append_of_splitUnit {text front : List Char} {factor : Nat}
    (split : splitUnit text = (front, factor)) :
    ∃ unit, text = front ++ unit ∧ (unit, factor) ∈ units := by
  unfold splitUnit at split
  cases found : text.getLast?.bind unitFactor? with
  | none =>
      rw [found] at split
      cases split
      exact ⟨[], (List.append_nil text).symm, mem_units_iff.mpr (Or.inl ⟨rfl, rfl⟩)⟩
  | some other =>
      rw [found] at split
      cases split
      rcases Option.bind_eq_some_iff.mp found with ⟨letter, last, unit⟩
      rcases List.getLast?_eq_some_iff.mp last with ⟨rest, rfl⟩
      rw [List.dropLast_concat]
      exact ⟨[letter], rfl, mem_units_iff.mpr (Or.inr ⟨letter, rfl, unit⟩)⟩

/-- A unit is split off unless there is none and the text ends in the letter of one. -/
theorem splitUnit_append {front unit : List Char} {factor : Nat} (known : (unit, factor) ∈ units)
    (plain : ∀ char ∈ front, unitFactor? char = none) :
    splitUnit (front ++ unit) = (front, factor) := by
  rcases mem_units_iff.mp known with ⟨rfl, rfl⟩ | ⟨letter, rfl, found⟩
  · have none : front.getLast?.bind unitFactor? = none := by
      rw [Option.bind_eq_none_iff]
      exact fun char last => plain char (List.mem_of_getLast? last)
    rw [splitUnit, List.append_nil, none]
  · rw [splitUnit, List.getLast?_concat, Option.bind_some, found, List.dropLast_concat]

/-- What is split off the front is a mark. -/
theorem eq_append_of_splitRadix {text body : List Char} {radix : Nat}
    (split : splitRadix text = (body, radix)) :
    ∃ mark, text = mark ++ body ∧ (mark, radix) ∈ marks := by
  unfold splitRadix at split
  split at split <;> cases split
  · exact ⟨['0', 'x'], rfl, by decide⟩
  · exact ⟨['0', 'X'], rfl, by decide⟩
  · exact ⟨[], rfl, by decide⟩

/-- A mark is split off; digits after no mark do not begin like one. -/
theorem splitRadix_append {mark body : List Char} {radix : Nat} {digits : List Nat}
    (known : (mark, radix) ∈ marks) (spells : Spells radix body digits) :
    splitRadix (mark ++ body) = (body, radix) := by
  simp only [marks, List.mem_cons, List.not_mem_nil, or_false, Prod.mk.injEq] at known
  rcases known with ⟨rfl, rfl⟩ | ⟨rfl, rfl⟩ | ⟨rfl, rfl⟩
  · have other {char : Char} (unread : char ≠ '_' ∧ digitIn? 10 char = none) : char ∉ body := by
      intro present
      rcases spells.isDigit_of_mem present with same | ⟨value, digit⟩
      · exact unread.1 same
      · rw [← digitIn?_eq_some_iff, unread.2] at digit
        cases digit
    have plain : 'x' ∉ body ∧ 'X' ∉ body := ⟨other (by decide), other (by decide)⟩
    rw [List.nil_append]
    unfold splitRadix
    split
    · exact absurd (by simp) plain.1
    · exact absurd (by simp) plain.2
    · rfl
  · rfl
  · rfl

/-! ## Numbers -/

/-- No mark has the letter of a unit. -/
theorem plain_of_mark {mark : List Char} {radix : Nat} (known : (mark, radix) ∈ marks) :
    ∀ char ∈ mark, unitFactor? char = none := by
  simp only [marks, List.mem_cons, List.not_mem_nil, or_false, Prod.mk.injEq] at known
  rcases known with ⟨rfl, _⟩ | ⟨rfl, _⟩ | ⟨rfl, _⟩ <;> simp [unitFactor?]

/-- The letter of a unit is no digit. -/
theorem digitValue?_of_unit {letter : Char} {factor : Nat}
    (unit : unitFactor? letter = some factor) : digitValue? letter = none := by
  have listed := mem_units_iff.mpr (Or.inr ⟨letter, rfl, unit⟩)
  simp only [units, List.mem_cons, List.not_mem_nil, or_false, Prod.mk.injEq, List.cons.injEq,
    and_true, reduceCtorEq, false_and, false_or] at listed
  rcases listed with ⟨rfl, _⟩ | ⟨rfl, _⟩ | ⟨rfl, _⟩ | ⟨rfl, _⟩ | ⟨rfl, _⟩ | ⟨rfl, _⟩ <;> decide

theorem Spells.plain {radix : Nat} {text : List Char} {digits : List Nat}
    (spells : Spells radix text digits) : ∀ char ∈ text, unitFactor? char = none := by
  intro char listed
  rcases spells.isDigit_of_mem listed with rfl | ⟨value, digit⟩
  · decide
  · refine Option.eq_none_iff_forall_ne_some.mpr fun factor unit => ?_
    rw [← digitIn?_eq_some_iff, digitIn?, digitValue?_of_unit unit] at digit
    cases digit

theorem number?_eq {text front body : List Char} {factor radix : Nat}
    (unit : splitUnit text = (front, factor)) (mark : splitRadix front = (body, radix)) :
    number? text = (readDigits? radix 0 body).bind fun value =>
      if body.any (· ≠ '_') then wordSized? (value * factor) else none := by
  rw [number?, unit]
  simp only [mark]
  rfl

theorem radix_pos : ∀ entry ∈ marks, 0 < entry.2 := by
  decide

theorem factor_pos : ∀ entry ∈ units, 0 < entry.2 := by
  decide

/-- The texts of numbers. -/
theorem number?_eq_some_iff {text : List Char} {number : Nat} :
    number? text = some number ↔ Denotes text number ∧ number < addressLimit := by
  constructor
  · intro read
    rcases split : splitUnit text with ⟨front, factor⟩
    rcases split' : splitRadix front with ⟨body, radix⟩
    rcases eq_append_of_splitUnit split with ⟨unit, rfl, unit_known⟩
    rcases eq_append_of_splitRadix split' with ⟨mark, rfl, mark_known⟩
    rw [number?_eq split split', Option.bind_eq_some_iff] at read
    rcases read with ⟨value, digits_read, sized⟩
    split at sized
    · next some_digit =>
        rcases (readDigits?_eq_some_iff (radix_pos _ mark_known) (by decide)).mp digits_read
          with ⟨_, digits, spells, onto⟩
        rcases wordSized?_eq_some_iff.mp sized with ⟨rfl, word⟩
        rw [Nat.zero_mul, Nat.zero_add] at onto
        exact ⟨⟨mark, radix, body, digits, unit, factor, rfl, mark_known, unit_known, spells,
          spells.ne_nil_iff.mpr some_digit, by rw [onto]⟩, word⟩
    · cases sized
  · rintro ⟨⟨mark, radix, body, digits, unit, factor, rfl, mark_known, unit_known, spells,
      some_digit, rfl⟩, word⟩
    have plain : ∀ char ∈ mark ++ body, unitFactor? char = none := by
      intro char listed
      rcases List.mem_append.mp listed with early | late
      · exact plain_of_mark mark_known char early
      · exact spells.plain char late
    have small : Nat.ofDigits radix digits.reverse < addressLimit :=
      Nat.lt_of_le_of_lt (Nat.le_mul_of_pos_right _ (factor_pos _ unit_known)) word
    have digits_read : readDigits? radix 0 body = some (Nat.ofDigits radix digits.reverse) :=
      (readDigits?_eq_some_iff (radix_pos _ mark_known) (by decide)).mpr
        ⟨small, digits, spells, by rw [Nat.zero_mul, Nat.zero_add]⟩
    rw [number?_eq (splitUnit_append unit_known plain) (splitRadix_append mark_known spells),
      digits_read, Option.bind_some, if_pos (spells.ne_nil_iff.mp some_digit)]
    exact wordSized?_eq_some_iff.mpr ⟨rfl, word⟩

/-- Numbers are read exactly: a value is a number if it denotes one that is a machine word,
and that number is assigned to the key.  Any other value is refused, and the error holds the
key and the value as they stand. -/
theorem numbers_exact [LevelNames] (text : String) :
    (∀ number, number? text.toList = some number ↔
      Denotes text.toList number ∧ number < addressLimit) ∧
    ∀ (settings : Settings) (key : Key), key ≠ .threshold →
      (∀ number, Denotes text.toList number → number < addressLimit →
        ∃ after, settings.applyToken (key.token text.toList) = .ok after ∧
          Sets settings key (.number number) after) ∧
      ((¬∃ number, Denotes text.toList number ∧ number < addressLimit) →
        settings.applyToken (key.token text.toList) = .error ⟨key.name, text⟩) := by
  refine ⟨fun number => number?_eq_some_iff, fun settings key numeric => ?_⟩
  have reads : key.read? text.toList = (number? text.toList).map .number := by
    cases key <;> first | rfl | exact absurd rfl numeric
  constructor
  · intro number denotes word
    refine settings.exists_applyToken ?_
    rw [reads, number?_eq_some_iff.mpr ⟨denotes, word⟩, Option.map_some]
  · intro unknown
    have unread : number? text.toList = none := by
      refine Option.eq_none_iff_forall_ne_some.mpr fun number read => ?_
      exact unknown ⟨number, number?_eq_some_iff.mp read⟩
    rw [settings.applyToken_of_unread (reads.trans (by rw [unread, Option.map_none])),
      String.ofList_toList]

/-- Hexadecimal digits under a unit, and the first number that is not a machine word. -/
example : number? "0x_0fF_K".toList = some (255 * 1024) ∧
    number? "0x1_0000_0000_0000_0000".toList = none := by
  decide

end Settings
end ModuleHost
