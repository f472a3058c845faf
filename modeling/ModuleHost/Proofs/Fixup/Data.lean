import ModuleHost.Proofs.Fixup.CallSite
import ModuleHost.Proofs.Fixup.Outcome

namespace ModuleHost
namespace Fixup

/-!
# Words of data

A relocation of data stores its target, or the displacement of the target from the place.  A
64-bit word holds every value.  A 32-bit word holds the lower half of the value and is widened
when it is read: by its sign, with zeros, or in whichever of these ways its reader likes.  The
relocation is refused if the reader would get another value.  That comes first: whether the
word lies inside the section is asked only of values that can be stored.
-/

/-- A relocation kind for data, by its number on a machine. -/
structure DataKind where
  machine : Machine
  kind : UInt32
  /-- The place is subtracted. -/
  relative : Bool
  deriving DecidableEq, Repr

namespace DataKind

/-- The kinds for 64-bit words: 64 and PC64, ABS64 and PREL64, and 64. -/
def whole : List DataKind :=
  [⟨.x86_64, 1, false⟩, ⟨.x86_64, 24, true⟩, ⟨.aarch64, 257, false⟩, ⟨.aarch64, 260, true⟩,
    ⟨.riscv, 2, false⟩]

/-- The kinds for 32-bit words: PC32, 32 and 32S, ABS32 and PREL32, and 32. -/
def half : List (DataKind × Extension) :=
  [(⟨.x86_64, 2, true⟩, .signed), (⟨.x86_64, 10, false⟩, .unsigned),
    (⟨.x86_64, 11, false⟩, .signed), (⟨.aarch64, 258, false⟩, .either),
    (⟨.aarch64, 261, true⟩, .signed), (⟨.riscv, 1, false⟩, .either)]

/-- A fixup of the kind. -/
def fixup (data : DataKind) (offset : Nat) (place symbol addend : Word) : Fixup :=
  ⟨data.kind, offset, place, symbol, addend⟩

/-- The value that is to be stored; sums and differences wrap. -/
def value (data : DataKind) (place symbol addend : Word) : Word :=
  if data.relative then symbol + addend - place else symbol + addend

theorem form_whole : ∀ data ∈ whole,
    Form.ofKind? data.machine data.kind = some (.data64 data.relative) := by
  decide

theorem form_half : ∀ entry ∈ half,
    Form.ofKind? entry.1.machine entry.1.kind = some (.data32 entry.1.relative entry.2) := by
  decide

end DataKind

/-- The reader of the word gets the value. -/
def Extension.Recovers (value : Word) (word : BitVec 32) : Extension → Prop
  | .signed => word.signExtend 64 = value
  | .unsigned => word.setWidth 64 = value
  | .either => word.signExtend 64 = value ∨ word.setWidth 64 = value

instance (value : Word) (word : BitVec 32) :
    (extension : Extension) → Decidable (extension.Recovers value word)
  | .signed => decEq (word.signExtend 64) value
  | .unsigned => decEq (word.setWidth 64) value
  | .either =>
    inferInstanceAs (Decidable (word.signExtend 64 = value ∨ word.setWidth 64 = value))

/-- The word is stored at the offset, lowest byte first, and nothing else differs. -/
structure Stores (before after : List UInt8) (offset : Nat) {bits : Nat} (word : BitVec bits) :
    Prop where
  length : after.length = before.length
  stored : Endian.slice after offset (bits / 8) = Endian.bytes (bits / 8) word.toNat
  others : ∀ index, ¬(offset ≤ index ∧ index < offset + bits / 8) →
    after[index]? = before[index]?

variable {machine : Machine} {linkage : Linkage} {value : Word} {bits : Nat}

/-! ## Values that are recovered -/

theorem fitsSigned_signExtend (word : BitVec 32) : fitsSigned 32 (word.signExtend 64) = true := by
  rw [fitsSigned_iff, BitVec.toInt_signExtend_of_le (by decide)]
  exact ⟨BitVec.le_toInt word, BitVec.toInt_lt⟩

theorem recovers_signed_iff :
    Extension.signed.Recovers value (value.setWidth 32) ↔ fitsSigned 32 value = true := by
  constructor
  · intro recovered
    have fits := fitsSigned_signExtend (value.setWidth 32)
    rwa [show (value.setWidth 32).signExtend 64 = value from recovered] at fits
  · exact signExtend_setWidth (by decide) (by decide)

theorem recovers_unsigned_iff :
    Extension.unsigned.Recovers value (value.setWidth 32) ↔ value.toNat < 0x100000000 := by
  constructor
  · intro recovered
    rw [← show (value.setWidth 32).setWidth 64 = value from recovered,
      BitVec.toNat_setWidth_of_le (by decide)]
    exact BitVec.isLt _
  · intro small
    apply BitVec.eq_of_toNat_eq
    rw [BitVec.toNat_setWidth_of_le (by decide), BitVec.toNat_setWidth, Nat.mod_eq_of_lt small]

/-- The values that are let pass are those that the reader of the word gets back. -/
theorem recovers_iff (extension : Extension) :
    extension.Recovers value (value.setWidth 32) ↔ extension.holds value = true := by
  cases extension with
  | signed => exact recovers_signed_iff
  | unsigned => exact recovers_unsigned_iff.trans decide_eq_true_iff.symm
  | either =>
      rw [Extension.holds, Bool.or_eq_true, decide_eq_true_iff]
      exact or_congr recovers_signed_iff recovers_unsigned_iff

/-! ## Storing a word -/

theorem bytes_setWidth (value : Word) :
    Endian.bytes 4 (value.setWidth 32).toNat = Endian.bytes 4 value.toNat := by
  apply Endian.eq_of_value_eq (by simp only [Endian.length_bytes])
  rw [Endian.value_bytes, Endian.value_bytes, BitVec.toNat_setWidth]
  exact Nat.mod_mod _ _

/-- A word that is to be stored goes to its place, if that lies inside the section. -/
theorem apply_of_store {form : Form} (fixup : Fixup) (word : BitVec bits)
    (known : Form.ofKind? machine fixup.kind = some form)
    (plans : fixup.plan linkage form =
      (linkage, .ok (.store (Endian.bytes (bits / 8) word.toNat))))
    (quiet : fixup.note linkage form = linkage) (contents : List UInt8) :
    (fixup.offset + bits / 8 ≤ contents.length →
      ∃ after, fixup.apply machine linkage contents = (linkage, .ok after) ∧
        Stores contents after fixup.offset word) ∧
    (contents.length < fixup.offset + bits / 8 →
      fixup.apply machine linkage contents = (linkage, .error (.outOfBounds fixup.offset))) := by
  have width : (Patch.store (Endian.bytes (bits / 8) word.toNat)).width = bits / 8 :=
    Endian.length_bytes _ _
  simp only [apply, known, plans]
  cases made : (Patch.store (Endian.bytes (bits / 8) word.toNat)).make? contents fixup.offset with
  | none =>
      simp only [Patch.make?, width, ite_eq_right_iff, reduceCtorEq, imp_false] at made
      exact ⟨fun inside => absurd inside made, fun _ => rfl⟩
  | some after =>
      have inside : fixup.offset + bits / 8 ≤ contents.length := by
        simp only [Patch.make?, width] at made
        split at made
        · assumption
        · cases made
      rcases Patch.make?_eq_some made with ⟨-, length, others, stored⟩
      rw [width] at others stored
      refine ⟨fun _ => ⟨after, ?_, length, stored, others⟩,
        fun outside => absurd inside (Nat.not_le_of_lt outside)⟩
      dsimp only
      rw [quiet]

/-- A 64-bit word gets the value, whatever it is. -/
theorem apply_whole {data : DataKind} (listed : data ∈ DataKind.whole) (offset : Nat)
    (place symbol addend : Word) (linkage : Linkage) (contents : List UInt8) :
    (offset + 8 ≤ contents.length → ∃ after,
      (data.fixup offset place symbol addend).apply data.machine linkage contents =
        (linkage, .ok after) ∧
      Stores contents after offset (data.value place symbol addend)) ∧
    (contents.length < offset + 8 →
      (data.fixup offset place symbol addend).apply data.machine linkage contents =
        (linkage, .error (.outOfBounds offset))) :=
  apply_of_store (data.fixup offset place symbol addend) (data.value place symbol addend)
    (DataKind.form_whole data listed) rfl rfl contents

theorem plan_half (data : DataKind) (extension : Extension) (offset : Nat)
    (place symbol addend : Word) (linkage : Linkage) :
    (data.fixup offset place symbol addend).plan linkage (.data32 data.relative extension) =
      (linkage, ((data.fixup offset place symbol addend).fitting
        (data.value place symbol addend) extension.holds).map fun value =>
          .store (Endian.bytes 4 value.toNat)) :=
  rfl

/-- A value that the reader recovers is stored in a 32-bit word. -/
theorem apply_half_of_recovers {data : DataKind} {extension : Extension}
    (listed : (data, extension) ∈ DataKind.half) {offset : Nat} {place symbol addend : Word}
    (recovered : extension.Recovers (data.value place symbol addend)
      ((data.value place symbol addend).setWidth 32)) (linkage : Linkage) (contents : List UInt8) :
    (offset + 4 ≤ contents.length → ∃ after,
      (data.fixup offset place symbol addend).apply data.machine linkage contents =
        (linkage, .ok after) ∧
      Stores contents after offset ((data.value place symbol addend).setWidth 32)) ∧
    (contents.length < offset + 4 →
      (data.fixup offset place symbol addend).apply data.machine linkage contents =
        (linkage, .error (.outOfBounds offset))) := by
  have plans := plan_half data extension offset place symbol addend linkage
  rw [fitting, if_pos ((recovers_iff extension).mp recovered), Except.map, ← bytes_setWidth]
    at plans
  exact apply_of_store (data.fixup offset place symbol addend)
    ((data.value place symbol addend).setWidth 32) (DataKind.form_half _ listed) plans rfl contents

/-- Another value is reported, wherever the word is. -/
theorem apply_half_of_not_recovers {data : DataKind} {extension : Extension}
    (listed : (data, extension) ∈ DataKind.half) {offset : Nat} {place symbol addend : Word}
    (lost : ¬extension.Recovers (data.value place symbol addend)
      ((data.value place symbol addend).setWidth 32)) (linkage : Linkage) (contents : List UInt8) :
    (data.fixup offset place symbol addend).apply data.machine linkage contents =
      (linkage, .error (.overflow data.kind (data.value place symbol addend))) := by
  have plans := plan_half data extension offset place symbol addend linkage
  rw [fitting, if_neg fun fits => lost ((recovers_iff extension).mpr fits), Except.map] at plans
  exact apply_of_plan_error (DataKind.form_half _ listed) plans contents

/-- A 64-bit word gets the value, whatever it is.  A 32-bit word gets the lower half of the value
if its reader recovers the value from that.  Otherwise the value is reported, also when the word
would lie outside the section. -/
theorem data_stored_or_overflows (offset : Nat) (place symbol addend : Word) (linkage : Linkage)
    (contents : List UInt8) :
    (∀ data ∈ DataKind.whole,
      let outcome := (data.fixup offset place symbol addend).apply data.machine linkage contents
      (offset + 8 ≤ contents.length → ∃ after, outcome = (linkage, .ok after) ∧
        Stores contents after offset (data.value place symbol addend)) ∧
      (contents.length < offset + 8 → outcome = (linkage, .error (.outOfBounds offset)))) ∧
    ∀ data extension, (data, extension) ∈ DataKind.half →
      let outcome := (data.fixup offset place symbol addend).apply data.machine linkage contents
      let value := data.value place symbol addend
      let word := value.setWidth 32
      (offset + 4 ≤ contents.length →
        ((∃ after, outcome = (linkage, .ok after) ∧ Stores contents after offset word) ↔
          extension.Recovers value word)) ∧
      (¬extension.Recovers value word →
        outcome = (linkage, .error (.overflow data.kind value))) ∧
      (contents.length < offset + 4 → extension.Recovers value word →
        outcome = (linkage, .error (.outOfBounds offset))) := by
  refine ⟨fun data listed => apply_whole listed offset place symbol addend linkage contents, ?_⟩
  intro data extension listed outcome value word
  have refused (lost : ¬extension.Recovers value word) :
      outcome = (linkage, .error (.overflow data.kind value)) :=
    apply_half_of_not_recovers listed lost linkage contents
  refine ⟨fun inside => ⟨fun ⟨after, done, _⟩ => ?_, fun recovered => ?_⟩, refused,
    fun beyond recovered => (apply_half_of_recovers listed recovered linkage contents).2 beyond⟩
  · by_contra lost
    rw [refused lost] at done
    simp at done
  · exact (apply_half_of_recovers listed recovered linkage contents).1 inside

/-- The address of a kernel goes into a 64-bit word and, by its sign, into a 32-bit word; a reader
that widens with zeros would not find it. -/
theorem data_stored_or_overflows_kernel_address :
    let contents : List UInt8 := List.replicate 8 0xcc
    let address : Word := 0xffffffff80001000
    let wide : DataKind := ⟨.riscv, 2, false⟩
    let signed : DataKind := ⟨.x86_64, 11, false⟩
    let unsigned : DataKind := ⟨.x86_64, 10, false⟩
    (∃ after, (wide.fixup 0 0 address 0).apply .riscv {} contents = ({}, .ok after) ∧
      Stores contents after 0 address) ∧
    (∃ after, (signed.fixup 4 0 address 0).apply .x86_64 {} contents = ({}, .ok after) ∧
      Stores contents after 4 (address.setWidth 32)) ∧
    (signed.fixup 5 0 address 0).apply .x86_64 {} contents = ({}, .error (.outOfBounds 5)) ∧
    (unsigned.fixup 5 0 address 0).apply .x86_64 {} contents =
      ({}, .error (.overflow 10 address)) := by
  intro contents address wide signed unsigned
  have recovered : Extension.signed.Recovers address (address.setWidth 32) := by decide
  have lost : ¬Extension.unsigned.Recovers address (address.setWidth 32) := by decide
  have inside := data_stored_or_overflows 4 0 address 0 {} contents
  have across := data_stored_or_overflows 5 0 address 0 {} contents
  exact ⟨((data_stored_or_overflows 0 0 address 0 {} contents).1 wide (by decide)).1 (by decide),
    (inside.2 signed .signed (by decide)).1 (by decide) |>.mpr recovered,
    (across.2 signed .signed (by decide)).2.2 (by decide) recovered,
    (across.2 unsigned .unsigned (by decide)).2.1 lost⟩

end Fixup
end ModuleHost
