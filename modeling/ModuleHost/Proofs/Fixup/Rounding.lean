import Mathlib.Algebra.Order.Ring.Int
import ModuleHost.Proofs.Fixup.Recomputation

namespace ModuleHost
namespace Fixup

/-!
# Immediates that count larger units

Some immediates count words, halfwords or the units of an access and leave out the low bits of
their value.  A fixup looks at the range of the value only, so it succeeds with a value that is
no multiple of the unit, and the processor gets the multiple below.
-/

/-- What is read is the multiple of the unit at or below the value, hence the value itself
exactly if that is a multiple. -/
structure RoundsTo (unit : Nat) (value read : Int) : Prop where
  below : read = value / unit * unit
  exact_iff : read = value ↔ (unit : Int) ∣ value

theorem roundsTo_of_eq {unit : Nat} {value read : Int} (below : read = value / unit * unit) :
    RoundsTo unit value read where
  below := below
  exact_iff := by
    rw [below]
    exact ⟨fun same => Dvd.intro_left (value / unit) same, Int.ediv_mul_cancel⟩

/-- Clearing the low bits of a word rounds its number down. -/
theorem toInt_clear {bits : Nat} (small : bits < 64) (value : Word) :
    (value &&& ~~~BitVec.ofNat 64 (2 ^ bits - 1)).toInt = value.toInt / 2 ^ bits * 2 ^ bits := by
  have shifted : value &&& ~~~BitVec.ofNat 64 (2 ^ bits - 1) =
      (value.sshiftRight bits) <<< bits := by
    apply BitVec.eq_of_getLsbD_eq
    intro bit bounded
    rw [BitVec.getLsbD_and, BitVec.getLsbD_not, getLsbD_lowest bits bounded]
    simp only [BitVec.getLsbD_shiftLeft, BitVec.getLsbD_sshiftRight]
    grind
  have quotient : (value.sshiftRight bits).toInt = value.toInt / 2 ^ bits := by
    rw [BitVec.toInt_sshiftRight, Int.shiftRight_eq_div_pow]
    rfl
  have lower : -2 ^ 63 ≤ value.toInt := BitVec.le_toInt value
  have upper : value.toInt < 2 ^ 63 := BitVec.toInt_lt
  have split : (2 : Int) ^ (63 - bits) * 2 ^ bits = 2 ^ 63 := by
    rw [← pow_add, Nat.sub_add_cancel (Nat.le_of_lt_succ small)]
  have positive : (0 : Int) < 2 ^ bits := pow_pos (by decide) bits
  have above : value.toInt / 2 ^ bits * 2 ^ bits ≤ value.toInt := Int.ediv_mul_le _ positive.ne'
  have bottom : -2 ^ (63 - bits) ≤ value.toInt / 2 ^ bits :=
    Int.le_ediv_of_mul_le positive (by rw [neg_mul, split]; exact lower)
  have below : -2 ^ 63 ≤ value.toInt / 2 ^ bits * 2 ^ bits := by
    rw [← split, ← neg_mul]
    exact Int.mul_le_mul_of_nonneg_right bottom positive.le
  rw [shifted, BitVec.toInt_shiftLeft, Nat.shiftLeft_eq, Nat.cast_mul, ← Int.bmod_mul_bmod,
    ← BitVec.toInt_eq_toNat_bmod, quotient, Nat.cast_pow, Nat.cast_ofNat]
  exact Int.bmod_eq_of_le below (by omega)

/-! ## Success does not depend on the low bits -/

section Success

variable {fixup : Fixup} {machine : Machine} {linkage : Linkage} {contents : List UInt8}

theorem exists_fitting_iff {value : Word} {fits : Word → Bool} {make : Word → Patch} :
    (∃ patch, (fixup.fitting value fits).map make = .ok patch) ↔ fits value = true := by
  constructor
  · rintro ⟨patch, planned⟩
    exact (map_fitting_eq_ok planned).1
  · intro fitting
    rw [Fixup.fitting, if_pos fitting]
    exact ⟨_, rfl⟩

theorem succeeds_branch26 (known : StandsFor machine fixup.kind .branch26)
    (near : fitsSigned 28 (fixup.symbol + fixup.addend - fixup.place) = true) :
    Succeeds (fixup.apply machine linkage contents) ↔ fixup.offset + 4 ≤ contents.length := by
  refine (succeeds_iff (standsFor_iff.mp known) (by decide)).trans (and_iff_right ?_)
  have unbiased : fixup.symbol + fixup.addend + 0 = fixup.symbol + fixup.addend :=
    BitVec.add_zero _
  have direct : fixup.route linkage (fixup.symbol + fixup.addend) 0 (fitsSigned 28) =
      (linkage, .ok (fixup.symbol + fixup.addend - fixup.place)) := by
    simp only [route, unbiased, if_pos near]
  simp only [plan, direct]
  exact ⟨_, rfl⟩

theorem succeeds_pageOffsetAccess {scale : Nat}
    (known : StandsFor machine fixup.kind (.pageOffsetAccess scale)) :
    Succeeds (fixup.apply machine linkage contents) ↔ fixup.offset + 4 ≤ contents.length :=
  (succeeds_iff (standsFor_iff.mp known) (by decide : 0 < 4)).trans (and_iff_right ⟨_, rfl⟩)

theorem succeeds_branch12 (known : StandsFor machine fixup.kind .branch12) :
    Succeeds (fixup.apply machine linkage contents) ↔
      fitsSigned 13 (fixup.symbol + fixup.addend - fixup.place) = true ∧
        fixup.offset + 4 ≤ contents.length :=
  (succeeds_iff (standsFor_iff.mp known) (by decide)).trans (and_congr_left' exists_fitting_iff)

theorem succeeds_jump20 (known : StandsFor machine fixup.kind .jump20) :
    Succeeds (fixup.apply machine linkage contents) ↔
      fitsSigned 21 (fixup.symbol + fixup.addend - fixup.place) = true ∧
        fixup.offset + 4 ≤ contents.length :=
  (succeeds_iff (standsFor_iff.mp known) (by decide)).trans (and_congr_left' exists_fitting_iff)

end Success

/-- The immediate of a branch, an access or a jump is the multiple of its unit at or below the
value, and equals the value just when that is a multiple; and whether the fixup succeeds is
decided by the range of the value and the length of the section alone. -/
theorem scaled_immediates_round_down :
    -- AArch64 branches that reach their target themselves
    (∀ call : Application .aarch64 .branch26, InRange (-2 ^ 27) (2 ^ 27) call.displacement →
      RoundsTo 4 call.displacement.toInt (Format.branch.read (call.left 0)).toInt) ∧
    -- AArch64 accesses
    (∀ (scale : Nat) (access : Application .aarch64 (.pageOffsetAccess scale)),
      RoundsTo (2 ^ scale) (access.target.toNat % 4096 : Nat)
        ((Format.pageOffset scale).read (access.left 0)).toNat) ∧
    -- RISC-V conditional branches and jumps
    (∀ branch : Application .riscv .branch12,
      RoundsTo 2 branch.displacement.toInt (Format.conditional.read (branch.left 0)).toInt) ∧
    (∀ jump : Application .riscv .jump20,
      RoundsTo 2 jump.displacement.toInt (Format.jump.read (jump.left 0)).toInt) ∧
    -- success
    ∀ (fixup : Fixup) (linkage : Linkage) (contents : List UInt8),
      let displacement := fixup.symbol + fixup.addend - fixup.place
      let inside := fixup.offset + 4 ≤ contents.length
      (StandsFor .aarch64 fixup.kind .branch26 →
        InRange (-2 ^ 27) (2 ^ 27) displacement →
        (Succeeds (fixup.apply .aarch64 linkage contents) ↔ inside)) ∧
      (∀ scale, StandsFor .aarch64 fixup.kind (.pageOffsetAccess scale) →
        (Succeeds (fixup.apply .aarch64 linkage contents) ↔ inside)) ∧
      (StandsFor .riscv fixup.kind .branch12 →
        (Succeeds (fixup.apply .riscv linkage contents) ↔
          InRange (-2 ^ 12) (2 ^ 12) displacement ∧ inside)) ∧
      (StandsFor .riscv fixup.kind .jump20 →
        (Succeeds (fixup.apply .riscv linkage contents) ↔
          InRange (-2 ^ 20) (2 ^ 20) displacement ∧ inside)) := by
  refine ⟨?_, ?_, ?_, ?_, ?_⟩
  · intro call near
    rw [call.read_branch26 ((fitsSigned_iff_inRange 28 _).mpr near)]
    exact roundsTo_of_eq (toInt_clear (by decide : 2 < 64) _)
  · intro scale access
    rw [access.read_pageOffsetAccess]
    exact roundsTo_of_eq (by push_cast; rfl)
  · intro branch
    rw [branch.read_branch12]
    exact roundsTo_of_eq (toInt_clear (by decide : 1 < 64) _)
  · intro jump
    rw [jump.read_jump20]
    exact roundsTo_of_eq (toInt_clear (by decide : 1 < 64) _)
  · intro fixup linkage contents displacement inside
    refine ⟨fun known near => ?_, fun scale known => succeeds_pageOffsetAccess known,
      fun known => ?_, fun known => ?_⟩
    · exact succeeds_branch26 known ((fitsSigned_iff_inRange 28 _).mpr near)
    · exact (succeeds_branch12 known).trans (and_congr_left' (fitsSigned_iff_inRange 13 _))
    · exact (succeeds_jump20 known).trans (and_congr_left' (fitsSigned_iff_inRange 21 _))

/-- An access to a word at an address that is no multiple of eight. -/
theorem scaled_immediates_round_down_access :
    ∃ access : Application .aarch64 (.pageOffsetAccess 3), access.target = 0x1236#64 ∧
      ((Format.pageOffset 3).read (access.left 0)).toNat = 0x230 ∧
      RoundsTo (2 ^ 3) (access.target.toNat % 4096 : Nat)
        ((Format.pageOffset 3).read (access.left 0)).toNat ∧
      (Succeeds (access.fixup.apply .aarch64 access.linkage access.contents) ↔
        access.fixup.offset + 4 ≤ access.contents.length) := by
  let access : Application .aarch64 (.pageOffsetAccess 3) :=
    { fixup := { kind := 286, offset := 0, place := 0x1000, symbol := 0x1230, addend := 6 }
      linkage := {}
      contents := Endian.bytes 4 0xf9400000
      after := {}
      patched := Endian.bytes 4 0xf9411800
      known := by decide
      applied := by decide }
  exact ⟨access, by decide, by decide, scaled_immediates_round_down.2.1 3 access,
    (scaled_immediates_round_down.2.2.2.2 access.fixup access.linkage access.contents).2.1 3
      access.known⟩

/-- A call of a target two bytes ahead is applied, and is left a call of the instruction
itself. -/
theorem halfword_call_misses :
    ∃ call : Application .aarch64 .branch26,
      InRange (-2 ^ 27) (2 ^ 27) call.displacement ∧ call.displacement = 2#64 ∧
      Format.branch.read (call.left 0) = 0#64 := by
  let call : Application .aarch64 .branch26 :=
    { fixup := { kind := 283, offset := 0, place := 0x1000, symbol := 0x1000, addend := 2 }
      linkage := {}
      contents := Endian.bytes 4 0x94000000
      after := {}
      patched := Endian.bytes 4 0x94000000
      known := by decide
      applied := by decide }
  exact ⟨call, by unfold InRange; decide, by decide, by decide⟩

end Fixup
end ModuleHost
