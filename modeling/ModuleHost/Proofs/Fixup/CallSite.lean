import Mathlib.Algebra.Ring.Int.Defs
import ModuleHost.Proofs.Fixup.Execution
import ModuleHost.Proofs.Fixup.Field

namespace ModuleHost
namespace Fixup

/-!
# Call instructions with a displacement

A displacement that fits its field is read back by the processor as it is.  On RISC-V the
field is split over two instructions: the upper part is rounded so that adding the signed
lower part makes up the displacement again.
-/

/-! ## Reading a displacement back -/

theorem fitsSigned_iff (bits : Nat) (value : Word) :
    fitsSigned bits value = true ↔
      -(2 ^ (bits - 1) : Int) ≤ value.toInt ∧ value.toInt < (2 ^ (bits - 1) : Int) := by
  have half : Int.ofNat (1 <<< (bits - 1)) = (2 ^ (bits - 1) : Int) := by
    rw [Nat.one_shiftLeft]
    exact Int.natCast_pow 2 (bits - 1)
  rw [fitsSigned, half, Bool.and_eq_true, decide_eq_true_eq, decide_eq_true_eq, and_comm]

/-- A value in the range of a signed field is what the field is widened to. -/
theorem signExtend_setWidth {bits : Nat} (positive : 0 < bits) (small : bits ≤ 64) {value : Word}
    (fits : fitsSigned bits value = true) : (value.setWidth bits).signExtend 64 = value := by
  rcases (fitsSigned_iff bits value).mp fits with ⟨lower, upper⟩
  have double : ((2 ^ bits : Nat) : Int) = 2 ^ (bits - 1) * 2 := by
    rw [Int.natCast_pow, ← Int.pow_succ, Nat.succ_eq_add_one,
      Nat.sub_add_cancel positive]
    rfl
  apply BitVec.eq_of_toInt_eq
  rw [BitVec.toInt_signExtend_of_le small, BitVec.toInt_setWidth,
    ← Int.bmod_bmod_of_dvd (Nat.pow_dvd_pow 2 small), ← BitVec.toInt_eq_toNat_bmod]
  apply Int.bmod_eq_of_le_mul_two
  · rw [double]
    omega
  · rw [double]
    omega

/-- The two parts of a displacement, each widened, add up to it. -/
theorem high_add_low {value : Word} (fits : fitsHighLow value = true) :
    ((value + 0x800#64).extractLsb' 12 20 ++ 0#12).signExtend 64 +
      (value.extractLsb' 0 12).signExtend 64 = value := by
  rcases (fitsSigned_iff 32 _).mp fits with ⟨lower, upper⟩
  have bounded := value.isLt
  have rounded : (value + 0x800#64).toNat = (value.toNat + 2048) % 2 ^ 64 := BitVec.toNat_add _ _
  have near : (value.toNat + 2048) % 2 ^ 64 < 2 ^ 31 ∨
      2 ^ 64 - 2 ^ 31 ≤ (value.toNat + 2048) % 2 ^ 64 := by
    rw [BitVec.toInt_eq_toNat_cond, rounded] at lower upper
    split at lower <;> omega
  have high : ((value + 0x800#64).extractLsb' 12 20 ++ 0#12).toNat =
      (value.toNat + 2048) % 2 ^ 64 / 4096 % 2 ^ 20 * 4096 := by
    rw [BitVec.toNat_append, BitVec.extractLsb'_toNat, rounded, Nat.shiftLeft_eq,
      Nat.shiftRight_eq_div_pow]
    exact Nat.or_zero _
  have low : (value.extractLsb' 0 12).toNat = value.toNat % 4096 := by
    rw [BitVec.extractLsb'_toNat, Nat.shiftRight_zero]
  apply BitVec.eq_of_toNat_eq
  rw [BitVec.toNat_add, BitVec.toNat_signExtend, BitVec.toNat_signExtend, BitVec.toNat_setWidth,
    BitVec.toNat_setWidth, BitVec.msb_eq_decide, BitVec.msb_eq_decide, high, low]
  simp only [decide_eq_true_eq]
  split <;> split <;> omega

/-! ## Decoding what was encoded -/

section Decoding

variable {before after : Instruction} {value : Word}

/-- Bits that no piece covers are those of the instruction before. -/
theorem Encodes.extractLsb'_eq {pieces : List Piece} (encodes : Encodes pieces value before after)
    {position width : Nat} (inside : position + width ≤ 32)
    (apart : ∀ piece ∈ pieces, position + width ≤ piece.position ∨
      piece.position + piece.width ≤ position) :
    after.extractLsb' position width = before.extractLsb' position width := by
  apply BitVec.eq_of_getLsbD_eq
  intro bit small
  rw [BitVec.getLsbD_extractLsb', BitVec.getLsbD_extractLsb', encodes.outside _ (by omega)]
  intro piece listed has
  rcases apart piece listed with below | above
  · exact absurd has.1 (by omega)
  · exact absurd has.2 (by omega)

/-- A piece is that run of the value. -/
theorem Encodes.extractLsb'_piece {pieces : List Piece}
    (encodes : Encodes pieces value before after) (position source width : Nat)
    (listed : ⟨position, source, width⟩ ∈ pieces) :
    after.extractLsb' position width = value.extractLsb' source width := by
  apply BitVec.eq_of_getLsbD_eq
  intro bit small
  rw [BitVec.getLsbD_extractLsb', BitVec.getLsbD_extractLsb', encodes.inside _ listed bit small]

theorem decodeAArch64?_of_encodes (encodes : Encodes Piece.branch26 value before after)
    {link : Bool} {offset : Word} (found : decodeAArch64? before = some (.branch link offset))
    (fits : fitsSigned 28 value = true) (aligned : value.toNat % 4 = 0) :
    decodeAArch64? after = some (.branch link value) := by
  have kind : before.extractLsb' 26 5 = 0b00101#5 ∧ before.getLsbD 31 = link := by
    unfold decodeAArch64? at found
    split at found
    · next kind =>
        simp only [Option.some.injEq, Operation.branch.injEq] at found
        exact ⟨kind, found.1⟩
    · split at found
      · cases found
      · split at found <;> cases found
  have words : after.extractLsb' 0 26 ++ 0#2 = value.setWidth 28 := by
    have immediate : after.extractLsb' 0 26 = value.extractLsb' 2 26 :=
      encodes.extractLsb'_piece 0 2 26 List.mem_cons_self
    rw [immediate]
    apply BitVec.eq_of_toNat_eq
    rw [BitVec.toNat_append, BitVec.extractLsb'_toNat, BitVec.toNat_setWidth, Nat.shiftLeft_eq,
      Nat.shiftRight_eq_div_pow]
    refine (Nat.or_zero _).trans ?_
    omega
  have opcode : after.extractLsb' 26 5 = before.extractLsb' 26 5 :=
    encodes.extractLsb'_eq (by decide) (by decide)
  have linked : after.getLsbD 31 = before.getLsbD 31 := by
    refine encodes.outside 31 (by decide) fun piece listed has => ?_
    rcases List.mem_singleton.mp listed
    exact absurd has.2 (by decide)
  rw [decodeAArch64?, if_pos (opcode.trans kind.1), linked, kind.2, words,
    signExtend_setWidth (by decide) (by decide) fits]

theorem decodeRiscv?_of_encodes_high (encodes : Encodes Piece.high20 value before after)
    {register : Register} {offset : Word}
    (found : decodeRiscv? before = some (.addUpper register offset)) :
    decodeRiscv? after =
      some (.addUpper register ((value.extractLsb' 12 20 ++ 0#12).signExtend 64)) := by
  have kind : before.extractLsb' 0 7 = 0x17#7 ∧ before.extractLsb' 7 5 = register := by
    unfold decodeRiscv? at found
    simp only at found
    split at found
    · next kind =>
        simp only [Option.some.injEq, Operation.addUpper.injEq] at found
        exact ⟨kind, found.1⟩
    · split at found
      · cases found
      · split at found <;> cases found
  have opcode : after.extractLsb' 0 7 = before.extractLsb' 0 7 :=
    encodes.extractLsb'_eq (by decide) (by decide)
  have destination : after.extractLsb' 7 5 = before.extractLsb' 7 5 :=
    encodes.extractLsb'_eq (by decide) (by decide)
  have immediate : after.extractLsb' 12 20 = value.extractLsb' 12 20 :=
    encodes.extractLsb'_piece 12 12 20 List.mem_cons_self
  simp only [decodeRiscv?]
  rw [if_pos (opcode.trans kind.1), destination, kind.2, immediate]

theorem decodeRiscv?_of_encodes_low (encodes : Encodes (Piece.low12 .load) value before after)
    {destination base : Register} {offset : Word}
    (found : decodeRiscv? before = some (.jumpRegister destination base offset)) :
    decodeRiscv? after =
      some (.jumpRegister destination base ((value.extractLsb' 0 12).signExtend 64)) := by
  have kind : ¬before.extractLsb' 0 7 = 0x17#7 ∧
      (before.extractLsb' 0 7 = 0x67#7 ∧ before.extractLsb' 12 3 = 0#3) ∧
      before.extractLsb' 7 5 = destination ∧ before.extractLsb' 15 5 = base := by
    unfold decodeRiscv? at found
    simp only at found
    split at found
    · cases found
    · next other =>
        split at found
        · next kind =>
            simp only [Option.some.injEq, Operation.jumpRegister.injEq] at found
            exact ⟨other, kind, found.1, found.2.1⟩
        · split at found <;> cases found
  have kept (position width : Nat) (inside : position + width ≤ 20) :
      after.extractLsb' position width = before.extractLsb' position width := by
    refine encodes.extractLsb'_eq (by omega) fun piece listed => Or.inl ?_
    rcases List.mem_singleton.mp listed
    exact inside
  have immediate : after.extractLsb' 20 12 = value.extractLsb' 0 12 :=
    encodes.extractLsb'_piece 20 0 12 List.mem_cons_self
  simp only [decodeRiscv?]
  rw [kept 0 7 (by decide), kept 12 3 (by decide), kept 7 5 (by decide), kept 15 5 (by decide),
    if_neg kind.1, if_pos kind.2.1, kind.2.2.1, kind.2.2.2, immediate]

end Decoding

/-! ## Executing a call -/

section Executing

variable {memory : Memory} {cpu : Cpu}

theorem steps?_branch {link : Bool} {offset : Word} (aligned : cpu.pc.toNat % 4 = 0)
    (branches : decodeAArch64? (fetch memory cpu.pc) = some (.branch link offset)) :
    ∃ landed, steps? .aarch64 memory 1 cpu = some landed ∧ landed.pc = cpu.pc + offset := by
  refine ⟨execute .aarch64 memory cpu (.branch link offset), ?_, Cpu.pc_goto _ _⟩
  rw [steps?, step?, stepAArch64?, if_pos aligned, branches]
  rfl

theorem steps?_callPair {register destination : Register} {high low : Word}
    (written : register ≠ zeroRegister .riscv)
    (adds : decodeRiscv? (fetch memory cpu.pc) = some (.addUpper register high))
    (jumps : decodeRiscv? (fetch memory (cpu.pc + 4#64)) =
      some (.jumpRegister destination register low)) :
    ∃ landed, steps? .riscv memory 2 cpu = some landed ∧
      landed.pc = (cpu.pc + high + low) &&& ~~~1#64 := by
  let based := (cpu.set .riscv register (cpu.pc + high)).goto (cpu.pc + 4#64)
  have first : step? .riscv memory cpu = some based := by
    rw [step?, stepRiscv?, adds]
    rfl
  have second : step? .riscv memory based =
      some (execute .riscv memory based (.jumpRegister destination register low)) := by
    rw [step?, stepRiscv?, Cpu.pc_goto, jumps]
    rfl
  refine ⟨execute .riscv memory based (.jumpRegister destination register low), ?_, ?_⟩
  · rw [steps?, first, Option.bind_some, steps?, second, Option.bind_some, steps?]
  · rw [execute, Cpu.pc_goto, Cpu.get_goto, Cpu.get_set _ written]

theorem steps?_call (calls : fetchByte memory cpu.pc = 0xe8 ∨ fetchByte memory cpu.pc = 0xe9) :
    ∃ landed, steps? .x86_64 memory 1 cpu = some landed ∧
      landed.pc = cpu.pc + 5 + (fetch memory (cpu.pc + 1)).signExtend 64 := by
  refine ⟨cpu.goto (cpu.pc + 5 + (fetch memory (cpu.pc + 1)).signExtend 64), ?_, rfl⟩
  rw [steps?, step?, stepX86?, if_pos calls]
  rfl

end Executing

end Fixup
end ModuleHost
