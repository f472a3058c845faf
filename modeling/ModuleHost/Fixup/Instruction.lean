import ModuleHost.Fixup.Form

namespace ModuleHost
namespace Fixup

/-!
# Immediate fields of instructions

An instruction is a 32-bit word.  Each function replaces the immediate field of
one format and keeps every other bit: the word is written out from its highest
bits down, taking the immediate's pieces from the value and the rest from the
instruction.
-/

abbrev Instruction := BitVec 32

namespace Instruction

/-- AArch64 branches count words, in the low 26 bits. -/
def withBranch26 (insn : Instruction) (displacement : BitVec 64) : Instruction :=
  insn.extractLsb' 26 6 ++ displacement.extractLsb' 2 26

/-- AArch64 page addresses keep the lowest two bits of the page count apart. -/
def withPage21 (insn : Instruction) (pages : BitVec 64) : Instruction :=
  insn.extractLsb' 31 1 ++ pages.extractLsb' 0 2 ++ insn.extractLsb' 24 5 ++
    pages.extractLsb' 2 19 ++ insn.extractLsb' 0 5

/-- The 12-bit immediate of AArch64 additions and accesses. -/
def withImmediate12 (insn : Instruction) (immediate : BitVec 12) : Instruction :=
  insn.extractLsb' 22 10 ++ immediate ++ insn.extractLsb' 0 10

/-- The upper 20 bits of a RISC-V value, rounded so that a signed low part of 12
bits makes up the rest. -/
def withHigh20 (insn : Instruction) (value : BitVec 64) : Instruction :=
  (value + 0x800#64).extractLsb' 12 20 ++ insn.extractLsb' 0 12

/-- The low 12 bits of a RISC-V value, contiguous or around the register fields. -/
def withLow12 (layout : LowLayout) (insn : Instruction) (value : BitVec 64) : Instruction :=
  match layout with
  | .load => value.extractLsb' 0 12 ++ insn.extractLsb' 0 20
  | .store =>
    value.extractLsb' 5 7 ++ insn.extractLsb' 12 13 ++ value.extractLsb' 0 5 ++
      insn.extractLsb' 0 7

/-- RISC-V conditional branches scatter an even 13-bit displacement. -/
def withBranch12 (insn : Instruction) (displacement : BitVec 64) : Instruction :=
  displacement.extractLsb' 12 1 ++ displacement.extractLsb' 5 6 ++ insn.extractLsb' 12 13 ++
    displacement.extractLsb' 1 4 ++ displacement.extractLsb' 11 1 ++ insn.extractLsb' 0 7

/-- RISC-V jumps scatter an even 21-bit displacement. -/
def withJump20 (insn : Instruction) (displacement : BitVec 64) : Instruction :=
  displacement.extractLsb' 20 1 ++ displacement.extractLsb' 1 10 ++
    displacement.extractLsb' 11 1 ++ displacement.extractLsb' 12 8 ++ insn.extractLsb' 0 12

end Instruction

end Fixup
end ModuleHost
