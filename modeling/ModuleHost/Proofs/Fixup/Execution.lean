import ModuleHost.Fixup.Stub
import ModuleHost.Fixup.Instruction
import ModuleHost.Proofs.Fixup.Stub
import ModuleHost.Proofs.Endian
import ModuleHost.Proofs.Memory

namespace ModuleHost
namespace Fixup

/-!
# Control transfers

The few instructions that a call and its stub consist of, as a processor executes them.
Only what decides where control goes is kept: the program counter, the integer registers
and the memory that instructions and literals are read from.
-/

abbrev Register := BitVec 5

structure Cpu where
  pc : Word
  registers : Register → Word

/-- The register that reads as zero and is never written. -/
def zeroRegister : Machine → Register
  | .riscv => 0
  | _ => 31

namespace Cpu

def get (cpu : Cpu) (machine : Machine) (register : Register) : Word :=
  if register = zeroRegister machine then 0 else cpu.registers register

def set (cpu : Cpu) (machine : Machine) (register : Register) (value : Word) : Cpu :=
  if register = zeroRegister machine then cpu
  else
    { cpu with registers := fun other => if other = register then value else cpu.registers other }

/-- Go on at another place. -/
def goto (cpu : Cpu) (pc : Word) : Cpu :=
  { cpu with pc }

@[simp] theorem pc_goto (cpu : Cpu) (pc : Word) : (cpu.goto pc).pc = pc := rfl

@[simp] theorem goto_goto (cpu : Cpu) (pc pc' : Word) : (cpu.goto pc).goto pc' = cpu.goto pc' :=
  rfl

@[simp] theorem get_goto (cpu : Cpu) (pc : Word) (machine : Machine) (register : Register) :
    (cpu.goto pc).get machine register = cpu.get machine register := rfl

@[simp] theorem set_goto (cpu : Cpu) (pc : Word) (machine : Machine) (register : Register)
    (value : Word) :
    (cpu.goto pc).set machine register value = (cpu.set machine register value).goto pc := by
  unfold set goto
  split <;> rfl

theorem get_set (cpu : Cpu) {machine : Machine} {register : Register}
    (written : register ≠ zeroRegister machine) (value : Word) :
    (cpu.set machine register value).get machine register = value := by
  simp [get, set, written]

end Cpu

/-! ## Instructions -/

/-- The byte, the 32-bit word and the 64-bit word at an address. -/
def fetchByte (memory : Memory) (address : Word) : UInt8 :=
  memory.byteAt address.toNat

def fetch (memory : Memory) (address : Word) : Instruction :=
  BitVec.ofNat 32 (Endian.value (memory.read address.toNat 4))

def load (memory : Memory) (address : Word) : Word :=
  BitVec.ofNat 64 (Endian.value (memory.read address.toNat 8))

/-- What an instruction of 32 bits does.  Offsets are signed. -/
inductive Operation
  /-- Go to a place relative to the instruction, with or without a link. -/
  | branch (link : Bool) (offset : Word)
  | branchRegister (register : Register)
  /-- Load a word that stands relative to the instruction. -/
  | loadLiteral (destination : Register) (offset : Word)
  /-- The address of a place relative to the instruction. -/
  | addUpper (destination : Register) (offset : Word)
  /-- Go to an even address relative to a register, with a link. -/
  | jumpRegister (destination base : Register) (offset : Word)
  | loadRegister (destination base : Register) (offset : Word)
  deriving DecidableEq

/-- AArch64: `b` and `bl`, `ldr` of a literal, `br`. -/
def decodeAArch64? (insn : Instruction) : Option Operation :=
  if insn.extractLsb' 26 5 = 0b00101#5 then
    some (.branch (insn.getLsbD 31) ((insn.extractLsb' 0 26 ++ 0#2).signExtend 64))
  else if insn.extractLsb' 24 8 = 0x58#8 then
    some (.loadLiteral (insn.extractLsb' 0 5) ((insn.extractLsb' 5 19 ++ 0#2).signExtend 64))
  else if insn.extractLsb' 10 22 = 0x3587c0#22 ∧ insn.extractLsb' 0 5 = 0#5 then
    some (.branchRegister (insn.extractLsb' 5 5))
  else none

/-- RISC-V: `auipc`, `jalr` and `ld`. -/
def decodeRiscv? (insn : Instruction) : Option Operation :=
  let destination := insn.extractLsb' 7 5
  let base := insn.extractLsb' 15 5
  let immediate := (insn.extractLsb' 20 12).signExtend 64
  if insn.extractLsb' 0 7 = 0x17#7 then
    some (.addUpper destination ((insn.extractLsb' 12 20 ++ 0#12).signExtend 64))
  else if insn.extractLsb' 0 7 = 0x67#7 ∧ insn.extractLsb' 12 3 = 0#3 then
    some (.jumpRegister destination base immediate)
  else if insn.extractLsb' 0 7 = 0x03#7 ∧ insn.extractLsb' 12 3 = 3#3 then
    some (.loadRegister destination base immediate)
  else none

def execute (machine : Machine) (memory : Memory) (cpu : Cpu) : Operation → Cpu
  | .branch link offset =>
    (if link then cpu.set machine 30 (cpu.pc + 4#64) else cpu).goto (cpu.pc + offset)
  | .branchRegister register => cpu.goto (cpu.get machine register)
  | .loadLiteral destination offset =>
    (cpu.set machine destination (load memory (cpu.pc + offset))).goto (cpu.pc + 4#64)
  | .addUpper destination offset =>
    (cpu.set machine destination (cpu.pc + offset)).goto (cpu.pc + 4#64)
  | .jumpRegister destination base offset =>
    (cpu.set machine destination (cpu.pc + 4#64)).goto ((cpu.get machine base + offset) &&& ~~~1#64)
  | .loadRegister destination base offset =>
    (cpu.set machine destination (load memory (cpu.get machine base + offset))).goto (cpu.pc + 4#64)

/-- AArch64 executes no instruction at an address that is not a multiple of four. -/
def stepAArch64? (memory : Memory) (cpu : Cpu) : Option Cpu :=
  if cpu.pc.toNat % 4 = 0 then
    (decodeAArch64? (fetch memory cpu.pc)).map (execute .aarch64 memory cpu)
  else none

def stepRiscv? (memory : Memory) (cpu : Cpu) : Option Cpu :=
  (decodeRiscv? (fetch memory cpu.pc)).map (execute .riscv memory cpu)

/-- Relative `call` and `jmp`, and `jmp` through a word relative to the end of the
instruction.  The return address that a call pushes is left out. -/
def stepX86? (memory : Memory) (cpu : Cpu) : Option Cpu :=
  let opcode := fetchByte memory cpu.pc
  if opcode = 0xe8 ∨ opcode = 0xe9 then
    some (cpu.goto (cpu.pc + 5 + (fetch memory (cpu.pc + 1)).signExtend 64))
  else if opcode = 0xff ∧ fetchByte memory (cpu.pc + 1) = 0x25 then
    some (cpu.goto (load memory (cpu.pc + 6 + (fetch memory (cpu.pc + 2)).signExtend 64)))
  else none

def step? : Machine → Memory → Cpu → Option Cpu
  | .x86_64 => stepX86?
  | .aarch64 => stepAArch64?
  | .riscv => stepRiscv?

def steps? (machine : Machine) (memory : Memory) : Nat → Cpu → Option Cpu
  | 0, cpu => some cpu
  | count + 1, cpu => (step? machine memory cpu).bind (steps? machine memory count)

/-- Control is at the target, or gets there by executing instructions of a page. -/
inductive Reaches (machine : Machine) (memory : Memory) (page : Range) (target : Word) :
    Cpu → Prop
  | arrived (cpu : Cpu) (here : cpu.pc = target) : Reaches machine memory page target cpu
  | onward (cpu next : Cpu) (inside : page.Has cpu.pc.toNat)
      (step : step? machine memory cpu = some next)
      (rest : Reaches machine memory page target next) : Reaches machine memory page target cpu

/-- An even address is where a jump to a register's value goes. -/
theorem and_not_one_eq_self {value : Word} (even : value.toNat % 2 = 0) :
    value &&& ~~~1#64 = value := by
  have lowest : value.getLsbD 0 = false := by
    rw [BitVec.getLsbD, Nat.testBit_zero, even]
    rfl
  apply BitVec.eq_of_getLsbD_eq
  intro bit small
  rw [BitVec.getLsbD_and, BitVec.getLsbD_not, BitVec.getLsbD_one]
  cases bit with
  | zero => rw [lowest, Bool.false_and]
  | succ bit => simp [small]

/-! ## Stubs -/

/-- The stub of a target stands at an address of a page. -/
structure StubAt (machine : Machine) (memory : Memory) (page : Range) (target stub : Word) :
    Prop where
  bytes : memory.read stub.toNat (stubSize machine) = stubBytes machine target
  above : page.start ≤ stub.toNat
  below : stub.toNat + stubSize machine ≤ page.start + page.size
  bounded : page.start + page.size ≤ 2 ^ 64
  aligned : stub.toNat % 8 = 0

namespace StubAt

variable {machine : Machine} {memory : Memory} {page : Range} {target stub : Word}

/-- The address of a byte of the stub. -/
theorem toNat_add (at_ : StubAt machine memory page target stub) {offset : Nat}
    (inside : offset < stubSize machine) :
    (stub + BitVec.ofNat 64 offset).toNat = stub.toNat + offset := by
  have below := at_.below
  have bounded := at_.bounded
  rw [BitVec.toNat_add, BitVec.toNat_ofNat, Nat.mod_eq_of_lt (by lia), Nat.mod_eq_of_lt (by lia)]

theorem has (at_ : StubAt machine memory page target stub) {offset : Nat}
    (inside : offset < stubSize machine) : page.Has (stub + BitVec.ofNat 64 offset).toNat := by
  have above := at_.above
  have below := at_.below
  rw [at_.toNat_add inside]
  exact ⟨by lia, by lia⟩

/-- Reading a part of the stub. -/
theorem read (at_ : StubAt machine memory page target stub) {offset count : Nat}
    (positive : 0 < count) (inside : offset + count ≤ stubSize machine) :
    memory.read (stub + BitVec.ofNat 64 offset).toNat count =
      Endian.slice (stubBytes machine target) offset count := by
  rw [at_.toNat_add (by omega), ← at_.bytes, Memory.slice_read memory _ inside]

theorem fetchByte_eq (at_ : StubAt machine memory page target stub) {offset : Nat}
    (inside : offset < stubSize machine) : fetchByte memory (stub + BitVec.ofNat 64 offset) =
      (stubBytes machine target).getD offset 0 := by
  have byte := Memory.getElem?_read memory stub.toNat (stubSize machine) offset
  rw [if_pos inside, at_.bytes] at byte
  rw [fetchByte, at_.toNat_add inside, List.getD_eq_getElem?_getD, byte, Option.getD_some]

/-- The instructions of a stub do not depend on its target. -/
theorem fetch_eq (at_ : StubAt machine memory page target stub) {offset : Nat}
    (front : offset + 4 ≤ (stubFrame machine).1.length) :
    fetch memory (stub + BitVec.ofNat 64 offset) =
      BitVec.ofNat 32 (Endian.value (Endian.slice (stubFrame machine).1 offset 4)) := by
  have inside : offset + 4 ≤ stubSize machine := by
    have size := length_stubBytes machine target
    simp only [stubBytes, List.length_append] at size
    omega
  have same : Endian.slice (stubBytes machine target) offset 4 =
      Endian.slice (stubFrame machine).1 offset 4 := by
    rw [stubBytes, Endian.slice, Endian.slice, List.append_assoc,
      List.drop_append_of_le_length (by omega), List.take_append_of_le_length]
    rw [List.length_drop]
    omega
  rw [fetch, at_.read (by decide) inside, same]

theorem fetch_start (at_ : StubAt machine memory page target stub)
    (front : 4 ≤ (stubFrame machine).1.length) : fetch memory stub =
      BitVec.ofNat 32 (Endian.value (Endian.slice (stubFrame machine).1 0 4)) := by
  have fetched := at_.fetch_eq (show 0 + 4 ≤ (stubFrame machine).1.length from front)
  rwa [BitVec.add_zero] at fetched

/-- The literal of a stub is its target. -/
theorem load_eq (at_ : StubAt machine memory page target stub) {offset : Nat}
    (behind : (stubFrame machine).1.length = offset) :
    load memory (stub + BitVec.ofNat 64 offset) = target := by
  have size : offset + 8 ≤ stubSize machine := by
    rw [← behind]
    cases machine <;> decide
  have literal : Endian.slice (stubBytes machine target) offset 8 =
      Endian.bytes 8 target.toNat := by
    rw [← behind, length_stubFrame, slice_literal]
  rw [load, at_.read (by decide) size, literal, Endian.value_bytes,
    Nat.mod_eq_of_lt (show target.toNat < 256 ^ 8 from target.isLt), BitVec.ofNat_toNat,
    BitVec.setWidth_eq]

theorem has_start (at_ : StubAt machine memory page target stub) : page.Has stub.toNat := by
  have inside := at_.has (show 0 < stubSize machine by cases machine <;> decide)
  rwa [BitVec.add_zero] at inside

theorem reaches_x86_64 (at_ : StubAt .x86_64 memory page target stub) {cpu : Cpu}
    (here : cpu.pc = stub) : Reaches .x86_64 memory page target cpu := by
  subst here
  have opcode : fetchByte memory cpu.pc = 0xff := by
    have byte := at_.fetchByte_eq (show 0 < stubSize .x86_64 by decide)
    rwa [BitVec.add_zero] at byte
  have mode : fetchByte memory (cpu.pc + 1#64) = 0x25 := at_.fetchByte_eq (by decide)
  have displacement : fetch memory (cpu.pc + 2#64) = 0#32 := at_.fetch_eq (by decide)
  have literal : load memory (cpu.pc + 6#64) = target := at_.load_eq rfl
  have jumps : step? .x86_64 memory cpu = some (cpu.goto target) := by
    simp [step?, stepX86?, opcode, mode, displacement, literal]
  exact .onward _ _ at_.has_start jumps (.arrived _ rfl)

theorem reaches_aarch64 (at_ : StubAt .aarch64 memory page target stub) {cpu : Cpu}
    (here : cpu.pc = stub) : Reaches .aarch64 memory page target cpu := by
  subst here
  have first : fetch memory cpu.pc = 0x58000050#32 :=
    (at_.fetch_start (by decide)).trans (by decide)
  have second : fetch memory (cpu.pc + 4#64) = 0xd61f0200#32 :=
    (at_.fetch_eq (by decide)).trans (by decide)
  have literal : load memory (cpu.pc + 8#64) = target := at_.load_eq rfl
  have further : (cpu.pc + 4#64).toNat = cpu.pc.toNat + 4 := at_.toNat_add (by decide)
  have aligned := at_.aligned
  let loaded := cpu.set .aarch64 16 target
  have held : loaded.get .aarch64 16 = target := cpu.get_set (by decide) target
  have loads : step? .aarch64 memory cpu = some (loaded.goto (cpu.pc + 4#64)) := by
    have decoded : decodeAArch64? 0x58000050#32 = some (.loadLiteral 16 8) := by decide
    rw [step?, stepAArch64?, if_pos (by omega), first, decoded, Option.map_some, execute]
    exact congrArg (fun value => some ((cpu.set .aarch64 16 value).goto (cpu.pc + 4#64))) literal
  have jumps : step? .aarch64 memory (loaded.goto (cpu.pc + 4#64)) =
      some (loaded.goto target) := by
    have decoded : decodeAArch64? 0xd61f0200#32 = some (.branchRegister 16) := by decide
    rw [step?, stepAArch64?, Cpu.pc_goto, if_pos (by omega), second, decoded, Option.map_some,
      execute, Cpu.get_goto, held, Cpu.goto_goto]
  exact .onward _ _ at_.has_start loads (.onward _ _ (at_.has (by decide)) jumps (.arrived _ rfl))

theorem reaches_riscv (at_ : StubAt .riscv memory page target stub)
    (even : target.toNat % 2 = 0) {cpu : Cpu} (here : cpu.pc = stub) :
    Reaches .riscv memory page target cpu := by
  subst here
  have first : fetch memory cpu.pc = 0x00000e17#32 :=
    (at_.fetch_start (by decide)).trans (by decide)
  have second : fetch memory (cpu.pc + 4#64) = 0x010e3e03#32 :=
    (at_.fetch_eq (by decide)).trans (by decide)
  have third : fetch memory (cpu.pc + 8#64) = 0x000e0067#32 :=
    (at_.fetch_eq (by decide)).trans (by decide)
  have literal : load memory (cpu.pc + 16#64) = target := at_.load_eq rfl
  let based := cpu.set .riscv 28 cpu.pc
  have basedAt : based.get .riscv 28 = cpu.pc := cpu.get_set (by decide) cpu.pc
  let loaded := based.set .riscv 28 target
  have loadedAt : loaded.get .riscv 28 = target := based.get_set (by decide) target
  have bases : step? .riscv memory cpu = some (based.goto (cpu.pc + 4#64)) := by
    have decoded : decodeRiscv? 0x00000e17#32 = some (.addUpper 28 0#64) := by decide
    rw [step?, stepRiscv?, first, decoded, Option.map_some, execute, BitVec.add_zero]
  have loads : step? .riscv memory (based.goto (cpu.pc + 4#64)) =
      some (loaded.goto (cpu.pc + 8#64)) := by
    have decoded : decodeRiscv? 0x010e3e03#32 = some (.loadRegister 28 28 16#64) := by decide
    rw [step?, stepRiscv?, Cpu.pc_goto, second, decoded, Option.map_some, execute,
      Cpu.get_goto, basedAt, literal, Cpu.set_goto, Cpu.goto_goto, Cpu.pc_goto, BitVec.add_assoc]
    rfl
  have jumps : step? .riscv memory (loaded.goto (cpu.pc + 8#64)) =
      some ((loaded.set .riscv 0 (cpu.pc + 12#64)).goto target) := by
    have decoded : decodeRiscv? 0x000e0067#32 = some (.jumpRegister 0 28 0#64) := by decide
    rw [step?, stepRiscv?, Cpu.pc_goto, third, decoded, Option.map_some, execute,
      Cpu.get_goto, loadedAt, BitVec.add_zero, and_not_one_eq_self even, Cpu.set_goto,
      Cpu.goto_goto, Cpu.pc_goto, BitVec.add_assoc]
    rfl
  exact .onward _ _ at_.has_start bases (.onward _ _ (at_.has (by decide)) loads
    (.onward _ _ (at_.has (by decide)) jumps (.arrived _ rfl)))

end StubAt

end Fixup
end ModuleHost
