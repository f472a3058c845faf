namespace ModuleHost

/-!
# Machines

The instruction sets that module objects can be built for, with the numbers that
object files use for them.
-/

inductive Machine
  | x86_64
  | aarch64
  | riscv
  deriving DecidableEq, Repr

namespace Machine

/-- The number of a machine in an object header. -/
def code : Machine → UInt16
  | .x86_64 => 62
  | .aarch64 => 183
  | .riscv => 243

/-- The machine with a given number. -/
def ofCode? (code : UInt16) : Option Machine :=
  [x86_64, aarch64, riscv].find? fun machine => machine.code = code

/-- The name of a machine in messages. -/
def label : Machine → String
  | .x86_64 => "X86_64"
  | .aarch64 => "AArch64"
  | .riscv => "RiscV"

/-- The machine that the host itself runs on. -/
def native : Machine := .x86_64

theorem ofCode?_code (machine : Machine) : ofCode? machine.code = some machine := by
  cases machine <;> rfl

end Machine

end ModuleHost
