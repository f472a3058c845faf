import ModuleHost.Notice
import ModuleHost.Object.Machine
import ModuleHost.Text.Numeral

namespace ModuleHost

/-!
# Faults of a fixup
-/

/-- A 64-bit machine word; sums and differences wrap. -/
abbrev Word := BitVec 64

/-- Why a fixup was not applied. -/
inductive FixupError
  | unsupported (machine : Machine) (kind : UInt32)
  | overflow (kind : UInt32) (value : Word)
  | outOfBounds (offset : Nat)
  | stubsExhausted
  | noStubs
  | unpairedLow (place : Word)
  deriving DecidableEq, Repr

namespace FixupError

open Text (hex)

def message : FixupError → String
  | unsupported machine kind =>
    s!"unsupported relocation type {kind.toNat} for {machine.label}"
  | overflow kind value =>
    s!"relocation type {kind.toNat} overflow (value {hex value.toNat})"
  | outOfBounds offset => s!"relocation at offset {hex offset} out of bounds"
  | stubsExhausted => "PLT page full"
  | noStubs => "call target out of range and no PLT page available"
  | unpairedLow place => s!"PCREL_LO12 at {hex place.toNat} has no matching PCREL_HI20"

/-- The family of relocation kinds that a machine's objects use. -/
def familyName : Machine → String
  | .x86_64 => "x86_64"
  | .aarch64 => "AArch64"
  | .riscv => "RISC-V"

/-- What is reported when a fixup fails with this error. -/
def notices : FixupError → List Notice
  | unsupported machine kind =>
    [⟨.warn, s!"[module] Unsupported {familyName machine} relocation type: {kind.toNat}"⟩]
  | stubsExhausted => [⟨.warn, "[module] PLT table full"⟩]
  | _ => []

end FixupError

end ModuleHost
