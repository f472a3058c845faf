import ModuleHost.Endian
import ModuleHost.Fixup.Error
import ModuleHost.Page

namespace ModuleHost
namespace Fixup

/-!
# Call stubs

A call whose target is out of an instruction's reach goes through a stub: a few
instructions that load a 64-bit literal and jump to it.  The stubs of a module
fill one page in the order in which their targets were first asked for, one stub
per target.  The page's bytes are determined by the list of targets, so the table
keeps only that list.
-/

/-- The jump of a stub: everything in front of the literal, and what follows it. -/
def stubFrame : Machine → List UInt8 × List UInt8
  | .x86_64 => ([0xff, 0x25, 0, 0, 0, 0], [0xcc, 0xcc])
  | .aarch64 => (Endian.bytes 4 0x58000050 ++ Endian.bytes 4 0xd61f0200, [])
  | .riscv =>
    (Endian.bytes 4 0x00000e17 ++ Endian.bytes 4 0x010e3e03 ++ Endian.bytes 4 0x000e0067 ++
      Endian.bytes 4 0x00000013, [])

/-- The bytes of a stub that jumps to `target`. -/
def stubBytes (machine : Machine) (target : Word) : List UInt8 :=
  (stubFrame machine).1 ++ Endian.bytes 8 target.toNat ++ (stubFrame machine).2

/-- The size of a stub. -/
def stubSize : Machine → Nat
  | .x86_64 => 16
  | .aarch64 => 16
  | .riscv => 24

theorem length_stubBytes (machine : Machine) (target : Word) :
    (stubBytes machine target).length = stubSize machine := by
  cases machine <;> simp [stubBytes, stubFrame, stubSize]

/-- The stubs of one module. -/
structure StubTable where
  machine : Machine
  /-- The address of the page. -/
  base : Address
  /-- The targets in the order of their stubs. -/
  targets : List Word := []
  deriving DecidableEq, Repr

namespace StubTable

/-- How many stubs a page holds. -/
def capacity (table : StubTable) : Nat :=
  pageSize / stubSize table.machine

/-- The address of the stub with a given position. -/
def addressOf (table : StubTable) (index : Nat) : Address :=
  table.base + index * stubSize table.machine

/-- The bytes of the page that are in use. -/
def bytes (table : StubTable) : List UInt8 :=
  table.targets.flatMap (stubBytes table.machine)

/-- The bytes of the page, zero where no stub has been made. -/
def page (table : StubTable) : List UInt8 :=
  table.bytes ++ List.replicate (pageSize - table.bytes.length) 0

/-- The stub for a target, made if there is none yet. -/
def stubFor (table : StubTable) (target : Word) : Except FixupError (StubTable × Address) :=
  match table.targets.idxOf? target with
  | some index => .ok (table, table.addressOf index)
  | none =>
    if table.capacity ≤ table.targets.length then .error .stubsExhausted
    else
      .ok ({ table with targets := table.targets ++ [target] },
        table.addressOf table.targets.length)

/-- The reports of the stubs made since there were `before` of them. -/
def noticesSince (table : StubTable) (before : Nat) : List Notice :=
  (table.targets.zipIdx.drop before).map fun (target, index) =>
    ⟨.debug, s!"[module] PLT stub {Text.hex (table.addressOf index)} -> {Text.hex target.toNat}"⟩

end StubTable

end Fixup
end ModuleHost
