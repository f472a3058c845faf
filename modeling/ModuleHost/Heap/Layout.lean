namespace ModuleHost
namespace Heap

/-!
# Layouts

A request for memory names a size and an alignment.  The alignment is a power of
two, and the size rounded up to it stays below half of the address space.
-/

structure Layout where
  size : Nat
  /-- The alignment is two to this power. -/
  exponent : Nat
  fits : size + 1 <<< exponent ≤ 1 <<< 63
  deriving DecidableEq, Repr

namespace Layout

def align (layout : Layout) : Nat :=
  1 <<< layout.exponent

/-- The layout of a size and an alignment, if they are admissible. -/
def ofSizeAlign? (size align : Nat) : Option Layout := do
  let exponent ← (List.range 64).find? fun exponent => 1 <<< exponent = align
  if fits : size + 1 <<< exponent ≤ 1 <<< 63 then some ⟨size, exponent, fits⟩ else none

end Layout

end Heap
end ModuleHost
