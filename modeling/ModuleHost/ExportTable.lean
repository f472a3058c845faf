import ModuleHost.Page

namespace ModuleHost

/-!
# The kernel's exports

The kernel offers modules a fixed table of symbols.  Names are looked up in table
order, so the first entry of a name counts.
-/

/-- A symbol of the kernel. -/
structure KernelSymbol where
  name : String
  address : Address
  deriving DecidableEq, Repr

structure ExportTable where
  symbols : List KernelSymbol
  deriving DecidableEq, Repr

namespace ExportTable

/-- The bytes that one entry takes: a text's address and length, and a value. -/
def entrySize : Nat := 24

def lookup (table : ExportTable) (name : String) : Option Address :=
  (table.symbols.find? fun symbol => symbol.name = name).map (·.address)

def count (table : ExportTable) : Nat :=
  table.symbols.length

def isEmpty (table : ExportTable) : Bool :=
  table.symbols.isEmpty

def sizeInBytes (table : ExportTable) : Nat :=
  table.count * entrySize

end ExportTable

end ModuleHost
