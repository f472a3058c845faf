namespace ModuleHost

/-!
# Addresses and pages

Addresses and sizes are natural numbers.  The machine's address space ends at
`addressLimit`; whoever adds a size to an address compares the sum with that
limit instead of letting it wrap.  Only the values of symbols, which may be any
words, are added to addresses as the machine adds.
-/

/-- A place in the address space. -/
abbrev Address := Nat

/-- One past the largest machine word, hence one past the last address. -/
def addressLimit : Nat := 0x10000000000000000

def pageSize : Nat := 4096

/-- The least multiple of the power of two `align` that is not below `value`,
when the search for it stays inside the address space: the low bits under the
mask `align - 1` are cleared after stepping over them. -/
def roundUp? (value align : Nat) : Option Nat :=
  let stepped := value + (align - 1)
  if stepped < addressLimit then some (stepped - (stepped &&& (align - 1))) else none

/-- The size of the whole pages that hold `size` bytes; an empty request still
takes one page. -/
def pagesFor? (size : Nat) : Option Nat :=
  roundUp? (max size 1) pageSize

end ModuleHost
