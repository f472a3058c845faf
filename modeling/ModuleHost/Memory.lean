import ModuleHost.Page

namespace ModuleHost

/-!
# Byte memory

Memory gives a byte at every address.  Writing and filling replace a run of bytes
and leave every other byte alone; `byteAt_write` and `byteAt_fill` are the only
facts about them that later modules use.  Whether an address may be touched at all
is decided by the owners of the ranges, not here.
-/

/-- The contents of the address space. -/
structure Memory where
  byteAt : Address → UInt8

namespace Memory

/-- Memory that holds one byte everywhere. -/
def filled (byte : UInt8) : Memory where
  byteAt _ := byte

/-- Memory with the cells `bytes` laid over it from `start` on. -/
def overlay (memory : Memory) (start : Address) (bytes : Array UInt8) : Memory where
  byteAt address :=
    if start ≤ address ∧ address - start < bytes.size then
      bytes.getD (address - start) 0
    else memory.byteAt address

/-- Put `bytes` at `start` and the addresses after it. -/
def write (memory : Memory) (start : Address) (bytes : List UInt8) : Memory :=
  memory.overlay start bytes.toArray

/-- Put one byte at `count` addresses from `start` on. -/
def fill (memory : Memory) (start : Address) (count : Nat) (byte : UInt8) : Memory where
  byteAt address :=
    if start ≤ address ∧ address < start + count then byte else memory.byteAt address

/-- The `count` bytes from `start` on. -/
def read (memory : Memory) (start : Address) (count : Nat) : List UInt8 :=
  (List.range count).map fun offset => memory.byteAt (start + offset)

theorem byteAt_write (memory : Memory) (start address : Address) (bytes : List UInt8) :
    (memory.write start bytes).byteAt address =
      if start ≤ address ∧ address - start < bytes.length then
        bytes.getD (address - start) 0
      else memory.byteAt address := by
  simp [write, overlay]

theorem byteAt_fill (memory : Memory) (start address : Address) (count : Nat)
    (byte : UInt8) :
    (memory.fill start count byte).byteAt address =
      if start ≤ address ∧ address < start + count then byte
      else memory.byteAt address :=
  rfl

@[simp] theorem length_read (memory : Memory) (start : Address) (count : Nat) :
    (memory.read start count).length = count := by
  simp [read]

end Memory

end ModuleHost
