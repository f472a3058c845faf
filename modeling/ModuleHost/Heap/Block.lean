import ModuleHost.Endian

namespace ModuleHost
namespace Heap

/-!
# Block headers

Every block handed to a client is preceded by a header of sixteen bytes: a magic
word that says what the block is, a 32-bit detail and a 64-bit link.  For small
blocks the detail is the size class and the link of a free block leads to the next
free one.  For large blocks the detail is the distance from the start of the
backing memory to the client's bytes, and the link is the size of that memory.

Freed blocks keep a header with another magic, by which a second free is noticed.
-/

/-- What a block is. -/
inductive Tag
  | smallUsed
  | smallFree
  | largeUsed
  | largeFree
  deriving DecidableEq, Repr

def Tag.magic : Tag → Nat
  | .smallUsed => 0x51AB0A11
  | .smallFree => 0x51ABF4EE
  | .largeUsed => 0x1A260A11
  | .largeFree => 0x1A26F4EE

def Tag.ofMagic? (magic : Nat) : Option Tag :=
  [Tag.smallUsed, .smallFree, .largeUsed, .largeFree].find? fun tag => tag.magic = magic

structure BlockHeader where
  magic : Nat
  detail : Nat
  link : Nat
  deriving DecidableEq, Repr

namespace BlockHeader

/-- The size of a header in bytes. -/
def size : Nat := 16

def tag? (header : BlockHeader) : Option Tag :=
  Tag.ofMagic? header.magic

def encode (header : BlockHeader) : List UInt8 :=
  Endian.bytes 4 header.magic ++ Endian.bytes 4 header.detail ++ Endian.bytes 8 header.link

def decode (bytes : List UInt8) : BlockHeader where
  magic := Endian.value (Endian.slice bytes 0 4)
  detail := Endian.value (Endian.slice bytes 4 4)
  link := Endian.value (Endian.slice bytes 8 8)

@[simp] theorem length_encode (header : BlockHeader) : header.encode.length = size := by
  simp [encode, size]

end BlockHeader

end Heap
end ModuleHost
