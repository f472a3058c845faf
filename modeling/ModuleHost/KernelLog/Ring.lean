import ModuleHost.Endian
import ModuleHost.Notice
import ModuleHost.Text.Utf8

namespace ModuleHost
namespace KernelLog

/-!
# The log ring

Entries are kept as bytes in a ring of fixed capacity: a four-byte length of the
whole entry, one byte of severity, an eight-byte timestamp, then the message.
Positions are absolute, counted from the first byte ever written, and fall on the
ring modulo its capacity; entries may straddle the end of the storage.  The cell that
is written next needs no position of its own: it is the count of bytes written, taken
modulo the capacity.

Appending first drops the oldest entries whose cells the new one needs, so what
remains is a run of whole entries from `oldest` to `written`.  A length shorter
than an entry's own header cannot be followed; reading stops there and dropping
gives up everything.  Entries written by `append` never have such a length.
-/

/-- A record as it is kept. -/
structure Entry where
  severity : Severity
  /-- Microseconds since start. -/
  timestamp : UInt64
  message : String
  deriving DecidableEq, Repr

/-- Bytes of an entry besides its message. -/
def headerSize : Nat := 13

/-- Messages are kept up to this many bytes. -/
def messageLimit : Nat := 512

/-- Bytes of storage in the kernel's ring. -/
def ringCapacity : Nat := 65536

/-- The bytes of an entry; the message is given by its bytes. -/
def encodeEntry (severity : Severity) (timestamp : UInt64) (message : List UInt8) : List UInt8 :=
  let kept := message.take messageLimit
  Endian.bytes 4 (headerSize + kept.length) ++ UInt8.ofNat severity.rank ::
    Endian.bytes 8 timestamp.toNat ++ kept

/-- Byte storage whose positions wrap at `capacity`. -/
structure Ring (capacity : Nat) where
  cells : Vector UInt8 capacity
  /-- How many bytes have been written in all. -/
  written : Nat
  /-- The position of the oldest entry that is still whole. -/
  oldest : Nat

namespace Ring

variable {capacity : Nat}

def empty : Ring capacity where
  cells := Vector.replicate capacity 0
  written := 0
  oldest := 0

/-- The byte at an absolute position. -/
def byteAt (ring : Ring capacity) (position : Nat) : UInt8 :=
  ring.cells.toArray.getD (position % capacity) 0

/-- The bytes of `count` positions from `position` on. -/
def bytesAt (ring : Ring capacity) (position count : Nat) : List UInt8 :=
  (List.range count).map fun offset => ring.byteAt (position + offset)

/-- The length that the entry at a position gives for itself. -/
def lengthAt (ring : Ring capacity) (position : Nat) : Nat :=
  Endian.value (ring.bytesAt position 4)

/-- Write one byte at the next position. -/
def push (ring : Ring capacity) (byte : UInt8) : Ring capacity :=
  { ring with
    cells := ring.cells.setIfInBounds (ring.written % capacity) byte
    written := ring.written + 1 }

/-- Write bytes at the next positions. -/
def extend (ring : Ring capacity) (bytes : List UInt8) : Ring capacity :=
  bytes.foldl push ring

/-- The first entry, from `oldest` on, that lies within one capacity of `stop`. -/
def firstKept (ring : Ring capacity) (stop oldest : Nat) : Nat :=
  if capacity < stop - oldest then
    let length := ring.lengthAt oldest
    if length < headerSize then ring.written else ring.firstKept stop (oldest + length)
  else oldest
termination_by stop - oldest
decreasing_by
  simp only [headerSize] at *
  omega

/-- Drop what is in the way and write one entry. -/
def append (ring : Ring capacity) (severity : Severity) (timestamp : UInt64)
    (message : String) : Ring capacity :=
  let bytes := encodeEntry severity timestamp (Text.encode message)
  let oldest := ring.firstKept (ring.written + bytes.length) ring.oldest
  extend { ring with oldest } bytes

/-- The entry of a given length at a position. -/
def entryAt (ring : Ring capacity) (position length : Nat) : Entry where
  severity := .ofRank (ring.byteAt (position + 4)).toNat
  timestamp := UInt64.ofNat (Endian.value (ring.bytesAt (position + 5) 8))
  message :=
    Text.decodeLeading
      (ring.bytesAt (position + headerSize) (min (length - headerSize) messageLimit))

/-- The whole entries from a position on. -/
def entriesFrom (ring : Ring capacity) (position : Nat) : List Entry :=
  if position + headerSize ≤ ring.written then
    let length := ring.lengthAt position
    if length < headerSize ∨ ring.written < position + length then []
    else ring.entryAt position length :: ring.entriesFrom (position + length)
  else []
termination_by ring.written - position
decreasing_by
  simp only [headerSize] at *
  omega

/-- The entries that are kept, oldest first. -/
def entries (ring : Ring capacity) : List Entry :=
  ring.entriesFrom ring.oldest

end Ring

end KernelLog
end ModuleHost
