import ModuleHost.Heap
import ModuleHost.Proofs.Endian
import ModuleHost.Proofs.Memory

namespace ModuleHost
namespace Heap

/-!
# Headers in memory

A header is the sixteen bytes that memory holds at its place, so it survives every
change apart from them.  The heap takes a block to be in use when the first word of
its header is one of two magic words.  Both are odd, and sizes of holes are even:
the notes of a hole never look like the header of a block in use.
-/

/-- The addresses of the header at a place. -/
def headerRange (place : Address) : Range :=
  ⟨place, BlockHeader.size⟩

/-- The header that memory holds at a place. -/
def headerIn (memory : Memory) (place : Address) : BlockHeader :=
  .decode (memory.read place BlockHeader.size)

/-- The word that memory holds at a place is the magic of a block in use. -/
def UsedWordAt (memory : Memory) (place : Address) : Prop :=
  Endian.value (memory.read place 4) = Tag.smallUsed.magic ∨
    Endian.value (memory.read place 4) = Tag.largeUsed.magic

variable {memory before after : Memory} {place : Address}

/-! ## Reading and writing -/

namespace BlockHeader

/-- The header says that its block has been given back or was never handed out. -/
def IsFree (header : BlockHeader) : Prop :=
  header.tag? = some .smallFree ∨ header.tag? = some .largeFree

/-- A header whose parts have room in their fields. -/
structure Fits (header : BlockHeader) : Prop where
  magic : header.magic < 2 ^ 32
  detail : header.detail < 2 ^ 32
  link : header.link < 2 ^ 64

theorem magic_decode_encode (header : BlockHeader) :
    (decode header.encode).magic = header.magic % 2 ^ 32 := by
  have magic : Endian.slice header.encode 0 4 = Endian.bytes 4 header.magic := by
    simp [Endian.slice, encode]
  rw [decode, magic, Endian.value_bytes]
  rfl

theorem decode_encode {header : BlockHeader} (fits : header.Fits) :
    decode header.encode = header := by
  have magic : Endian.slice header.encode 0 4 = Endian.bytes 4 header.magic := by
    simp [Endian.slice, encode]
  have detail : Endian.slice header.encode 4 4 = Endian.bytes 4 header.detail := by
    simp [Endian.slice, encode]
  have link : Endian.slice header.encode 8 8 = Endian.bytes 8 header.link := by
    rw [Endian.slice, encode, List.drop_left' (by simp), List.take_of_length_le (by simp)]
  rw [decode, magic, detail, link]
  simp only [Endian.value_bytes]
  have magic' : header.magic % 256 ^ 4 = header.magic := Nat.mod_eq_of_lt fits.magic
  have detail' : header.detail % 256 ^ 4 = header.detail := Nat.mod_eq_of_lt fits.detail
  have link' : header.link % 256 ^ 8 = header.link := Nat.mod_eq_of_lt fits.link
  rw [magic', detail', link']

theorem magic_lt (tag : Tag) : tag.magic < 2 ^ 32 := by
  cases tag <;> decide

theorem fits_mk (tag : Tag) {detail link : Nat} (small : detail < 2 ^ 32)
    (reach : link < addressLimit) : Fits ⟨tag.magic, detail, link⟩ :=
  ⟨magic_lt tag, small, reach⟩

theorem tag?_eq_some {header : BlockHeader} {tag : Tag} (marked : header.magic = tag.magic) :
    header.tag? = some tag := by
  rw [tag?, marked]
  cases tag <;> decide

theorem tag?_mk (tag : Tag) (detail link : Nat) : tag? ⟨tag.magic, detail, link⟩ = some tag :=
  tag?_eq_some rfl

theorem magic_of_tag? {header : BlockHeader} {tag : Tag} (tagged : header.tag? = some tag) :
    header.magic = tag.magic := by
  have found := List.find?_some tagged
  exact (of_decide_eq_true found).symm

end BlockHeader

theorem headerIn_magic (memory : Memory) (place : Address) :
    (headerIn memory place).magic = Endian.value (memory.read place 4) := by
  simp only [headerIn, BlockHeader.decode]
  rw [Memory.slice_read memory place (by decide), Nat.add_zero]

theorem headerIn_write (memory : Memory) (place : Address) (header : BlockHeader) :
    headerIn (memory.write place header.encode) place = .decode header.encode := by
  have whole := memory.read_write_self place header.encode
  rw [BlockHeader.length_encode] at whole
  rw [headerIn, whole]

theorem headerIn_write_self {header : BlockHeader} (fits : header.Fits) (memory : Memory)
    (place : Address) : headerIn (memory.write place header.encode) place = header := by
  rw [headerIn_write, BlockHeader.decode_encode fits]

/-- The tag of a header is read back whatever is linked to it. -/
theorem tag?_write (memory : Memory) (place : Address) (tag : Tag) (detail link : Nat) :
    (headerIn (memory.write place (BlockHeader.encode ⟨tag.magic, detail, link⟩)) place).tag? =
      some tag := by
  refine BlockHeader.tag?_eq_some ?_
  rw [headerIn_write, BlockHeader.magic_decode_encode]
  exact Nat.mod_eq_of_lt (BlockHeader.magic_lt tag)

theorem changesIn_header (memory : Memory) (place : Address) (header : BlockHeader) :
    Memory.ChangesIn [headerRange place] memory (memory.write place header.encode) := by
  have changes := memory.changesIn_write place header.encode
  rwa [BlockHeader.length_encode] at changes

/-- A header apart from a change is as before. -/
theorem headerIn_of_changesIn {ranges : List Range} (changes : Memory.ChangesIn ranges before after)
    (apart : ∀ range ∈ ranges, Range.Apart (headerRange place) range) :
    headerIn after place = headerIn before place := by
  rw [headerIn, headerIn, changes.read_eq apart]

/-- Headers at different aligned places have no address in common. -/
theorem headerRange_apart {left right : Address} (aligned : left % 16 = 0)
    (aligned' : right % 16 = 0) (different : left ≠ right) :
    Range.Apart (headerRange left) (headerRange right) := by
  simp only [Range.Apart, headerRange, BlockHeader.size]
  lia

/-! ## Blocks that look used -/

theorem usedWordAt_iff :
    UsedWordAt memory place ↔
      (headerIn memory place).tag? = some .smallUsed ∨
        (headerIn memory place).tag? = some .largeUsed := by
  simp only [UsedWordAt, ← headerIn_magic]
  constructor
  · exact Or.imp BlockHeader.tag?_eq_some BlockHeader.tag?_eq_some
  · exact Or.imp BlockHeader.magic_of_tag? BlockHeader.magic_of_tag?

/-- Sixteen bytes written at an aligned place make no other aligned place look used. -/
theorem UsedWordAt.of_write {written : Address} {bytes : List UInt8}
    (long : bytes.length = BlockHeader.size) (aligned : place % 16 = 0)
    (aligned' : written % 16 = 0) (used : UsedWordAt (memory.write written bytes) place)
    (different : place ≠ written) : UsedWordAt memory place := by
  have changes := memory.changesIn_write written bytes
  rw [long] at changes
  rw [usedWordAt_iff, headerIn_of_changesIn changes] at used
  · exact usedWordAt_iff.mpr used
  · rintro range listed
    rw [List.mem_singleton.mp listed]
    exact headerRange_apart aligned aligned' different

theorem usedWordAt_write_self {header : BlockHeader} (fits : header.Fits) :
    UsedWordAt (memory.write place header.encode) place ↔
      header.tag? = some .smallUsed ∨ header.tag? = some .largeUsed := by
  rw [usedWordAt_iff, headerIn_write_self fits]

/-- The first word of a double word that is a multiple of eight is no magic in use. -/
theorem not_usedWordAt_write_whole (memory : Memory) (place : Address) {number : Nat}
    (whole : number % 8 = 0) (rest : List UInt8) :
    ¬UsedWordAt (memory.write place (Endian.bytes 8 number ++ rest)) place := by
  have word : (memory.write place (Endian.bytes 8 number ++ rest)).read place 4 =
      Endian.bytes 4 number := by
    have front := memory.read_write place (Endian.bytes 8 number ++ rest)
      (show 0 + 4 ≤ _ by rw [List.length_append, Endian.length_bytes]; omega)
    rw [Nat.add_zero, Endian.slice, Endian.bytes_add 4 4, List.drop_zero, List.append_assoc,
      List.take_left' (Endian.length_bytes _ _)] at front
    rw [← front, Endian.bytes_add 4 4, List.append_assoc]
  rw [UsedWordAt, word, Endian.value_bytes]
  simp only [Tag.magic]
  omega

end Heap
end ModuleHost
