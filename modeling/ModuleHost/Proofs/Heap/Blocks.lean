import ModuleHost.Proofs.Heap.PageSource
import ModuleHost.Proofs.Page

namespace ModuleHost
namespace Heap

/-!
# Blocks

A layout alone decides which path serves it, how far the client's bytes lie from the
start of the block, how long the block is, and which header it has while it is in use.
A `Grant` is such a block in the hands of a client; a `Cell` is a block of a size class
wherever it may be.  A cell that serves a layout is the whole block of its grant.
-/

namespace Layout

/-- The size class that serves a layout, if one does. -/
def class? (layout : Layout) : Option (Fin 8) :=
  if layout.align ≤ blockAlign then classFor? layout.size else none

/-- The distance from the start of a block to the client's bytes. -/
def offset (layout : Layout) : Nat :=
  match layout.class? with
  | some _ => BlockHeader.size
  | none => largeOffset layout

/-- The length of a block. -/
def span (layout : Layout) : Nat :=
  match layout.class? with
  | some index => stride index
  | none => (largeTotal? layout).getD 0

/-- The header of a block in use. -/
def header (layout : Layout) : BlockHeader :=
  match layout.class? with
  | some index => ⟨Tag.smallUsed.magic, index, 0⟩
  | none => ⟨Tag.largeUsed.magic, layout.offset, layout.span⟩

/-- The header that is left behind by a large block. -/
def endedHeader (layout : Layout) : BlockHeader :=
  ⟨Tag.largeFree.magic, layout.offset, layout.span⟩

end Layout

/-- A block of a size class, by the place of its header. -/
structure Cell where
  index : Fin 8
  place : Address
  deriving DecidableEq

/-- Pages cut into blocks of a size class. -/
structure Chunk where
  index : Fin 8
  range : Range
  deriving DecidableEq

/-- Memory in the hands of a client: its address, and the layout that was asked for. -/
structure Grant where
  address : Address
  layout : Layout
  deriving DecidableEq

def Cell.range (cell : Cell) : Range :=
  ⟨cell.place, stride cell.index⟩

/-- The cell is cut from one of the chunks. -/
def Cell.Housed (cell : Cell) (chunks : List Chunk) : Prop :=
  cell.place % 16 = 0 ∧ ∃ chunk ∈ chunks, chunk.index = cell.index ∧
    Range.Within cell.range chunk.range

namespace Grant

/-- The bytes that are the client's. -/
def payload (grant : Grant) : Range :=
  ⟨grant.address, grant.layout.size⟩

/-- Where the header is. -/
def place (grant : Grant) : Address :=
  grant.address - BlockHeader.size

/-- The whole block. -/
def extent (grant : Grant) : Range :=
  ⟨grant.address - grant.layout.offset, grant.layout.span⟩

/-- The grant is a block of pages. -/
def isLarge (grant : Grant) : Bool :=
  grant.layout.class?.isNone

/-- A grant where the client's bytes, and the header in front of them, lie in the block.
The block is a cell or starts on a page. -/
structure Seated (grant : Grant) (chunks : List Chunk) : Prop where
  aligned : grant.address % grant.layout.align = 0
  aligned' : grant.address % 16 = 0
  above : grant.layout.offset ≤ grant.address
  room : grant.layout.offset + grant.layout.size ≤ grant.layout.span
  housed : ∀ index, grant.layout.class? = some index → Cell.Housed ⟨index, grant.place⟩ chunks
  paged : grant.layout.class? = none →
    grant.extent.start % pageSize = 0 ∧ grant.extent.size % pageSize = 0

end Grant

/-! ## Layouts -/

theorem stride_whole (index : Fin 8) : stride index % 16 = 0 ∧ 32 ≤ stride index := by
  revert index
  decide

/-- A block of the class for a size has room for it behind the header. -/
theorem le_stride_of_classFor? {size : Nat} {index : Fin 8}
    (found : classFor? size = some index) : BlockHeader.size + size ≤ stride index := by
  unfold classFor? at found
  have fits := List.find?_some found
  exact Nat.add_le_add_left (of_decide_eq_true fits) _

theorem max_two_pow (left right : Nat) : max (2 ^ left) (2 ^ right) = 2 ^ max left right := by
  rcases Nat.le_total left right with less | less
  · rw [Nat.max_eq_right less, Nat.max_eq_right (Nat.pow_le_pow_right (by decide) less)]
  · rw [Nat.max_eq_left less, Nat.max_eq_left (Nat.pow_le_pow_right (by decide) less)]

namespace Layout

variable {layout : Layout} {index : Fin 8}

theorem align_eq (layout : Layout) : layout.align = 2 ^ layout.exponent :=
  Nat.one_shiftLeft _

theorem class?_eq_some (served : layout.class? = some index) :
    layout.align ≤ blockAlign ∧ BlockHeader.size + layout.size ≤ stride index := by
  unfold class? at served
  split at served
  · next aligned => exact ⟨aligned, le_stride_of_classFor? served⟩
  · cases served

theorem offset_small (served : layout.class? = some index) : layout.offset = BlockHeader.size := by
  rw [offset, served]

theorem span_small (served : layout.class? = some index) : layout.span = stride index := by
  rw [span, served]

theorem header_small (served : layout.class? = some index) :
    layout.header = ⟨Tag.smallUsed.magic, index, 0⟩ := by
  rw [header, served]

theorem offset_large (served : layout.class? = none) : layout.offset = largeOffset layout := by
  rw [offset, served]

theorem span_large {total : Nat} (served : layout.class? = none)
    (sized : largeTotal? layout = some total) : layout.span = total := by
  rw [span, served, sized, Option.getD_some]

theorem header_large (served : layout.class? = none) :
    layout.header = ⟨Tag.largeUsed.magic, layout.offset, layout.span⟩ := by
  rw [header, served]

/-- Alignments up to that of a block are met by every block. -/
theorem align_dvd (small : layout.align ≤ blockAlign) : layout.align ∣ blockAlign := by
  rw [align_eq] at small ⊢
  have bounded : 2 ^ layout.exponent ≤ 2 ^ 4 := small
  exact Nat.pow_dvd_pow 2 ((Nat.pow_le_pow_iff_right Nat.one_lt_two).mp bounded)

/-- Pages at a multiple of the alignment. -/
theorem max_align_pageSize (layout : Layout) :
    max layout.align pageSize = 2 ^ max layout.exponent 12 := by
  rw [align_eq]
  exact max_two_pow _ 12

theorem largeOffset_eq (layout : Layout) : largeOffset layout = 2 ^ max layout.exponent 5 := by
  rw [largeOffset, align_eq, Nat.max_assoc]
  exact max_two_pow _ 5

/-- The offset of a large block is a multiple of the alignment, and at least two headers. -/
theorem largeOffset_whole (layout : Layout) :
    layout.align ∣ largeOffset layout ∧ largeOffset layout % 16 = 0 ∧ 32 ≤ largeOffset layout := by
  have wide := Nat.le_max_right layout.exponent 5
  rw [largeOffset_eq, align_eq]
  refine ⟨Nat.pow_dvd_pow 2 (Nat.le_max_left _ _), Nat.mod_eq_zero_of_dvd ?_, ?_⟩
  · exact Nat.pow_dvd_pow 2 (Nat.le_trans (show 4 ≤ 5 by decide) wide)
  · exact Nat.pow_le_pow_right Nat.two_pos wide

theorem largeTotal?_eq_some {total : Nat} (sized : largeTotal? layout = some total) :
    largeOffset layout < 2 ^ 32 ∧ total % pageSize = 0 ∧
      largeOffset layout + layout.size ≤ total := by
  unfold largeTotal? at sized
  split at sized
  · next bounded =>
      have rounded := roundUp?_eq_some (show roundUp? _ (2 ^ 12) = _ from sized)
      exact ⟨bounded, rounded.1, rounded.2⟩
  · cases sized

theorem header_size_le_offset (layout : Layout) : BlockHeader.size ≤ layout.offset := by
  cases served : layout.class? with
  | some index => exact Nat.le_of_eq (offset_small served).symm
  | none =>
      rw [offset_large served]
      exact Nat.le_trans (by decide) (largeOffset_whole layout).2.2

/-- A block with room for the layout's offset has been sized. -/
theorem exists_total (served : layout.class? = none)
    (room : layout.offset + layout.size ≤ layout.span) :
    ∃ total, largeTotal? layout = some total := by
  cases sized : largeTotal? layout with
  | some total => exact ⟨total, rfl⟩
  | none =>
      have reach := header_size_le_offset layout
      rw [span, served, sized] at room
      simp only [Option.getD_none, BlockHeader.size] at room reach
      omega

end Layout

/-! ## Grants -/

namespace Grant

variable {grant : Grant} {chunks : List Chunk} {index : Fin 8}

theorem header_size_le (seated : grant.Seated chunks) : BlockHeader.size ≤ grant.address :=
  Nat.le_trans grant.layout.header_size_le_offset seated.above

theorem place_add (seated : grant.Seated chunks) :
    grant.place + BlockHeader.size = grant.address :=
  Nat.sub_add_cancel (header_size_le seated)

theorem place_aligned (seated : grant.Seated chunks) : grant.place % 16 = 0 := by
  have header := place_add seated
  have aligned := seated.aligned'
  simp only [BlockHeader.size] at header
  lia

/-- The header lies in the block. -/
theorem headerRange_within (seated : grant.Seated chunks) :
    Range.Within (headerRange grant.place) grant.extent := by
  have header := place_add seated
  have reach := grant.layout.header_size_le_offset
  have above := seated.above
  have room := seated.room
  simp only [Range.Within, headerRange, extent]
  lia

/-- The client's bytes lie in the block. -/
theorem payload_within (seated : grant.Seated chunks) :
    Range.Within grant.payload grant.extent := by
  have above := seated.above
  have room := seated.room
  simp only [Range.Within, payload, extent]
  lia

/-- The header is in front of the client's bytes. -/
theorem payload_apart_header (seated : grant.Seated chunks) :
    Range.Apart grant.payload (headerRange grant.place) :=
  .inr (Nat.le_of_eq (place_add seated))

/-- The block of a small grant is a cell. -/
theorem extent_small (served : grant.layout.class? = some index) :
    grant.extent = Cell.range ⟨index, grant.place⟩ := by
  rw [extent, Layout.offset_small served, Layout.span_small served]
  rfl

/-- Blocks consist of whole units of sixteen bytes. -/
theorem extent_whole (seated : grant.Seated chunks) :
    grant.extent.start % 16 = 0 ∧ grant.extent.size % 16 = 0 := by
  cases served : grant.layout.class? with
  | some index =>
      rw [extent_small served]
      exact ⟨place_aligned seated, (stride_whole index).1⟩
  | none =>
      have paged := seated.paged served
      simp only [pageSize] at paged
      lia

end Grant

theorem Cell.headerRange_within (cell : Cell) :
    Range.Within (headerRange cell.place) cell.range := by
  have long := (stride_whole cell.index).2
  simp only [Range.Within, headerRange, range, BlockHeader.size]
  lia

end Heap
end ModuleHost
