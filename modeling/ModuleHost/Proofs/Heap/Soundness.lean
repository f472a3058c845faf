import ModuleHost.Proofs.Heap.Counts

namespace ModuleHost
namespace SlabHeap

/-!
# The heap keeps its blocks

A heap is sound when its region is divided as `Space` says and its memory has the
`Marks` of that division.  Each step of the heap moves one block: a block of pages
becomes a loan, a chunk or a grant, a cell is pushed on its chain or taken from it.  So
soundness is kept by each step, and with it go the effect of the step on the bytes of
clients and on the places that look used, the counts, and where the step writes.
-/

open Heap
open LawfulPageSource (nodes)

variable {Pages : Type} [PageSource Pages]

variable [LawfulPageSource Pages]

/-- The region is divided among the blocks, and memory has their headers. -/
structure Sound (heap : SlabHeap Pages) (bounds : Range) (loans : List Range)
    (chunks : List Chunk) (free : List Cell) (grants : List Grant) : Prop where
  initialized : heap.initialized = true
  start_eq : heap.start = bounds.start
  stop_eq : heap.stop = bounds.start + bounds.size
  space : Space heap.region bounds loans chunks free grants
  marks : Marks heap.memory heap.head free grants

variable {heap after : SlabHeap Pages} {bounds block : Range} {loans : List Range}
variable {chunks : List Chunk} {free : List Cell} {grants : List Grant}
variable {cell : Cell} {grant : Grant} {index : Fin 8} {layout : Layout}

namespace Sound

/-- Nothing but the counts differs. -/
theorem setClass (sound : heap.Sound bounds loans chunks free grants) {sizeClass : SizeClass}
    (same : sizeClass.chain = heap.head index) :
    (heap.setClass index sizeClass).Sound bounds loans chunks free grants where
  initialized := sound.initialized
  start_eq := sound.start_eq
  stop_eq := sound.stop_eq
  space := sound.space
  marks := by
    rw [head_setClass_of_chain heap same]
    exact sound.marks

theorem setLargeCount (sound : heap.Sound bounds loans chunks free grants) (count : Nat) :
    Sound { heap with largeCount := count } bounds loans chunks free grants :=
  ⟨sound.initialized, sound.start_eq, sound.stop_eq, sound.space, sound.marks⟩

theorem perm {grants' : List Grant} (sound : heap.Sound bounds loans chunks free grants)
    (same : grants.Perm grants') : heap.Sound bounds loans chunks free grants' where
  initialized := sound.initialized
  start_eq := sound.start_eq
  stop_eq := sound.stop_eq
  space := sound.space.perm (.refl _) same
  marks := sound.marks.perm same

/-- The block of a grant is where its layout needs it. -/
theorem seated_head (sound : heap.Sound bounds loans chunks free (grant :: grants)) :
    grant.Seated chunks :=
  sound.space.seated grant List.mem_cons_self

end Sound

/-! ## Pages -/

/-- A block of pages is a loan first. -/
theorem Sound.takePages (sound : heap.Sound bounds [] chunks free grants) {size bits : Nat}
    {base : Address} (positive : 0 < size) (whole : size % pageSize = 0) (wide : 12 ≤ bits)
    (taken : heap.takePages size (2 ^ bits) = .ok (base, after)) :
    base % 2 ^ bits = 0 ∧ after.Sound bounds [⟨base, size⟩] chunks free grants ∧
      Effect bounds grants grants grants heap.memory after.memory ∧
      heap.Move after [] free grants free grants := by
  unfold SlabHeap.takePages at taken
  cases given : PageSource.allocate? heap.region heap.memory size (2 ^ bits) with
  | none =>
      rw [given] at taken
      cases taken
  | some result =>
      rw [given] at taken
      rcases result with ⟨start, region, memory⟩
      cases taken
      rcases sound.space.lend positive whole wide given with ⟨aligned, space, writes⟩
      have apart : ∀ place ∈ nodes heap.region ++ nodes region, ∀ unit ∈ units free grants,
          Range.Apart (nodeRange place) unit := by
        intro place listed unit listed'
        rcases List.mem_append.mp listed with old | new
        · exact sound.space.node_apart old listed'
        · exact space.node_apart new listed'
      refine ⟨aligned, ⟨sound.initialized, sound.start_eq, sound.stop_eq, space, ?_⟩,
        Effect.nodes writes (fun place listed => space.payload_apart (apart place listed)) ?_,
        .pages writes.changesIn rfl rfl⟩
      · exact space.frame_nodes sound.marks writes apart
      · intro place listed
        rcases List.mem_append.mp listed with old | new
        · exact sound.space.node_aligned old
        · exact space.node_aligned new

/-! ## Free cells -/

/-- A chain starts below the limit of addresses. -/
theorem Sound.head_lt (sound : heap.Sound bounds loans chunks free grants) (index : Fin 8) :
    heap.head index < addressLimit := by
  rcases (sound.marks.chains index).first_eq with none | listed
  · rw [none]
    decide
  · rcases List.mem_map.mp listed with ⟨cell, filtered, same⟩
    have within := sound.space.unit_within_bounds (cell_mem_units (List.mem_of_mem_filter filtered))
    have below := sound.space.bounded
    have long := (stride_whole cell.index).2
    rw [← same]
    simp only [Range.Within, Cell.range] at within
    lia

theorem Sound.fits_link (sound : heap.Sound bounds loans chunks free grants) (index : Fin 8) :
    BlockHeader.Fits ⟨Tag.smallFree.magic, index, heap.head index⟩ :=
  BlockHeader.fits_mk .smallFree (Nat.lt_trans index.isLt (by decide)) (sound.head_lt index)

/-- A cell that is nobody's becomes the head of its chain. -/
theorem sound_pushFree (sound : heap.Sound bounds loans chunks free grants)
    (space : Space heap.region bounds loans chunks (cell :: free) grants) :
    (heap.pushFree cell.index cell.place).Sound bounds loans chunks (cell :: free) grants := by
  have apart := (List.pairwise_cons.mp space.apart).1
  have written := sound.space.frame_header sound.marks
    ⟨Tag.smallFree.magic, cell.index, heap.head cell.index⟩
    fun unit listed => (apart unit listed).mono cell.headerRange_within (.refl _)
  exact ⟨sound.initialized, sound.start_eq, sound.stop_eq, space,
    written.push (headerIn_write_self (sound.fits_link _) _ _) (head_setClass_self _ _ _)
      fun other different => head_setClass_of_ne _ _ different⟩

/-- A header of a free block is written apart from the bytes of clients. -/
theorem effect_pushFree (sound : heap.Sound bounds loans chunks free grants) (cell : Cell)
    {live held held' : List Grant} (aligned : cell.place % 16 = 0)
    (apart : ∀ grant ∈ live, Range.Apart grant.payload (headerRange cell.place))
    (others : ∀ grant ∈ held, grant.place ≠ cell.place → grant ∈ held') :
    Effect bounds live held held' heap.memory (heap.pushFree cell.index cell.place).memory := by
  refine Effect.header aligned (sound.fits_link cell.index) apart others fun used => ?_
  rw [BlockHeader.tag?_mk] at used
  simp at used

/-- Cells that nobody has, and that have no address in common, are pushed one by one. -/
theorem Sound.pushAll (sound : heap.Sound bounds loans chunks free grants) {places : List Address}
    (housed : ∀ place ∈ places, Cell.Housed ⟨index, place⟩ chunks)
    (separate : (places.map (Cell.mk index)).Pairwise fun cell other =>
      Range.Apart cell.range other.range)
    (apart : ∀ place ∈ places, ∀ unit ∈ units free grants,
      Range.Apart (Cell.range ⟨index, place⟩) unit) :
    (places.foldr (fun place heap => heap.pushFree index place) heap).Sound bounds loans chunks
        (places.map (Cell.mk index) ++ free) grants ∧
      Effect bounds grants grants grants heap.memory
        (places.foldr (fun place heap => heap.pushFree index place) heap).memory := by
  induction places with
  | nil => exact ⟨sound, .refl _ _ _ _⟩
  | cons place places ih =>
      rcases List.forall_mem_cons.mp housed with ⟨here, later⟩
      rcases List.pairwise_cons.mp separate with ⟨separateHere, separateLater⟩
      rcases List.forall_mem_cons.mp apart with ⟨apartHere, apartLater⟩
      rcases ih later separateLater apartLater with ⟨sound', effect⟩
      have apartAll : ∀ unit ∈ units (places.map (Cell.mk index) ++ free) grants,
          Range.Apart (Cell.range ⟨index, place⟩) unit := by
        intro unit listed
        rw [units, List.map_append, List.append_assoc] at listed
        rcases List.mem_append.mp listed with fresh | old
        · rcases List.mem_map.mp fresh with ⟨other, listed', rfl⟩
          exact separateHere other listed'
        · exact apartHere unit old
      have space := sound'.space.push here apartAll
      refine ⟨sound_pushFree sound' space, effect.trans
        (effect_pushFree sound' ⟨index, place⟩ here.1 ?_ ?_)⟩
      · intro grant listed
        refine (sound'.space.payload_apart (fun unit listed' => ?_) grant listed)
        exact (apartAll unit listed').mono (Cell.headerRange_within ⟨index, place⟩) (.refl _)
      · exact fun grant listed _ => listed

/-! ## A new region, and the bytes of clients -/

/-- A heap that has just been given its region has no blocks. -/
theorem sound_setRegion {memory : Memory} {start size : Nat}
    (opened : SlabHeap.setRegion ({ memory } : SlabHeap Pages) start size = .ok heap) :
    heap.Sound ⟨start, size⟩ [] [] [] [] ∧ NodeWrites [start] memory heap.memory ∧
      start % 16 = 0 := by
  unfold SlabHeap.setRegion at opened
  simp only [Bool.false_eq_true, if_false] at opened
  split at opened
  · cases opened
  · next admitted =>
      rw [not_or, not_or, Nat.not_lt, not_not, Nat.not_le] at admitted
      rcases admitted with ⟨large, aligned, bounded⟩
      cases managed : (PageSource.manage memory start size : Pages × Memory) with
      | mk region after =>
          rw [managed] at opened
          cases opened
          rcases LawfulPageSource.manage aligned large bounded managed with
            ⟨accounts, starts, writes⟩
          refine ⟨⟨rfl, rfl, rfl, ⟨aligned, bounded, accounts, fun place listed => ?_, ?_, ?_, ?_⟩,
            ⟨fun index => ?_, ?_⟩⟩, writes, aligned⟩
          · exact .inl (List.mem_singleton.mp (starts listed))
          · exact fun _ listed => absurd listed List.not_mem_nil
          · exact fun _ listed => absurd listed List.not_mem_nil
          · exact List.Pairwise.nil
          · show (Vector.replicate 8 ({} : SizeClass))[index].chain = 0
            simp
          · exact fun _ listed => absurd listed List.not_mem_nil

/-- A client may write what it likes into its own bytes. -/
theorem Sound.writePayload (sound : heap.Sound bounds loans chunks free (grant :: grants))
    {start : Address} {bytes : List UInt8}
    (within : Range.Within ⟨start, bytes.length⟩ grant.payload) :
    Sound { heap with memory := heap.memory.write start bytes } bounds loans chunks free
      (grant :: grants) := by
  have seated := sound.seated_head
  have apart := (List.pairwise_cons.mp
    ((units_cons_grant grant free grants).pairwise sound.space.apart Range.Apart.symm)).1
  have inside := within.trans (Grant.payload_within seated)
  have changes := heap.memory.changesIn_write start bytes
  have kept : ∀ place, Range.Apart (headerRange place) ⟨start, bytes.length⟩ →
      headerIn (heap.memory.write start bytes) place = headerIn heap.memory place :=
    fun place apart => headerIn_of_changesIn changes (List.forall_mem_singleton.mpr apart)
  refine ⟨sound.initialized, sound.start_eq, sound.stop_eq, sound.space, sound.marks.frame
    (fun cell listed => kept _ ?_) (List.forall_mem_cons.mpr ⟨kept _ ?_, fun other listed =>
      kept _ ?_⟩)⟩
  · exact (apart _ (cell_mem_units listed)).symm.mono cell.headerRange_within inside
  · exact (Grant.payload_apart_header seated).symm.mono (.refl _) within
  · exact (apart _ (extent_mem_units listed)).symm.mono (Grant.headerRange_within
      (sound.space.seated other (List.mem_cons_of_mem _ listed))) inside

end SlabHeap
end ModuleHost
