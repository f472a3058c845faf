import ModuleHost.Proofs.Heap.Soundness

namespace ModuleHost
namespace SlabHeap

/-!
# Giving back

The address of a grant finds its header, and the header says which way the block goes:
a cell becomes the head of the chain of its class, pages go back to their source.  The
header that is left behind is that of a free block, so the place no longer looks used,
and the bytes of the client are still as they were.
-/

open Heap
open LawfulPageSource (nodes)

variable {Pages : Type} [PageSource Pages]
variable {heap after : SlabHeap Pages} {bounds : Range} {loans : List Range}
variable {chunks : List Chunk} {free : List Cell} {grants : List Grant}
variable {grant : Grant} {index : Fin 8} {address : Address}

/-- A block goes back only if its header says that it is in use. -/
theorem used_of_free (freed : heap.free address = .ok after) :
    heap.start + BlockHeader.size ≤ address ∧ address < heap.stop ∧ address % 16 = 0 ∧
      UsedWordAt heap.memory (address - BlockHeader.size) := by
  unfold SlabHeap.free at freed
  split at freed
  · cases freed
  · split at freed
    · cases freed
    · next here =>
        rw [not_or, not_or, Nat.not_lt, Nat.not_le, not_not] at here
        refine ⟨here.1, here.2.1, here.2.2, usedWordAt_iff.mpr ?_⟩
        dsimp only at freed
        split at freed
        · next tagged => exact .inl tagged
        · next tagged => exact .inr tagged
        · cases freed
        · cases freed
        · cases freed

variable [LawfulPageSource Pages]

/-- A block has been taken back. -/
structure Release (heap after : SlabHeap Pages) (bounds : Range) (chunks : List Chunk)
    (free : List Cell) (grants : List Grant) (grant : Grant) (free' : List Cell) : Prop where
  sound : after.Sound bounds [] chunks free' grants
  effect : Effect bounds (grant :: grants) (grant :: grants) grants heap.memory after.memory
  move : heap.Move after [grant.extent] free (grant :: grants) free' grants
  ended : (headerIn after.memory grant.place).IsFree

/-! ## Small blocks -/

/-- The bytes of clients are apart from the header of a block that one of them has. -/
theorem Sound.payload_apart_header (sound : heap.Sound bounds loans chunks free (grant :: grants)) :
    ∀ other ∈ grant :: grants, Range.Apart other.payload (headerRange grant.place) := by
  have seated := sound.seated_head
  have apart := (List.pairwise_cons.mp sound.space.extents_apart).1
  refine List.forall_mem_cons.mpr ⟨Grant.payload_apart_header seated, fun other listed => ?_⟩
  exact (apart other listed).symm.mono
    (Grant.payload_within (sound.space.seated other (List.mem_cons_of_mem _ listed)))
    (Grant.headerRange_within seated)

theorem mem_of_place_ne : ∀ other ∈ grant :: grants, other.place ≠ grant.place → other ∈ grants :=
  List.forall_mem_cons.mpr ⟨fun different => absurd rfl different, fun _ listed _ => listed⟩

/-- A small grant becomes the head of the chain of its class. -/
theorem Sound.freeSmall (sound : heap.Sound bounds [] chunks free (grant :: grants))
    (served : grant.layout.class? = some index) :
    heap.Release (heap.freeSmall index grant.place) bounds chunks free grants grant
      (⟨index, grant.place⟩ :: free) := by
  have seated := sound.seated_head
  have space := sound.space.endSmall served
  have ended : heap.Sound bounds [] chunks free grants :=
    ⟨sound.initialized, sound.start_eq, sound.stop_eq, space.dropFree, sound.marks.drop⟩
  have sound' := sound_pushFree ended space
  refine ⟨sound'.setClass rfl, effect_pushFree ended ⟨index, grant.place⟩
    (Grant.place_aligned seated) sound.payload_apart_header mem_of_place_ne,
    .inBlock (Grant.extent_whole seated) ?_ fun counted => ?_, .inl ?_⟩
  · exact (changesIn_header heap.memory _ _).cover
      (List.forall_mem_singleton.mpr ⟨_, List.mem_cons_self, Grant.headerRange_within seated⟩)
  · let pushed := (heap.pushFree index grant.place).classes.get index
    have total : pushed.total = (heap.classes.get index).total := by
      simp only [pushed, get_pushFree]
    have inUse : pushed.inUse - 1 = (heap.classes.get index).inUse - 1 := by
      simp only [pushed, get_pushFree]
    have ended : (heap.setClass index { pushed with inUse := pushed.inUse - 1 }).Counted
        (⟨index, grant.place⟩ :: free) grants := counted.endSmall served total inUse
    exact ended.congr (Vector.set_set _ index.isLt) rfl
  · have threaded := sound'.marks.chains index
    rw [placesOf_cons_self] at threaded
    rcases threaded with ⟨-, link, header, -⟩
    exact header ▸ BlockHeader.tag?_mk .smallFree index link

/-! ## Large blocks -/

/-- The header of a large grant describes pages of the region. -/
theorem freeLarge_eq (sound : heap.Sound bounds loans chunks free (grant :: grants))
    (served : grant.layout.class? = none) {region : Pages} {memory : Memory}
    (released : PageSource.release heap.region
      (heap.memory.write grant.place grant.layout.endedHeader.encode)
      grant.extent.start grant.extent.size = (region, memory)) :
    heap.freeLarge grant.address grant.layout.header =
      .ok { heap with memory, region, largeCount := heap.largeCount - 1 } := by
  have seated := sound.seated_head
  have within := sound.space.unit_within_bounds (extent_mem_units List.mem_cons_self)
  have below := sound.space.bounded
  have above := seated.above
  have room := seated.room
  have paged := (seated.paged served).2
  have far := (Layout.largeOffset_whole grant.layout).2.2
  rw [← Layout.offset_large served] at far
  simp only [Range.Within, Grant.extent] at within paged
  have base_eq : (grant.address + addressLimit - grant.layout.offset) % addressLimit =
      grant.address - grant.layout.offset := by
    rw [Nat.sub_add_comm above, Nat.add_mod_right, Nat.mod_eq_of_lt]
    lia
  rw [Layout.header_large served]
  unfold SlabHeap.freeLarge
  simp only [base_eq]
  rw [if_neg]
  · simp only [Grant.place, Grant.extent, Layout.endedHeader] at released
    simp only [setHeader, released]
  · rw [sound.start_eq, sound.stop_eq]
    simp only [leastLargeOffset]
    lia

theorem Sound.fits_freed (sound : heap.Sound bounds loans chunks free (grant :: grants))
    (served : grant.layout.class? = none) : grant.layout.endedHeader.Fits := by
  have room := sound.seated_head.room
  have within := sound.space.unit_within_bounds (extent_mem_units List.mem_cons_self)
  have below := sound.space.bounded
  rcases Layout.exists_total served room with ⟨total, sized⟩
  refine BlockHeader.fits_mk .largeFree ?_ ?_
  · rw [Layout.offset_large served]
    exact (Layout.largeTotal?_eq_some sized).1
  · simp only [Range.Within, Grant.extent] at within
    lia

/-- The first bytes of the block of a large grant are nobody's. -/
theorem payload_apart_front (seated : grant.Seated chunks) (served : grant.layout.class? = none) :
    Range.Apart grant.payload (nodeRange grant.extent.start) := by
  have above := seated.above
  have far := (Layout.largeOffset_whole grant.layout).2.2
  rw [← Layout.offset_large served] at far
  simp only [Range.Apart, Grant.payload, nodeRange, Grant.extent, nodeSize]
  lia

theorem header_apart_front (seated : grant.Seated chunks) (served : grant.layout.class? = none) :
    Range.Apart (headerRange grant.place) (nodeRange grant.extent.start) := by
  have above := seated.above
  have far := (Layout.largeOffset_whole grant.layout).2.2
  rw [← Layout.offset_large served] at far
  simp only [Range.Apart, headerRange, Grant.place, nodeRange, Grant.extent, nodeSize,
    BlockHeader.size]
  lia

/-- The pages of a large grant go back to the source. -/
theorem Sound.freeLarge (sound : heap.Sound bounds [] chunks free (grant :: grants))
    (served : grant.layout.class? = none) :
    ∃ after, heap.freeLarge grant.address grant.layout.header = .ok after ∧
      heap.Release after bounds chunks free grants grant free := by
  have seated := sound.seated_head
  have loan := sound.space.endLarge served
  cases released : PageSource.release heap.region
    (heap.memory.write grant.place grant.layout.endedHeader.encode)
    grant.extent.start grant.extent.size with
  | mk region memory =>
      rcases loan.release (seated.paged served).1 released with ⟨space, writes⟩
      have front_within : Range.Within (nodeRange grant.extent.start) grant.extent := by
        have room := seated.room
        have reach := grant.layout.header_size_le_offset
        refine ⟨Nat.le_refl _, Nat.add_le_add_left ?_ _⟩
        exact Nat.le_trans reach (Nat.le_trans (Nat.le_add_right _ _) room)
      have nodes_apart : ∀ place ∈ grant.extent.start :: nodes heap.region,
          ∀ unit ∈ units free grants, Range.Apart (nodeRange place) unit :=
        List.forall_mem_cons.mpr ⟨fun unit listed =>
          (loan.loan_apart List.mem_cons_self listed).mono front_within (.refl _),
          fun place listed unit => loan.node_apart listed⟩
      have header_apart : ∀ unit ∈ units free grants,
          Range.Apart (headerRange grant.place) unit := fun unit listed =>
        (loan.loan_apart List.mem_cons_self listed).mono (Grant.headerRange_within seated) (.refl _)
      have header_apart_nodes : ∀ range ∈ (grant.extent.start :: nodes heap.region).map nodeRange,
          Range.Apart (headerRange grant.place) range := by
        refine List.forall_mem_map.mpr (List.forall_mem_cons.mpr
          ⟨header_apart_front seated served, fun place listed => ?_⟩)
        exact (sound.space.node_apart listed (extent_mem_units List.mem_cons_self)).symm.mono
          (Grant.headerRange_within seated) (.refl _)
      have tagged := changesIn_header heap.memory grant.place grant.layout.endedHeader
      refine ⟨_, freeLarge_eq sound served released,
        ⟨sound.initialized, sound.start_eq, sound.stop_eq, space, ?_⟩, ?_, ⟨?_, ?_, ?_⟩, .inr ?_⟩
      · have marks := loan.frame_header sound.marks.drop grant.layout.endedHeader header_apart
        exact loan.frame_nodes marks writes nodes_apart
      · refine (Effect.header (Grant.place_aligned seated) (sound.fits_freed served)
          sound.payload_apart_header mem_of_place_ne fun used => ?_).trans
          (Effect.nodes writes (List.forall_mem_cons.mpr ⟨?_, fun place listed => ?_⟩)
            (List.forall_mem_cons.mpr ⟨?_, fun place listed => loan.node_aligned listed⟩))
        · rw [Layout.endedHeader, BlockHeader.tag?_mk] at used
          simp at used
        · exact List.forall_mem_cons.mpr ⟨payload_apart_front seated served,
            loan.payload_apart (nodes_apart _ List.mem_cons_self)⟩
        · exact sound.space.payload_apart fun unit => sound.space.node_apart listed
        · have paged := (seated.paged served).1
          simp only [pageSize] at paged
          lia
      · exact List.forall_mem_singleton.mpr (Grant.extent_whole seated)
      · refine (tagged.cover (List.forall_mem_singleton.mpr
          ⟨grant.extent, by simp, Grant.headerRange_within seated⟩)).trans
          (writes.changesIn.cover (List.forall_mem_map.mpr (List.forall_mem_cons.mpr
            ⟨⟨grant.extent, by simp, front_within⟩, fun place listed => ?_⟩)))
        exact ⟨nodeRange place, List.mem_append_left _ (List.mem_map_of_mem
          (List.mem_append_left _ listed)), .refl _⟩
      · exact fun counted => (counted.endLarge served).congr rfl rfl
      · show (headerIn memory grant.place).tag? = _
        rw [headerIn_of_changesIn writes.changesIn header_apart_nodes,
          headerIn_write_self (sound.fits_freed served)]
        exact BlockHeader.tag?_mk .largeFree _ _

/-! ## All blocks -/

/-- A grant lies behind the first header of the region, and not behind its end. -/
theorem Sound.address_bounds (sound : heap.Sound bounds loans chunks free (grant :: grants)) :
    heap.start + BlockHeader.size ≤ grant.address ∧
      grant.address + grant.layout.size ≤ heap.stop := by
  have seated := sound.seated_head
  have within := sound.space.unit_within_bounds (extent_mem_units List.mem_cons_self)
  have above := seated.above
  have room := seated.room
  have reach := grant.layout.header_size_le_offset
  rw [sound.start_eq, sound.stop_eq]
  simp only [Range.Within, Grant.extent] at within
  lia

/-- The address of a grant finds its header, and the block goes back. -/
theorem Sound.free_grant (sound : heap.Sound bounds [] chunks free (grant :: grants))
    (below : grant.address < heap.stop) :
    ∃ after free', heap.free grant.address = .ok after ∧
      heap.Release after bounds chunks free grants grant free' := by
  have seated := sound.seated_head
  have header := sound.marks.headers grant List.mem_cons_self
  have here : ¬(grant.address < heap.start + BlockHeader.size ∨ heap.stop ≤ grant.address ∨
      grant.address % blockAlign ≠ 0) := by
    have aligned := seated.aligned'
    have reach := sound.address_bounds
    simp only [blockAlign]
    lia
  have read : heap.headerAt (grant.address - BlockHeader.size) = grant.layout.header := header
  unfold SlabHeap.free
  simp only [sound.initialized, Bool.not_true, Bool.false_eq_true, if_false, if_neg here, read]
  cases served : grant.layout.class? with
  | some index =>
      refine ⟨heap.freeSmall index grant.place, _, ?_, sound.freeSmall served⟩
      simp only [Layout.header_small served, BlockHeader.tag?_mk, index.isLt, dite_true]
      rfl
  | none =>
      rcases sound.freeLarge served with ⟨after, freed, release⟩
      refine ⟨after, _, ?_, release⟩
      have tagged : grant.layout.header.tag? = some .largeUsed := by
        rw [Layout.header_large served, BlockHeader.tag?_mk]
      simp only [tagged, freed]

/-- An address at the end of the region, or behind it, is refused. -/
theorem Sound.free_beyond (sound : heap.Sound bounds loans chunks free grants)
    (beyond : heap.stop ≤ address) : heap.free address = .error (.foreignPointer address) := by
  simp [SlabHeap.free, sound.initialized, beyond]

/-- Only a block in use looks used, so an address that goes back was that of a grant. -/
theorem Sound.granted_of_free (sound : heap.Sound bounds [] chunks free grants)
    (unforged : Unforged heap.memory bounds grants) (freed : heap.free address = .ok after) :
    ∃ grant ∈ grants, grant.address = address := by
  rcases used_of_free freed with ⟨above, below, aligned, used⟩
  rw [sound.start_eq] at above
  rw [sound.stop_eq] at below
  simp only [BlockHeader.size] at above used
  have within : Range.Within (headerRange (address - 16)) bounds := by
    simp only [Range.Within, headerRange, BlockHeader.size]
    lia
  rcases unforged (address - 16) (by lia) within used with ⟨grant, listed, same⟩
  refine ⟨grant, listed, ?_⟩
  have header := Grant.place_add (sound.space.seated grant listed)
  rw [same] at header
  simp only [BlockHeader.size] at header
  lia

end SlabHeap
end ModuleHost
