import ModuleHost.Proofs.Heap.Accounts

namespace ModuleHost
namespace Heap

/-!
# Headers of blocks that went back

A block that is given back twice is recognized by the header that it has left behind.  Nobody
writes there before the memory is handed out again.  A cell lies in its chunk, and there are no
holes in chunks.  The header of a block of pages does lie in memory that the source has back, and
the source cuts and joins holes as it likes; but the nodes of its holes are at the start of the
region and at starts of pages, and no such header is there.
-/

open LawfulPageSource (nodes)
open Program (exec)
open SlabHeap (InPlace)

namespace Tenancy

section Runs

variable {Pages : Type} [PageSource Pages]

/-- The pages and the block that are handed out for a request. -/
def handout (tenancy : Tenancy Pages) : Request → List Range
  | .allocate layout =>
    match tenancy.heap.allocate layout with
    | .ok (address, _) => tenancy.heap.handout ⟨address, layout⟩
    | .error _ => []
  | .free _ | .write _ _ => []

/-- What requests can bring about that are allowed and of which none hands out the addresses. -/
inductive Sparing (allowed : Tenancy Pages → Request → Prop) (range : Range)
    (first : Tenancy Pages) : Tenancy Pages → Prop
  | none : Sparing allowed range first first
  | step {tenancy : Tenancy Pages} {request : Request}
      (earlier : Sparing allowed range first tenancy) (allows : allowed tenancy request)
      (spared : ∀ block ∈ tenancy.handout request, ¬Range.Within range block) :
      Sparing allowed range first (tenancy.perform request)

/-- No hole starts at the place: it is in a chunk, or it is neither the start of the region nor
that of a page. -/
def Away (bounds : Range) (chunks : List Chunk) (place : Address) : Prop :=
  (∃ chunk ∈ chunks, Range.Within (headerRange place) chunk.range) ∨
    place ≠ bounds.start ∧ place % pageSize ≠ 0

/-- At the place is the header of a free block, where neither a block in use nor a node is. -/
structure Ended (tenancy : Tenancy Pages) (bounds : Range) (chunks : List Chunk)
    (place : Address) : Prop where
  aligned : place % 16 = 0
  away : Away bounds chunks place
  apart : ∀ grant ∈ tenancy.grants, Range.Apart (headerRange place) grant.extent
  tagged : (headerIn tenancy.heap.memory place).IsFree

end Runs

variable {Pages : Type} [PageSource Pages] [LawfulPageSource Pages]
variable {pages : Pages} {heap heap' : SlabHeap Pages} {tenancy after final : Tenancy Pages}
variable {bounds block : Range} {loans : List Range} {chunks : List Chunk}
variable {free free' : List Cell} {grants others : List Grant} {grant : Grant}
variable {request : Request} {place address : Address}
variable {memory : Memory} {start size : Nat}

/-! ## Places away from holes -/

theorem Away.append (away : Away bounds chunks place) (fresh : List Chunk) :
    Away bounds (fresh ++ chunks) place := by
  rcases away with ⟨chunk, listed, within⟩ | off
  · exact .inl ⟨chunk, List.mem_append_right _ listed, within⟩
  · exact .inr off

/-- A node is not where no hole starts. -/
theorem Away.apart_node (away : Away bounds chunks place) (aligned : place % 16 = 0)
    (space : Space pages bounds loans chunks free grants) {node : Address}
    (listed : node ∈ nodes pages) : Range.Apart (headerRange place) (nodeRange node) := by
  rcases away with ⟨chunk, member, within⟩ | ⟨first, paged⟩
  · have held : chunk.range ∈ loans ++ backing chunks grants :=
      List.mem_append_right _ (List.mem_append_left _ (List.mem_map_of_mem member))
    exact (LawfulPageSource.node_apart space.accounts listed held).symm.mono within (.refl _)
  · have different : place ≠ node := by
      rintro rfl
      rcases space.paged place listed with same | multiple
      · exact first same
      · exact paged multiple
    exact headerRange_apart aligned (space.node_aligned listed) different

/-- Blocks and headers are made of the same units, so a block has a header or is apart from it. -/
theorem apart_of_not_within (aligned : place % 16 = 0)
    (whole : block.start % 16 = 0 ∧ block.size % 16 = 0)
    (spared : ¬Range.Within (headerRange place) block) : Range.Apart (headerRange place) block := by
  simp only [Range.Within, headerRange, BlockHeader.size] at spared
  simp only [Range.Apart, headerRange, BlockHeader.size]
  lia

/-- The header of a small block is in its chunk. -/
theorem away_small {index : Fin 8} (seated : grant.Seated chunks)
    (served : grant.layout.class? = some index) : Away bounds chunks grant.place := by
  rcases (seated.housed index served).2 with ⟨chunk, listed, -, within⟩
  exact .inl ⟨chunk, listed, (Cell.headerRange_within ⟨index, grant.place⟩).trans within⟩

/-- The header of a block of pages is in front of an address that is a power of two, at least two
headers, behind the start of a page. -/
theorem away_large (seated : grant.Seated chunks) (served : grant.layout.class? = none)
    (within : Range.Within grant.extent bounds) : Away bounds chunks grant.place := by
  have paged := (seated.paged served).1
  have above := seated.above
  have header := Grant.place_add seated
  simp only [Grant.extent, Range.Within, BlockHeader.size, pageSize] at paged within header
  rw [Layout.offset_large served, Layout.largeOffset_eq] at paged above within
  have far : 2 ^ 5 ≤ 2 ^ max grant.layout.exponent 5 :=
    Nat.pow_le_pow_right (by decide) (Nat.le_max_right _ _)
  refine .inr ⟨by lia, ?_⟩
  simp only [pageSize]
  rcases Nat.lt_or_ge (max grant.layout.exponent 5) 12 with narrow | wide
  · have short : 2 ^ max grant.layout.exponent 5 ≤ 2 ^ 11 :=
      Nat.pow_le_pow_right (by decide) (Nat.le_of_lt_succ narrow)
    lia
  · have multiple : 2 ^ 12 ∣ 2 ^ max grant.layout.exponent 5 := Nat.pow_dvd_pow 2 wide
    lia

/-! ## Headers that stay -/

/-- A step that hands out blocks apart from the place leaves the header there. -/
theorem headerIn_of_move {blocks : List Range} {grants' : List Grant}
    (move : heap.Move heap' blocks free grants free' grants')
    (nodes_apart : ∀ node ∈ nodes heap.region ++ nodes heap'.region,
      Range.Apart (headerRange place) (nodeRange node))
    (blocks_apart : ∀ block ∈ blocks, Range.Apart (headerRange place) block) :
    headerIn heap'.memory place = headerIn heap.memory place := by
  refine headerIn_of_changesIn move.changes fun range listed => ?_
  rcases List.mem_append.mp listed with hole | block
  · rcases List.mem_map.mp hole with ⟨node, member, rfl⟩
    exact nodes_apart node member
  · exact blocks_apart range block

/-- A block that goes back leaves the header of a free block. -/
theorem ended_of_release (sound : heap.Sound bounds [] chunks free (grant :: others))
    (release : heap.Release heap' bounds chunks free others grant free') :
    Ended ⟨heap', others⟩ bounds chunks grant.place where
  aligned := Grant.place_aligned sound.seated_head
  away := by
    cases served : grant.layout.class? with
    | some index => exact away_small sound.seated_head served
    | none =>
        exact away_large sound.seated_head served
          (sound.space.unit_within_bounds (extent_mem_units List.mem_cons_self))
  apart other listed := ((List.pairwise_cons.mp sound.space.extents_apart).1 other listed).mono
    (Grant.headerRange_within sound.seated_head) (.refl _)
  tagged := release.ended

/-- Whatever becomes of a request, the header stays if the request does not hand it out. -/
theorem Outcome.ended (outcome : Outcome tenancy bounds chunks free request after free')
    (kept : tenancy.Kept bounds chunks free) (ended : tenancy.Ended bounds chunks place)
    (spared : ∀ block ∈ tenancy.handout request, ¬Range.Within (headerRange place) block) :
    after.Ended bounds (tenancy.freshChunks request ++ chunks) place := by
  have kept' := outcome.kept kept
  have away := ended.away.append (tenancy.freshChunks request)
  have nodes_apart : ∀ node ∈ nodes tenancy.heap.region ++ nodes after.heap.region,
      Range.Apart (headerRange place) (nodeRange node) := by
    intro node listed
    rcases List.mem_append.mp listed with old | new
    · exact ended.away.apart_node ended.aligned kept.sound.space old
    · exact away.apart_node ended.aligned kept'.sound.space new
  cases outcome with
  | exhausted refused => exact ⟨ended.aligned, away, ended.apart, ended.tagged⟩
  | @allocated layout address _ _ given allocation =>
      have blocks_apart : ∀ block ∈ tenancy.heap.handout ⟨address, layout⟩,
          Range.Apart (headerRange place) block := by
        intro block listed
        rw [handout, given] at spared
        exact apart_of_not_within ended.aligned (allocation.move.whole block listed)
          (spared block listed)
      refine ⟨ended.aligned, away, List.forall_mem_cons.mpr ⟨?_, ended.apart⟩, ?_⟩
      · exact blocks_apart _ (List.mem_append_right _ (List.mem_singleton_self _))
      · exact headerIn_of_move allocation.move nodes_apart blocks_apart ▸ ended.tagged
  | rejected refused => exact ⟨ended.aligned, away, ended.apart, ended.tagged⟩
  | released freed same release =>
      refine ⟨ended.aligned, away, fun other listed => ?_, ?_⟩
      · exact ended.apart other (same.mem_iff.mpr (List.mem_cons_of_mem _ listed))
      · have apart := ended.apart _ (same.mem_iff.mpr List.mem_cons_self)
        exact headerIn_of_move release.move nodes_apart (List.forall_mem_singleton.mpr apart) ▸
          ended.tagged
  | @wrote address bytes grant listed within =>
      refine ⟨ended.aligned, away, ended.apart, ?_⟩
      have inside := within.trans (Grant.payload_within (kept.sound.space.seated grant listed))
      have apart := (ended.apart grant listed).mono (.refl _) inside
      have same := headerIn_of_changesIn (tenancy.heap.memory.changesIn_write address bytes)
        (List.forall_mem_singleton.mpr apart)
      exact same ▸ ended.tagged

/-! ## Freeing again -/

/-- The header of a free block gives the second free away. -/
theorem free_ended (kept : tenancy.Kept bounds chunks free)
    (ended : tenancy.Ended bounds chunks place) (above : bounds.start ≤ place)
    (below : place + BlockHeader.size < bounds.start + bounds.size) :
    tenancy.heap.free (place + BlockHeader.size) =
      .error (.doubleFree (place + BlockHeader.size)) := by
  have aligned := ended.aligned
  have here : ¬(place + BlockHeader.size < tenancy.heap.start + BlockHeader.size ∨
      tenancy.heap.stop ≤ place + BlockHeader.size ∨
      (place + BlockHeader.size) % blockAlign ≠ 0) := by
    rw [kept.sound.start_eq, kept.sound.stop_eq]
    simp only [BlockHeader.size, blockAlign] at below ⊢
    lia
  have read : tenancy.heap.headerAt place = headerIn tenancy.heap.memory place := rfl
  unfold SlabHeap.free
  simp only [kept.sound.initialized, Bool.not_true, Bool.false_eq_true, if_false, if_neg here,
    Nat.add_sub_cancel, read]
  rcases ended.tagged with small | large
  · rw [small]
  · rw [large]

/-- What is known after an address has gone back is known as long as its header is spared. -/
theorem exists_ended {first : Tenancy Pages} (kept : first.Kept bounds chunks free)
    (unforged : Unforged first.heap.memory bounds first.grants)
    (ended : first.Ended bounds chunks place)
    (later : Sparing Heedless (headerRange place) first final) :
    ∃ chunks free, final.Kept bounds chunks free ∧
      Unforged final.heap.memory bounds final.grants ∧ final.Ended bounds chunks place := by
  induction later with
  | none => exact ⟨chunks, free, kept, unforged, ended⟩
  | step _ allows spared ih =>
      rcases ih with ⟨chunks, free, kept, unforged, ended⟩
      rcases outcome_of_heedless kept.sound unforged allows with ⟨free', outcome⟩
      exact ⟨_, free', outcome.kept kept, outcome.unforged allows unforged,
        outcome.ended kept ended spared⟩

/-- Whatever heedless clients do after an address has gone back, the heap refuses it as freed twice
and changes nothing, as long as the header in front of it has not been handed out again. -/
theorem double_free_reported (reachable : Reachable Heedless memory start size tenancy)
    (clean : ∀ place, place % 16 = 0 → start ≤ place → place + 4 ≤ start + size →
      ¬UsedWordAt memory place)
    (freed : tenancy.heap.free address = .ok heap)
    (later : Sparing Heedless (headerRange (address - BlockHeader.size))
      (tenancy.perform (.free address)) final) :
    exec (InPlace.free address) final.heap = (.error (.doubleFree address), final.heap) := by
  rcases exists_cutting reachable with ⟨chunks, run⟩
  rcases exists_kept_unforged run clean with ⟨free, kept, unforged⟩
  rcases kept.sound.granted_of_free unforged freed with ⟨grant, listed, rfl⟩
  have bound := (SlabHeap.used_of_free freed).2.1
  rcases perform_release kept.sound listed bound with
    ⟨after, others, free', freed', result, same, release⟩
  have sound := kept.sound.perm same
  have back := Grant.place_add sound.seated_head
  have outcome : Outcome tenancy ⟨start, size⟩ chunks free (.free grant.address)
      ⟨after, others⟩ free' := .released freed' same release
  rw [result] at later
  rcases exists_ended (outcome.kept kept) (outcome.unforged trivial unforged)
    (ended_of_release sound release) later with ⟨chunks', free'', kept', -, ended⟩
  have reach := sound.address_bounds.1
  rw [sound.start_eq] at reach
  rw [sound.stop_eq] at bound
  have refused := free_ended kept' ended (by lia) (by lia)
  rw [back] at refused
  exact ((SlabHeap.atomic final.heap).free _ _ _).mpr ⟨refused, rfl⟩

/-- Pages went back and became part of a hole, and a cell was handed out; then the pages were given
back again. -/
theorem double_free_reported_vacant :
    let tenancy := (vacant.perform (.allocate ⟨100, 3, by decide⟩)).perform
      (.allocate ⟨5000, 4, by decide⟩)
    let final := (tenancy.perform (.free 69664)).perform (.allocate ⟨90, 3, by decide⟩)
    exec (InPlace.free 69664) final.heap = (.error (.doubleFree 69664), final.heap) := by
  intro tenancy final
  have opened : Reachable Heedless (.filled 0) 65536 65536 vacant := .opened rfl
  have small := opened.step (show Heedless _ (.allocate ⟨100, 3, by decide⟩) from trivial)
  have large : Reachable Heedless (.filled 0) 65536 65536 tenancy :=
    small.step (show Heedless _ (.allocate ⟨5000, 4, by decide⟩) from trivial)
  have taken : (tenancy.heap.free 69664).isOk = true := by decide +kernel
  have blocks : (tenancy.perform (.free 69664)).handout (.allocate ⟨90, 3, by decide⟩) =
      [⟨65680, 144⟩] := by decide +kernel
  have later : Sparing Heedless (headerRange (69664 - BlockHeader.size))
      (tenancy.perform (.free 69664)) final := by
    refine Sparing.none.step trivial ?_
    rw [blocks]
    exact List.forall_mem_singleton.mpr fun within => absurd within.2 (by decide)
  cases freed : tenancy.heap.free 69664 with
  | error error =>
      rw [freed] at taken
      cases taken
  | ok after =>
      exact double_free_reported large (fun place _ _ _ => not_usedWordAt_zeros place) freed later

end Tenancy
end Heap
end ModuleHost
