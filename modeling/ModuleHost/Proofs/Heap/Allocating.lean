import ModuleHost.Proofs.Heap.Soundness

namespace ModuleHost
namespace SlabHeap

/-!
# Allocating

Every request either hands out a block that fits its layout or is refused for want of
memory.  A small block is the head of the chain of its class, after a fresh chunk if the
chain is empty; a header of another kind there would mean that memory has been damaged,
and soundness excludes it.  A large block is a loan of pages with a header in front of
the client's bytes.
-/

open Heap

variable {Pages : Type} [PageSource Pages]
variable {heap after : SlabHeap Pages} {bounds block : Range} {loans : List Range}
variable {chunks : List Chunk} {free : List Cell} {grants : List Grant}
variable {grant : Grant} {index : Fin 8} {layout : Layout} {address place : Address}
variable {places : List Address}

theorem takePages_error {size align : Nat} {error : HeapError}
    (refused : heap.takePages size align = .error error) : error = .outOfMemory := by
  unfold takePages at refused
  split at refused
  · exact (Except.error.inj refused).symm
  · cases refused

theorem popFree_eq {detail link : Nat}
    (header : headerIn heap.memory (heap.head index) = ⟨Tag.smallFree.magic, detail, link⟩) :
    heap.popFree index = .ok (heap.head index + BlockHeader.size,
      (heap.setHeader (heap.head index) ⟨Tag.smallUsed.magic, detail, 0⟩).setClass index
        { heap.classes.get index with
          chain := link, inUse := (heap.classes.get index).inUse + 1 }) := by
  have read : heap.headerAt heap.classes[index].chain = ⟨Tag.smallFree.magic, detail, link⟩ :=
    header
  unfold popFree
  simp only [read, BlockHeader.tag?_mk, if_true]
  rfl

/-! ## Chunks -/

/-- The places that a chunk is cut at. -/
def cutPlaces (index : Fin 8) (block : Range) : List Address :=
  (List.range (block.size / stride index)).map fun position => block.start + position * stride index

/-- The heap with the pages cut into free cells of a class. -/
def cutInto (heap : SlabHeap Pages) (index : Fin 8) (block : Range) : SlabHeap Pages :=
  let filled := (cutPlaces index block).foldr (fun place heap => heap.pushFree index place) heap
  let sizeClass := filled.classes.get index
  filled.setClass index { sizeClass with total := sizeClass.total + (cutPlaces index block).length }

theorem length_cutPlaces (index : Fin 8) (block : Range) :
    (cutPlaces index block).length = block.size / stride index := by
  rw [cutPlaces, List.length_map, List.length_range]

/-- A place that a chunk is cut at is that of a cell in it. -/
theorem within_of_cut (listed : place ∈ cutPlaces index block) :
    Range.Within (Cell.range ⟨index, place⟩) block := by
  rcases List.mem_map.mp listed with ⟨position, inside, rfl⟩
  have room := Nat.mul_le_mul_right (stride index) (Nat.succ_le_of_lt (List.mem_range.mp inside))
  have fits := Nat.div_mul_le_self block.size (stride index)
  rw [Nat.succ_mul] at room
  simp only [Range.Within, Cell.range]
  lia

theorem housed_of_cut (paged : block.start % pageSize = 0) (listed : place ∈ cutPlaces index block)
    (chunks : List Chunk) : Cell.Housed ⟨index, place⟩ (⟨index, block⟩ :: chunks) := by
  refine ⟨?_, _, List.mem_cons_self, rfl, within_of_cut listed⟩
  rcases List.mem_map.mp listed with ⟨position, inside, rfl⟩
  have whole := Nat.mod_eq_zero_of_dvd
    (Nat.dvd_mul_left_of_dvd (Nat.dvd_of_mod_eq_zero (stride_whole index).1) position)
  simp only [pageSize] at paged
  show (block.start + position * stride index) % 16 = 0
  lia

theorem separate_cut (index : Fin 8) (block : Range) :
    ((cutPlaces index block).map (Cell.mk index)).Pairwise fun cell other =>
      Range.Apart cell.range other.range := by
  rw [cutPlaces, List.map_map]
  refine List.pairwise_map.mpr (List.pairwise_lt_range.imp fun {position later} less => .inl ?_)
  have room := Nat.mul_le_mul_right (stride index) (Nat.succ_le_of_lt less)
  rw [Nat.succ_mul] at room
  simp only [Function.comp, Cell.range]
  lia

theorem cutPlaces_ne_nil (room : stride index * blocksPerChunk ≤ block.size) :
    cutPlaces index block ≠ [] := by
  have long := (stride_whole index).2
  have count : 0 < block.size / stride index := by
    refine Nat.div_pos (Nat.le_trans ?_ room) (by omega)
    exact Nat.le_mul_of_pos_right _ (by decide)
  intro none
  have length := congrArg List.length none
  rw [length_cutPlaces] at length
  exact Nat.ne_of_gt count length

/-- Either there are no pages for a chunk, or they are cut. -/
theorem addChunk_cases (heap : SlabHeap Pages) (index : Fin 8) :
    heap.pagesFor? index = none ∧ heap.addChunk index = .error .outOfMemory ∨
      ∃ base size lent, stride index * blocksPerChunk ≤ size ∧ size % pageSize = 0 ∧
        heap.takePages size pageSize = .ok (base, lent) ∧
        heap.pagesFor? index = some ⟨base, size⟩ ∧
        heap.addChunk index = .ok (lent.cutInto index ⟨base, size⟩) := by
  unfold SlabHeap.addChunk pagesFor?
  cases rounds : roundUp? (stride index * blocksPerChunk) pageSize with
  | none => exact .inl ⟨rfl, rfl⟩
  | some size =>
      rcases roundUp?_eq_some (show roundUp? _ (2 ^ 12) = _ from rounds) with ⟨whole, room⟩
      dsimp only
      cases taken : heap.takePages size pageSize with
      | error error =>
          rw [takePages_error taken]
          exact .inl ⟨rfl, rfl⟩
      | ok result =>
          rcases result with ⟨base, lent⟩
          refine .inr ⟨base, size, lent, room, whole, taken, rfl, ?_⟩
          rw [cutInto, length_cutPlaces]
          rfl

/-- Pushing cells writes their headers. -/
theorem pushAll_frame (heap : SlabHeap Pages) (index : Fin 8)
    (within : ∀ place ∈ places, Range.Within (Cell.range ⟨index, place⟩) block) :
    let filled := places.foldr (fun place heap => heap.pushFree index place) heap
    filled.region = heap.region ∧ Memory.ChangesIn [block] heap.memory filled.memory := by
  induction places with
  | nil => exact ⟨rfl, fun _ _ => rfl⟩
  | cons place places ih =>
      rcases List.forall_mem_cons.mp within with ⟨here, later⟩
      rcases ih later with ⟨same, changes⟩
      refine ⟨same, changes.trans ((changesIn_header _ place _).cover ?_)⟩
      refine List.forall_mem_singleton.mpr ⟨block, List.mem_cons_self, ?_⟩
      exact (Cell.headerRange_within ⟨index, place⟩).trans here

variable [LawfulPageSource Pages]

/-- A loan becomes a chunk of free cells. -/
theorem Sound.cutInto (lent : heap.Sound bounds [block] chunks free grants)
    (paged : block.start % pageSize = 0) (index : Fin 8) :
    (heap.cutInto index block).Sound bounds [] (⟨index, block⟩ :: chunks)
        ((cutPlaces index block).map (Cell.mk index) ++ free) grants ∧
      Effect bounds grants grants grants heap.memory (heap.cutInto index block).memory := by
  have adopted : heap.Sound bounds [] (⟨index, block⟩ :: chunks) free grants :=
    ⟨lent.initialized, lent.start_eq, lent.stop_eq, lent.space.adopt index, lent.marks⟩
  have housed : ∀ place ∈ cutPlaces index block,
      Cell.Housed ⟨index, place⟩ (⟨index, block⟩ :: chunks) :=
    fun place listed => housed_of_cut paged listed chunks
  have apart : ∀ place ∈ cutPlaces index block, ∀ unit ∈ units free grants,
      Range.Apart (Cell.range ⟨index, place⟩) unit := fun place listed unit listed' =>
    (lent.space.loan_apart List.mem_cons_self listed').mono (within_of_cut listed) (.refl _)
  rcases adopted.pushAll housed (separate_cut index block) apart with ⟨sound, effect⟩
  exact ⟨sound.setClass rfl, effect⟩

/-- A fresh chunk becomes free cells of its class. -/
theorem Sound.addChunk (sound : heap.Sound bounds [] chunks free grants) (index : Fin 8) :
    heap.pagesFor? index = none ∧ heap.addChunk index = .error .outOfMemory ∨
      ∃ after block, heap.pagesFor? index = some block ∧ heap.addChunk index = .ok after ∧
        cutPlaces index block ≠ [] ∧
        after.Sound bounds [] (⟨index, block⟩ :: chunks)
          ((cutPlaces index block).map (Cell.mk index) ++ free) grants ∧
        Effect bounds grants grants grants heap.memory after.memory ∧
        heap.Move after [block] free grants
          ((cutPlaces index block).map (Cell.mk index) ++ free) grants := by
  rcases heap.addChunk_cases index with
    refused | ⟨base, size, lent, room, whole, taken, paged, added⟩
  · exact .inl refused
  · have long := (stride_whole index).2
    have positive : 0 < size := by
      simp only [blocksPerChunk] at room
      omega
    rcases sound.takePages positive whole (Nat.le_refl 12) taken with
      ⟨aligned, sound', effect, move⟩
    rcases sound'.cutInto aligned index with ⟨sound'', effect'⟩
    have frame := lent.pushAll_frame index fun place listed =>
      within_of_cut (show place ∈ cutPlaces index ⟨base, size⟩ from listed)
    have units : base % 16 = 0 ∧ size % 16 = 0 := by
      simp only [pageSize] at whole
      lia
    exact .inr ⟨_, ⟨base, size⟩, paged, added, cutPlaces_ne_nil room, sound'',
      effect.trans effect', move.trans (.inBlock units frame.2 fun counted => counted.cut index _)
        frame.1.symm⟩

/-- The pages and the block that are handed out for a grant. -/
def handout (heap : SlabHeap Pages) (grant : Grant) : List Range :=
  (heap.freshChunks grant.layout).map Chunk.range ++ [grant.extent]

/-- A block has been handed out, from a fresh chunk if need be. -/
structure Allocation (heap after : SlabHeap Pages) (bounds : Range) (chunks : List Chunk)
    (free : List Cell) (grants : List Grant) (grant : Grant) (free' : List Cell) : Prop where
  sound : after.Sound bounds [] (heap.freshChunks grant.layout ++ chunks) free' (grant :: grants)
  effect : Effect bounds grants grants (grant :: grants) heap.memory after.memory
  move : heap.Move after (heap.handout grant) free grants free' (grant :: grants)

/-! ## Small blocks -/

/-- A cell that serves a layout is a seat for it. -/
theorem seated_small (housed : Cell.Housed ⟨index, place⟩ chunks)
    (served : layout.class? = some index) :
    Grant.Seated ⟨place + BlockHeader.size, layout⟩ chunks := by
  rcases Layout.class?_eq_some served with ⟨aligned, fits⟩
  have whole := housed.1
  refine ⟨?_, ?_, ?_, ?_, fun other served' => ?_, fun none => ?_⟩
  · refine Nat.mod_eq_zero_of_dvd (Nat.dvd_trans (Layout.align_dvd aligned) ?_)
    exact Nat.dvd_add (Nat.dvd_of_mod_eq_zero whole) (Nat.dvd_refl _)
  · simp only [BlockHeader.size]
    lia
  · rw [Layout.offset_small served]
    exact Nat.le_add_left _ _
  · rw [Layout.offset_small served, Layout.span_small served]
    exact fits
  · rw [served] at served'
    cases served'
    rw [Grant.place, Nat.add_sub_cancel]
    exact housed
  · rw [served] at none
    cases none

/-- The head of a chain is handed out. -/
theorem Sound.popFree (sound : heap.Sound bounds loans chunks free grants) {places : List Address}
    (listed : placesOf index free = place :: places) (served : layout.class? = some index) :
    ∃ after rest, heap.popFree index = .ok (place + BlockHeader.size, after) ∧
      after.Sound bounds loans chunks rest (⟨place + BlockHeader.size, layout⟩ :: grants) ∧
      Effect bounds grants grants (⟨place + BlockHeader.size, layout⟩ :: grants)
        heap.memory after.memory ∧
      heap.Move after [Grant.extent ⟨place + BlockHeader.size, layout⟩] free grants rest
        (⟨place + BlockHeader.size, layout⟩ :: grants) ∧ heap.region = after.region := by
  have threaded := sound.marks.chains index
  rw [listed] at threaded
  rcases threaded with ⟨rfl, link, header, threaded⟩
  rcases exists_of_placesOf listed with ⟨rest, perm, rest_eq, others_eq⟩
  have space := sound.space.perm perm (.refl _)
  have housed := space.housed _ List.mem_cons_self
  have seated := seated_small housed served
  have place_eq : Grant.place ⟨heap.head index + BlockHeader.size, layout⟩ = heap.head index :=
    Nat.add_sub_cancel _ _
  have fits : BlockHeader.Fits ⟨Tag.smallUsed.magic, index, 0⟩ :=
    BlockHeader.fits_mk .smallUsed (Nat.lt_trans index.isLt (by decide)) (by decide)
  have apart : ∀ unit ∈ units rest grants, Range.Apart (headerRange (heap.head index)) unit :=
    fun unit member => ((List.pairwise_cons.mp space.apart).1 unit member).mono
      (Cell.headerRange_within ⟨index, heap.head index⟩) (.refl _)
  refine ⟨_, rest, popFree_eq header,
    ⟨sound.initialized, sound.start_eq, sound.stop_eq, ?_, ?_⟩, ?_,
    .inBlock (Grant.extent_whole seated) ?_ ?_, rfl⟩
  · refine Space.grantSmall ?_ served seated
    rw [place_eq]
    exact space
  · refine (space.dropFree.frame_header (sound.marks.pop threaded rest_eq others_eq
      (head_setClass_self _ _ _) fun other different => head_setClass_of_ne _ _ different)
      ⟨Tag.smallUsed.magic, index, 0⟩ apart).add ?_
    rw [place_eq, Layout.header_small served]
    exact headerIn_write_self fits heap.memory _
  · exact Effect.header housed.1 fits (space.dropFree.payload_apart apart)
      (fun other member _ => List.mem_cons_of_mem _ member)
      fun _ => ⟨_, List.mem_cons_self, place_eq⟩
  · have within := Grant.headerRange_within seated
    rw [place_eq] at within
    exact (changesIn_header heap.memory _ _).cover
      (List.forall_mem_singleton.mpr ⟨_, List.mem_cons_self, within⟩)
  · intro counted
    have marked : (heap.setHeader (heap.head index) ⟨Tag.smallUsed.magic, index, 0⟩).Counted free
        grants := counted.congr rfl rfl
    rw [← rest_eq] at listed
    exact marked.grantSmall served listed others_eq rfl rfl

/-- A layout that a class serves gets a cell of it, unless there is no room for a chunk. -/
theorem Sound.allocateSmall (sound : heap.Sound bounds [] chunks free grants)
    (served : layout.class? = some index) :
    heap.allocateSmall index = .error .outOfMemory ∨
      ∃ address after free', heap.allocateSmall index = .ok (address, after) ∧
        heap.Allocation after bounds chunks free grants ⟨address, layout⟩ free' := by
  unfold SlabHeap.allocateSmall
  split
  · next empty =>
      rcases sound.addChunk index with
        ⟨-, refused⟩ | ⟨filled, block, paged, added, cut, sound', effect, move⟩
      · rw [refused]
        exact .inl rfl
      · rw [added]
        right
        have fresh : heap.freshChunks layout = [⟨index, block⟩] := by
          simp only [freshChunks, served, head, paged]
          exact if_pos empty
        rcases List.exists_cons_of_ne_nil cut with ⟨place, places, split⟩
        have listed : placesOf index ((cutPlaces index block).map (Cell.mk index) ++ free) =
            place :: placesOf index (places.map (Cell.mk index) ++ free) := by
          rw [split]
          exact placesOf_cons_self index place _
        rcases sound'.popFree listed served with
          ⟨after, rest, popped, sound'', effect', move', same⟩
        refine ⟨_, after, rest, popped, ?_, effect.trans effect', ?_⟩
        · rw [fresh]
          exact sound''
        · rw [handout, fresh]
          exact move.trans move' same
  · next occupied =>
      right
      have fresh : heap.freshChunks layout = [] := by
        simp only [freshChunks, served, head]
        exact if_neg occupied
      have threaded := sound.marks.chains index
      cases listed : placesOf index free with
      | nil =>
          rw [listed] at threaded
          exact absurd threaded occupied
      | cons place places =>
          rcases sound.popFree listed served with ⟨after, rest, popped, sound', effect, move, -⟩
          refine ⟨_, after, rest, popped, ?_, effect, ?_⟩
          · rw [fresh]
            exact sound'
          · rw [handout, fresh]
            exact move

/-! ## Large blocks -/

theorem extent_large {base total : Nat} (served : layout.class? = none)
    (sized : largeTotal? layout = some total) :
    Grant.extent ⟨base + largeOffset layout, layout⟩ = ⟨base, total⟩ := by
  rw [Grant.extent, Layout.offset_large served, Layout.span_large served sized,
    Nat.add_sub_cancel]

/-- Pages at a multiple of the alignment are a seat for the layout. -/
theorem seated_large {base total : Nat} (served : layout.class? = none)
    (sized : largeTotal? layout = some total) (aligned : base % 2 ^ max layout.exponent 12 = 0)
    (chunks : List Chunk) : Grant.Seated ⟨base + largeOffset layout, layout⟩ chunks := by
  rcases Layout.largeOffset_whole layout with ⟨divides, whole, _⟩
  rcases Layout.largeTotal?_eq_some sized with ⟨_, pages, room⟩
  have base_dvd := Nat.dvd_of_mod_eq_zero aligned
  have base_paged : base % pageSize = 0 := Nat.mod_eq_zero_of_dvd
    (Nat.dvd_trans (Nat.pow_dvd_pow 2 (Nat.le_max_right layout.exponent 12)) base_dvd)
  refine ⟨?_, ?_, ?_, ?_, fun index served' => ?_, fun _ => ?_⟩
  · refine Nat.mod_eq_zero_of_dvd (Nat.dvd_add (Nat.dvd_trans ?_ base_dvd) divides)
    rw [Layout.align_eq]
    exact Nat.pow_dvd_pow 2 (Nat.le_max_left _ _)
  · simp only [pageSize] at base_paged
    show (base + largeOffset layout) % 16 = 0
    lia
  · rw [Layout.offset_large served]
    exact Nat.le_add_left _ _
  · rw [Layout.offset_large served, Layout.span_large served sized]
    exact room
  · rw [served] at served'
    cases served'
  · rw [extent_large served sized]
    exact ⟨base_paged, pages⟩

/-- A loan becomes a large grant when it gets its header. -/
theorem Sound.markLarge {base total : Nat}
    (lent : heap.Sound bounds [⟨base, total⟩] chunks free grants)
    (served : layout.class? = none) (sized : largeTotal? layout = some total)
    (aligned : base % 2 ^ max layout.exponent 12 = 0) (bounded : total < addressLimit) :
    (heap.setHeader (base + largeOffset layout - BlockHeader.size)
        ⟨Tag.largeUsed.magic, largeOffset layout, total⟩).Sound bounds [] chunks free
        (⟨base + largeOffset layout, layout⟩ :: grants) ∧
      Effect bounds grants grants (⟨base + largeOffset layout, layout⟩ :: grants) heap.memory
        (heap.setHeader (base + largeOffset layout - BlockHeader.size)
          ⟨Tag.largeUsed.magic, largeOffset layout, total⟩).memory ∧
      Memory.ChangesIn [Grant.extent ⟨base + largeOffset layout, layout⟩] heap.memory
        (heap.setHeader (base + largeOffset layout - BlockHeader.size)
          ⟨Tag.largeUsed.magic, largeOffset layout, total⟩).memory := by
  have extent : Grant.extent ⟨base + largeOffset layout, layout⟩ = ⟨base, total⟩ :=
    extent_large served sized
  have seated := seated_large served sized aligned chunks
  have fits : BlockHeader.Fits ⟨Tag.largeUsed.magic, largeOffset layout, total⟩ :=
    BlockHeader.fits_mk .largeUsed (Layout.largeTotal?_eq_some sized).1 bounded
  have within := Grant.headerRange_within seated
  rw [extent] at within
  have apart : ∀ unit ∈ units free grants, Range.Apart
      (headerRange (base + largeOffset layout - BlockHeader.size)) unit :=
    fun unit listed => (lent.space.loan_apart List.mem_cons_self listed).mono within (.refl _)
  refine ⟨⟨lent.initialized, lent.start_eq, lent.stop_eq, Space.grantLarge ?_ served seated, ?_⟩,
    ?_, ?_⟩
  · rw [extent]
    exact lent.space
  · refine (lent.space.frame_header lent.marks ⟨Tag.largeUsed.magic, largeOffset layout, total⟩
      apart).add ?_
    rw [Layout.header_large served, Layout.offset_large served, Layout.span_large served sized]
    exact headerIn_write_self fits heap.memory _
  · have whole := Grant.place_aligned seated
    rw [Grant.place] at whole
    exact Effect.header whole fits (lent.space.payload_apart apart)
      (fun other member _ => List.mem_cons_of_mem _ member) fun _ => ⟨_, List.mem_cons_self, rfl⟩
  · rw [extent]
    exact (changesIn_header heap.memory _ _).cover
      (List.forall_mem_singleton.mpr ⟨_, List.mem_cons_self, within⟩)

/-- A layout that no class serves gets pages, unless there is no room for them. -/
theorem Sound.allocateLarge (sound : heap.Sound bounds [] chunks free grants)
    (served : layout.class? = none) :
    heap.allocateLarge layout = .error .outOfMemory ∨
      ∃ address after, heap.allocateLarge layout = .ok (address, after) ∧
        heap.Allocation after bounds chunks free grants ⟨address, layout⟩ free := by
  unfold SlabHeap.allocateLarge
  cases sized : largeTotal? layout with
  | none => exact .inl rfl
  | some total =>
      dsimp only
      split
      case isFalse => exact .inl rfl
      case isTrue bounded =>
        rcases Layout.largeTotal?_eq_some sized with ⟨_, pages, room⟩
        rcases Layout.largeOffset_whole layout with ⟨_, _, far⟩
        cases taken : heap.takePages total (max layout.align pageSize) with
        | error error =>
            rw [takePages_error taken]
            exact .inl rfl
        | ok result =>
            rcases result with ⟨base, heap'⟩
            rw [Layout.max_align_pageSize] at taken
            rcases sound.takePages (Nat.lt_of_lt_of_le (by omega) room) pages
              (Nat.le_max_right _ _) taken with ⟨aligned, lent, effect, move⟩
            have short : total < addressLimit :=
              Nat.lt_of_le_of_lt (Nat.le_trans (Nat.le_add_right _ _) bounded) (by decide)
            rcases lent.markLarge served sized aligned short with ⟨marked, effect', changes⟩
            have fresh : heap.freshChunks layout = [] := by
              rw [freshChunks, served]
            refine .inr ⟨_, _, rfl, ?_, effect.trans effect', ?_⟩
            · rw [fresh]
              exact marked.setLargeCount _
            · rw [handout, fresh]
              refine move.trans (.inBlock (Grant.extent_whole marked.seated_head) changes ?_) rfl
              exact fun counted => (counted.grantLarge served).congr rfl rfl

/-- Every request gets a block for its layout, unless there is no room for one. -/
theorem Sound.allocate (sound : heap.Sound bounds [] chunks free grants) (layout : Layout) :
    heap.allocate layout = .error .outOfMemory ∨
      ∃ address after free', heap.allocate layout = .ok (address, after) ∧
        heap.Allocation after bounds chunks free grants ⟨address, layout⟩ free' := by
  cases served : layout.class? with
  | some index =>
      have small : heap.allocate layout = heap.allocateSmall index := by
        rcases Layout.class?_eq_some served with ⟨aligned, _⟩
        rw [Layout.class?, if_pos aligned] at served
        simp [SlabHeap.allocate, sound.initialized, aligned, served]
      rw [small]
      exact sound.allocateSmall served
  | none =>
      have large : heap.allocate layout = heap.allocateLarge layout := by
        simp only [SlabHeap.allocate, sound.initialized, Bool.not_true, Bool.false_eq_true,
          if_false]
        split
        · next aligned =>
            rw [Layout.class?, if_pos aligned] at served
            rw [served]
        · rfl
      rw [large]
      rcases sound.allocateLarge served with refused | ⟨address, after, given, allocation⟩
      · exact .inl refused
      · exact .inr ⟨address, after, free, given, allocation⟩

end SlabHeap
end ModuleHost
