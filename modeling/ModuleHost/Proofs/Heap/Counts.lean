import ModuleHost.Proofs.Heap.Marks

namespace ModuleHost
namespace SlabHeap

/-!
# Counts

The heap keeps its counts beside its chains: how many blocks a class has, how many of these are
in use, and how many large blocks are.  Nothing compares them with the blocks.  `Counted` says
that they agree, and a `Move` of blocks from one list to another keeps it so.

A move also says where it writes: into the nodes of holes, and into the blocks that it hands out
or takes back.
-/

open Heap
open LawfulPageSource (nodes)

variable {Pages : Type} [PageSource Pages]

/-- The head of the chain of a class. -/
def head (heap : SlabHeap Pages) (index : Fin 8) : Address :=
  (heap.classes.get index).chain

/-- The counts are those of the free cells and of the grants. -/
structure Counted (heap : SlabHeap Pages) (free : List Cell) (grants : List Grant) : Prop where
  total : ∀ index, (heap.classes.get index).total =
    (heap.classes.get index).inUse + (placesOf index free).length
  inUse : ∀ index, (heap.classes.get index).inUse =
    grants.countP fun grant => grant.layout.class? = some index
  large : heap.largeCount = grants.countP Grant.isLarge

/-- The pages that the heap takes to cut them for a class. -/
def pagesFor? (heap : SlabHeap Pages) (index : Fin 8) : Option Range :=
  match roundUp? (stride index * blocksPerChunk) pageSize with
  | none => none
  | some size =>
    match heap.takePages size pageSize with
    | .error _ => none
    | .ok (base, _) => some ⟨base, size⟩

/-- The chunks, one at most, that are cut to serve a layout. -/
def freshChunks (heap : SlabHeap Pages) (layout : Layout) : List Chunk :=
  match layout.class? with
  | none => []
  | some index =>
    if heap.head index = 0 then ((heap.pagesFor? index).map (Chunk.mk index)).toList else []

/-- A step that moves blocks writes into nodes of holes and into blocks that are given, and the
counts go with the lists. -/
structure Move [LawfulPageSource Pages] (heap after : SlabHeap Pages) (blocks : List Range)
    (free : List Cell) (grants : List Grant) (free' : List Cell) (grants' : List Grant) : Prop where
  whole : ∀ block ∈ blocks, block.start % 16 = 0 ∧ block.size % 16 = 0
  changes : Memory.ChangesIn
    ((nodes heap.region ++ nodes after.region).map nodeRange ++ blocks) heap.memory after.memory
  counts : heap.Counted free grants → after.Counted free' grants'

variable {heap middle after : SlabHeap Pages} {index other : Fin 8}
variable {free rest free' free'' : List Cell} {grants grants' grants'' : List Grant} {grant : Grant}

/-! ## Size classes -/

theorem get_setClass_self (heap : SlabHeap Pages) (index : Fin 8) (sizeClass : SizeClass) :
    (heap.setClass index sizeClass).classes.get index = sizeClass :=
  Vector.getElem_set_self index.isLt

theorem get_setClass_of_ne (heap : SlabHeap Pages) (sizeClass : SizeClass)
    (different : other ≠ index) :
    (heap.setClass index sizeClass).classes.get other = heap.classes.get other :=
  Vector.getElem_set_ne index.isLt other.isLt fun same => different (Fin.ext same.symm)

theorem head_setClass_self (heap : SlabHeap Pages) (index : Fin 8) (sizeClass : SizeClass) :
    (heap.setClass index sizeClass).head index = sizeClass.chain :=
  congrArg SizeClass.chain (get_setClass_self heap index sizeClass)

theorem head_setClass_of_ne (heap : SlabHeap Pages) (sizeClass : SizeClass)
    (different : other ≠ index) : (heap.setClass index sizeClass).head other = heap.head other :=
  congrArg SizeClass.chain (get_setClass_of_ne heap sizeClass different)

/-- Counting blocks does not touch the chains. -/
theorem head_setClass_of_chain (heap : SlabHeap Pages) {sizeClass : SizeClass}
    (same : sizeClass.chain = heap.head index) :
    (heap.setClass index sizeClass).head = heap.head := by
  funext other
  by_cases here : other = index
  · rw [here, head_setClass_self, same]
  · exact head_setClass_of_ne heap sizeClass here

/-- A block on a chain counts for nothing by itself. -/
theorem get_pushFree (heap : SlabHeap Pages) (index : Fin 8) (place : Address) (other : Fin 8) :
    (heap.pushFree index place).classes.get other =
      { heap.classes.get other with chain := (heap.pushFree index place).head other } := by
  by_cases here : other = index
  · subst here
    rw [head, show (heap.pushFree other place).classes.get other = _ from
      get_setClass_self _ _ _]
    rfl
  · rw [head, show (heap.pushFree index place).classes.get other = _ from
      get_setClass_of_ne _ _ here]
    rfl

theorem get_pushAll (heap : SlabHeap Pages) (index : Fin 8) (places : List Address)
    (other : Fin 8) :
    let filled := places.foldr (fun place heap => heap.pushFree index place) heap
    filled.classes.get other = { heap.classes.get other with chain := filled.head other } := by
  induction places with
  | nil => rfl
  | cons place places ih =>
      dsimp only [List.foldr_cons] at ih ⊢
      rw [get_pushFree, ih]

/-! ## Counts -/

theorem placesOf_append (index : Fin 8) (cells free : List Cell) :
    placesOf index (cells ++ free) = placesOf index cells ++ placesOf index free := by
  rw [placesOf, List.filter_append, List.map_append]
  rfl

theorem placesOf_cells (index : Fin 8) (places : List Address) :
    placesOf index (places.map (Cell.mk index)) = places := by
  simp [placesOf, List.filter_map, Function.comp_def]

theorem placesOf_cells_of_ne (different : other ≠ index) (places : List Address) :
    placesOf other (places.map (Cell.mk index)) = [] := by
  simp [placesOf, List.filter_map, Function.comp_def, Ne.symm different]

namespace Counted

theorem perm (counted : heap.Counted free grants) (same : grants.Perm grants') :
    heap.Counted free grants' where
  total := counted.total
  inUse index := (counted.inUse index).trans (same.countP_eq _)
  large := counted.large.trans (same.countP_eq _)

/-- The counts do not depend on memory. -/
theorem congr (counted : heap.Counted free grants) (classes : after.classes = heap.classes)
    (large : after.largeCount = heap.largeCount) : after.Counted free grants where
  total index := by
    rw [classes]
    exact counted.total index
  inUse index := by
    rw [classes]
    exact counted.inUse index
  large := large.trans counted.large

/-- Fresh cells are counted when they are on their chain. -/
theorem cut (counted : heap.Counted free grants) (index : Fin 8) (places : List Address) :
    let filled := places.foldr (fun place heap => heap.pushFree index place) heap
    let sizeClass := filled.classes.get index
    (filled.setClass index { sizeClass with total := sizeClass.total + places.length }).Counted
      (places.map (Cell.mk index) ++ free) grants := by
  intro filled sizeClass
  have large : filled.largeCount = heap.largeCount := by
    induction places with
    | nil => rfl
    | cons place places ih => exact ih
  refine ⟨fun other => ?_, fun other => ?_, large.trans counted.large⟩
  · rw [placesOf_append]
    by_cases here : other = index
    · subst here
      have total := counted.total other
      rw [get_setClass_self, placesOf_cells, List.length_append]
      simp only [sizeClass, filled, get_pushAll]
      lia
    · rw [get_setClass_of_ne _ _ here, placesOf_cells_of_ne here, List.nil_append]
      simp only [filled, get_pushAll]
      exact counted.total other
  · by_cases here : other = index
    · subst here
      rw [get_setClass_self]
      simp only [sizeClass, filled, get_pushAll]
      exact counted.inUse other
    · rw [get_setClass_of_ne _ _ here]
      simp only [filled, get_pushAll]
      exact counted.inUse other

/-- A free cell becomes a grant. -/
theorem grantSmall (counted : heap.Counted free grants)
    (served : grant.layout.class? = some index) {place : Address} {sizeClass : SizeClass}
    (listed : placesOf index free = place :: placesOf index rest)
    (others : ∀ other, other ≠ index → placesOf other rest = placesOf other free)
    (total : sizeClass.total = (heap.classes.get index).total)
    (inUse : sizeClass.inUse = (heap.classes.get index).inUse + 1) :
    (heap.setClass index sizeClass).Counted rest (grant :: grants) := by
  refine ⟨fun other => ?_, fun other => ?_, ?_⟩
  · by_cases here : other = index
    · subst here
      have before := counted.total other
      rw [listed, List.length_cons] at before
      rw [get_setClass_self, total, inUse, before]
      lia
    · rw [get_setClass_of_ne _ _ here, others other here]
      exact counted.total other
  · rw [List.countP_cons]
    by_cases here : other = index
    · subst here
      rw [get_setClass_self, inUse, counted.inUse other]
      simp [served]
    · rw [get_setClass_of_ne _ _ here, counted.inUse other]
      simp [served, Ne.symm here]
  · rw [List.countP_cons_of_neg (by simp [Grant.isLarge, served])]
    exact counted.large

/-- A grant becomes a free cell. -/
theorem endSmall (counted : heap.Counted free (grant :: grants))
    (served : grant.layout.class? = some index) {place : Address} {sizeClass : SizeClass}
    (total : sizeClass.total = (heap.classes.get index).total)
    (inUse : sizeClass.inUse = (heap.classes.get index).inUse - 1) :
    (heap.setClass index sizeClass).Counted (⟨index, place⟩ :: free) grants := by
  refine ⟨fun other => ?_, fun other => ?_, ?_⟩
  · have before := counted.total other
    by_cases here : other = index
    · subst here
      have some := counted.inUse other
      rw [List.countP_cons_of_pos (by simp [served])] at some
      rw [get_setClass_self, total, inUse, placesOf_cons_self, List.length_cons]
      lia
    · rw [get_setClass_of_ne _ _ here, placesOf_cons_of_ne here]
      exact before
  · have before := counted.inUse other
    rw [List.countP_cons] at before
    by_cases here : other = index
    · subst here
      rw [get_setClass_self, inUse, before]
      simp [served]
    · rw [get_setClass_of_ne _ _ here, before]
      simp [served, Ne.symm here]
  · have before := counted.large
    rwa [List.countP_cons_of_neg (by simp [Grant.isLarge, served])] at before

theorem grantLarge (counted : heap.Counted free grants) (served : grant.layout.class? = none) :
    Counted { heap with largeCount := heap.largeCount + 1 } free (grant :: grants) where
  total := counted.total
  inUse index := by
    rw [List.countP_cons_of_neg (by simp [served])]
    exact counted.inUse index
  large := by
    rw [List.countP_cons_of_pos (by simp [Grant.isLarge, served]), ← counted.large]

theorem endLarge (counted : heap.Counted free (grant :: grants))
    (served : grant.layout.class? = none) :
    Counted { heap with largeCount := heap.largeCount - 1 } free grants where
  total := counted.total
  inUse index := by
    have before := counted.inUse index
    rwa [List.countP_cons_of_neg (by simp [served])] at before
  large := by
    have before := counted.large
    rw [List.countP_cons_of_pos (by simp [Grant.isLarge, served])] at before
    show heap.largeCount - 1 = _
    rw [before, Nat.add_sub_cancel]

end Counted

/-- A new heap has nothing to count. -/
theorem counted_setRegion {memory : Memory} {start size : Nat}
    (opened : setRegion ({ memory } : SlabHeap Pages) start size = .ok heap) :
    heap.Counted [] [] := by
  have counted : ({ memory } : SlabHeap Pages).Counted [] [] := by
    refine ⟨fun index => ?_, fun index => ?_, rfl⟩
    · show (Vector.replicate 8 ({} : SizeClass))[index].total =
        (Vector.replicate 8 ({} : SizeClass))[index].inUse + 0
      simp
    · show (Vector.replicate 8 ({} : SizeClass))[index].inUse = 0
      simp
  unfold setRegion at opened
  simp only [Bool.false_eq_true, if_false] at opened
  split at opened
  · cases opened
  · cases opened
    exact counted.congr rfl rfl

/-! ## Moves -/

variable [LawfulPageSource Pages]

namespace Move

variable {blocks blocks' : List Range} {block : Range}

/-- Pages go between the source and the heap. -/
theorem pages
    (changes : Memory.ChangesIn ((nodes heap.region ++ nodes after.region).map nodeRange)
      heap.memory after.memory)
    (classes : after.classes = heap.classes) (large : after.largeCount = heap.largeCount) :
    heap.Move after [] free grants free grants where
  whole _ listed := absurd listed List.not_mem_nil
  changes := by
    rw [List.append_nil]
    exact changes
  counts counted := counted.congr classes large

/-- Nothing is written but in one block. -/
theorem inBlock (whole : block.start % 16 = 0 ∧ block.size % 16 = 0)
    (changes : Memory.ChangesIn [block] heap.memory after.memory)
    (counts : heap.Counted free grants → after.Counted free' grants') :
    heap.Move after [block] free grants free' grants' where
  whole := List.forall_mem_singleton.mpr whole
  changes := changes.mono fun _ listed => List.mem_append_right _ listed
  counts := counts

/-- Blocks are handed out one after another while the holes stay. -/
theorem trans (move : heap.Move middle blocks free grants free' grants')
    (move' : middle.Move after blocks' free' grants' free'' grants'')
    (same : middle.region = after.region) :
    heap.Move after (blocks ++ blocks') free grants free'' grants'' where
  whole block listed := (List.mem_append.mp listed).elim (move.whole block) (move'.whole block)
  changes := by
    have first := move.changes
    rw [same] at first
    have second := move'.changes
    rw [same] at second
    refine (first.mono ?_).trans (second.mono ?_)
    · intro range listed
      simp only [List.mem_append, List.map_append] at listed ⊢
      tauto
    · intro range listed
      simp only [List.mem_append, List.map_append] at listed ⊢
      tauto
  counts := move'.counts ∘ move.counts

theorem perm (move : heap.Move after blocks free grants free' grants')
    (same : grants.Perm grants'') : heap.Move after blocks free grants'' free' grants' where
  whole := move.whole
  changes := move.changes
  counts counted := move.counts (counted.perm same.symm)

end Move

end SlabHeap
end ModuleHost
