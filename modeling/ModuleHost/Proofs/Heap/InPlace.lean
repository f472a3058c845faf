import ModuleHost.Proofs.Heap.Allocating
import ModuleHost.Proofs.Program

namespace ModuleHost
namespace SlabHeap

/-!
# The heap in place

The heap of a kernel is one object that is changed where it is.  Here are its operations as
programs, store by store.

A program does what its function says.  Where it fails it has stored nothing: all checks come in
front of the first store, with one exception.  A small request with an empty chain cuts a chunk
and then looks at the head of the chain; but there it finds the header that has just been written.
-/

open Heap Program

/-- A program that changes the heap where it is, and may fail. -/
abbrev InPlace (Pages : Type) [PageSource Pages] :=
  Program (SlabHeap Pages) HeapError

variable {Pages : Type} [PageSource Pages] {α β : Type}

namespace InPlace

def setRegion (start : Address) (size : Nat) : InPlace Pages Unit := do
  if (← get).initialized then throw .alreadyInitialized
  if size < pageSize ∨ start % blockAlign ≠ 0 ∨ addressLimit ≤ start + size then
    throw (.invalidRegion start size)
  modify fun heap =>
    let (region, memory) := PageSource.manage heap.memory start size
    { heap with region, memory }
  modify fun heap => { heap with start }
  modify fun heap => { heap with stop := start + size }
  modify fun heap => { heap with initialized := true }

def takePages (size align : Nat) : InPlace Pages Address := do
  let heap ← get
  match PageSource.allocate? heap.region heap.memory size align with
  | none => throw .outOfMemory
  | some (start, region, memory) =>
    set { heap with region, memory }
    return start

def push (index : Fin 8) (place : Address) : InPlace Pages Unit := do
  let chain := (← get).head index
  modify fun heap => heap.setHeader place ⟨Tag.smallFree.magic, index, chain⟩
  modify fun heap => heap.setClass index { heap.classes.get index with chain := place }

/-- Cut a chunk from its end to its start. -/
def refill (index : Fin 8) : InPlace Pages Unit := do
  match roundUp? (stride index * blocksPerChunk) pageSize with
  | none => throw .outOfMemory
  | some chunk =>
    let base ← takePages chunk pageSize
    let count := chunk / stride index
    let places := (List.range count).map fun position => base + position * stride index
    forM places.reverse (push index)
    modify fun heap =>
      let sizeClass := heap.classes.get index
      heap.setClass index { sizeClass with total := sizeClass.total + count }

def pop (index : Fin 8) : InPlace Pages Address := do
  let place := (← get).head index
  let header := (← get).headerAt place
  if header.tag? ≠ some .smallFree then
    throw (.badMagic (place + BlockHeader.size) header.magic)
  modify fun heap => heap.setClass index { heap.classes.get index with chain := header.link }
  modify fun heap => heap.setHeader place ⟨Tag.smallUsed.magic, header.detail, 0⟩
  modify fun heap =>
    let sizeClass := heap.classes.get index
    heap.setClass index { sizeClass with inUse := sizeClass.inUse + 1 }
  return place + BlockHeader.size

def allocateSmall (index : Fin 8) : InPlace Pages Address := do
  if (← get).head index = 0 then refill index
  pop index

def allocateLarge (layout : Layout) : InPlace Pages Address := do
  match largeTotal? layout with
  | none => throw .outOfMemory
  | some total =>
    let align := max layout.align pageSize
    if ¬total + align ≤ 1 <<< 63 then throw .outOfMemory
    let base ← takePages total align
    let payload := base + largeOffset layout
    modify fun heap => heap.setHeader (payload - BlockHeader.size)
      ⟨Tag.largeUsed.magic, largeOffset layout, total⟩
    modify fun heap => { heap with largeCount := heap.largeCount + 1 }
    return payload

def allocate (layout : Layout) : InPlace Pages Address := do
  if !(← get).initialized then throw .notInitialized
  if layout.align ≤ blockAlign then
    if let some index := classFor? layout.size then
      return ← allocateSmall index
  allocateLarge layout

def freeSmall (index : Fin 8) (place : Address) : InPlace Pages Unit := do
  push index place
  modify fun heap =>
    let sizeClass := heap.classes.get index
    heap.setClass index { sizeClass with inUse := sizeClass.inUse - 1 }

def freeLarge (address : Address) (header : BlockHeader) : InPlace Pages Unit := do
  let offset := header.detail
  let total := header.link
  let base := (address + addressLimit - offset) % addressLimit
  let heap ← get
  if offset < leastLargeOffset ∨ total % pageSize ≠ 0 ∨ base < heap.start ∨
      heap.stop < base + total then
    throw (.badMagic address header.magic)
  modify fun heap => heap.setHeader (address - BlockHeader.size)
    ⟨Tag.largeFree.magic, offset, total⟩
  modify fun heap =>
    let (region, memory) := PageSource.release heap.region heap.memory base total
    { heap with region, memory }
  modify fun heap => { heap with largeCount := heap.largeCount - 1 }

def free (address : Address) : InPlace Pages Unit := do
  let heap ← get
  if !heap.initialized then throw .notInitialized
  if address < heap.start + BlockHeader.size ∨ heap.stop ≤ address ∨
      address % blockAlign ≠ 0 then
    throw (.foreignPointer address)
  let place := address - BlockHeader.size
  let header := heap.headerAt place
  match header.tag? with
  | some .smallUsed =>
    if isClass : header.detail < 8 then freeSmall ⟨header.detail, isClass⟩ place
    else throw (.badMagic address header.magic)
  | some .largeUsed => freeLarge address header
  | some .smallFree | some .largeFree => throw (.doubleFree address)
  | none => throw (.badMagic address header.magic)

end InPlace

variable {heap after : SlabHeap Pages} {index : Fin 8}

/-! ## What programs do -/

theorem exec_setRegion (heap : SlabHeap Pages) (start : Address) (size : Nat) :
    exec (InPlace.setRegion start size) heap =
      settle heap ((heap.setRegion start size).map fun after => ((), after)) := by
  by_cases again : heap.initialized = true
  · simp [InPlace.setRegion, SlabHeap.setRegion, settle, Except.map, again]
  · by_cases bad : size < pageSize ∨ start % blockAlign ≠ 0 ∨ addressLimit ≤ start + size
    · simp [InPlace.setRegion, SlabHeap.setRegion, settle, Except.map, again, bad]
    · simp [InPlace.setRegion, SlabHeap.setRegion, settle, Except.map, again, bad]

theorem exec_takePages (heap : SlabHeap Pages) (size align : Nat) :
    exec (InPlace.takePages size align) heap = settle heap (heap.takePages size align) := by
  simp only [InPlace.takePages, SlabHeap.takePages, exec_bind, exec_get]
  cases PageSource.allocate? heap.region heap.memory size align with
  | none => rfl
  | some given => rfl

theorem exec_pushAll (heap : SlabHeap Pages) (index : Fin 8) (places : List Address) :
    exec (forM places.reverse (InPlace.push index)) heap =
      (.ok ⟨⟩, places.foldr (fun place heap => heap.pushFree index place) heap) := by
  induction places with
  | nil => rfl
  | cons place places ih =>
      rw [List.reverse_cons, List.forM_append, exec_bind, ih]
      rfl

theorem exec_refill (heap : SlabHeap Pages) (index : Fin 8) :
    exec (InPlace.refill index) heap =
      settle heap ((heap.addChunk index).map fun after => ((), after)) := by
  unfold InPlace.refill SlabHeap.addChunk
  cases roundUp? (stride index * blocksPerChunk) pageSize with
  | none => rfl
  | some chunk =>
      simp only [exec_bind, exec_takePages]
      cases heap.takePages chunk pageSize with
      | error error => rfl
      | ok taken =>
          simp only [settle, exec_pushAll]
          rfl

theorem setClass_setClass (heap : SlabHeap Pages) (index : Fin 8) (first second : SizeClass) :
    (heap.setClass index first).setClass index second = heap.setClass index second :=
  congrArg (fun classes => { heap with classes }) (Vector.set_set first index.isLt)

theorem exec_pop (heap : SlabHeap Pages) (index : Fin 8) :
    exec (InPlace.pop index) heap = settle heap (heap.popFree index) := by
  by_cases tagged : (heap.headerAt (heap.head index)).tag? = some .smallFree
  · have popped : heap.popFree index = .ok _ := if_pos tagged
    rw [popped]
    simp only [InPlace.pop, exec_bind, exec_get, ne_eq, tagged, not_true_eq_false, if_false]
    let header := heap.headerAt (heap.head index)
    let used := heap.setHeader (heap.head index) ⟨Tag.smallUsed.magic, header.detail, 0⟩
    let unlinked : SizeClass := { heap.classes.get index with chain := header.link }
    have counted : (used.setClass index unlinked).setClass index
        { (used.setClass index unlinked).classes.get index with
          inUse := ((used.setClass index unlinked).classes.get index).inUse + 1 } =
        used.setClass index { unlinked with inUse := unlinked.inUse + 1 } := by
      rw [get_setClass_self, setClass_setClass]
    exact congrArg (Prod.mk _) counted
  · have popped : heap.popFree index = .error _ := if_neg tagged
    rw [popped]
    simp only [InPlace.pop, exec_bind, exec_get, exec_throw, ne_eq, tagged, not_false_eq_true,
      if_true]
    rfl

/-- After a chunk has been cut there is a free cell in front. -/
theorem popFree_of_addChunk (added : heap.addChunk index = .ok after) :
    ∃ result, after.popFree index = .ok result := by
  rcases heap.addChunk_cases index with ⟨-, refused⟩ | ⟨base, size, lent, room, -, -, -, added'⟩
  · rw [refused] at added
    cases added
  · rw [added'] at added
    cases added
    have nonempty : cutPlaces index ⟨base, size⟩ ≠ [] := cutPlaces_ne_nil room
    rcases List.exists_cons_of_ne_nil nonempty with ⟨place, places, split⟩
    have first : (lent.cutInto index ⟨base, size⟩).head index = place := by
      simp only [cutInto, head_setClass_self, split]
      exact head_setClass_self _ _ _
    have tagged : ((lent.cutInto index ⟨base, size⟩).headerAt place).tag? = some .smallFree := by
      simp only [cutInto, split]
      exact tag?_write _ _ .smallFree _ _
    rw [← first] at tagged
    exact ⟨_, if_pos tagged⟩

theorem exec_allocateSmall (heap : SlabHeap Pages) (index : Fin 8) :
    exec (InPlace.allocateSmall index) heap = settle heap (heap.allocateSmall index) := by
  by_cases empty : heap.head index = 0
  · have small : heap.allocateSmall index = _ := if_pos empty
    rw [small]
    simp only [InPlace.allocateSmall, exec_bind, exec_get, empty, if_true, exec_refill, exec_pop]
    cases added : heap.addChunk index with
    | error error => rfl
    | ok filled =>
        rcases popFree_of_addChunk added with ⟨result, popped⟩
        dsimp only [Except.map, settle]
        rw [popped]
  · have small : heap.allocateSmall index = _ := if_neg empty
    simp only [InPlace.allocateSmall, exec_bind, exec_get, empty, if_false, exec_pop, small]

theorem exec_allocateLarge (heap : SlabHeap Pages) (layout : Layout) :
    exec (InPlace.allocateLarge layout) heap = settle heap (heap.allocateLarge layout) := by
  unfold InPlace.allocateLarge SlabHeap.allocateLarge
  cases largeTotal? layout with
  | none => rfl
  | some total =>
      dsimp only
      by_cases bounded : total + max layout.align pageSize ≤ 1 <<< 63
      · rw [if_neg (not_not_intro bounded), if_pos bounded, exec_bind, exec_takePages]
        cases heap.takePages total (max layout.align pageSize) with
        | error error => rfl
        | ok taken => rfl
      · rw [if_pos bounded, if_neg bounded]
        rfl

theorem exec_allocate (heap : SlabHeap Pages) (layout : Layout) :
    exec (InPlace.allocate layout) heap = settle heap (heap.allocate layout) := by
  unfold SlabHeap.allocate
  simp only [InPlace.allocate, exec_bind, exec_get]
  by_cases unready : (!heap.initialized) = true
  · rw [if_pos unready, if_pos unready]
    rfl
  · rw [if_neg unready, if_neg unready]
    split
    · cases classFor? layout.size with
      | none => exact exec_allocateLarge heap layout
      | some index => exact exec_allocateSmall heap index
    · exact exec_allocateLarge heap layout

theorem exec_freeLarge (heap : SlabHeap Pages) (address : Address) (header : BlockHeader) :
    exec (InPlace.freeLarge address header) heap =
      settle heap ((heap.freeLarge address header).map fun after => ((), after)) := by
  unfold InPlace.freeLarge SlabHeap.freeLarge
  simp only [exec_bind, exec_get]
  split
  · rfl
  · rfl

theorem exec_free (heap : SlabHeap Pages) (address : Address) :
    exec (InPlace.free address) heap =
      settle heap ((heap.free address).map fun after => ((), after)) := by
  unfold SlabHeap.free
  simp only [InPlace.free, exec_bind, exec_get]
  by_cases unready : (!heap.initialized) = true
  · rw [if_pos unready, if_pos unready]
    rfl
  · rw [if_neg unready, if_neg unready]
    by_cases foreign : address < heap.start + BlockHeader.size ∨ heap.stop ≤ address ∨
        address % blockAlign ≠ 0
    · rw [if_pos foreign, if_pos foreign]
      rfl
    · rw [if_neg foreign, if_neg foreign]
      cases tagged : (heap.headerAt (address - BlockHeader.size)).tag? with
      | none => rfl
      | some tag =>
          cases tag with
          | smallUsed =>
              dsimp only
              split
              · rfl
              · rfl
          | largeUsed => exact exec_freeLarge heap address _
          | smallFree => rfl
          | largeFree => rfl

/-! ## Failures -/

/-- A program fails if and only if its function does, and then the heap is as it was. -/
structure Atomic (heap : SlabHeap Pages) : Prop where
  setRegion : ∀ start size error after,
    exec (InPlace.setRegion start size) heap = (.error error, after) ↔
      heap.setRegion start size = .error error ∧ after = heap
  allocate : ∀ layout error after,
    exec (InPlace.allocate layout) heap = (.error error, after) ↔
      heap.allocate layout = .error error ∧ after = heap
  free : ∀ address error after,
    exec (InPlace.free address) heap = (.error error, after) ↔
      heap.free address = .error error ∧ after = heap

theorem map_eq_error {result : Except HeapError α} {f : α → β} {error : HeapError} :
    result.map f = .error error ↔ result = .error error := by
  cases result with
  | ok value => simp [Except.map]
  | error reason => simp [Except.map]

theorem atomic (heap : SlabHeap Pages) : heap.Atomic where
  setRegion start size error after := by
    rw [exec_setRegion, settle_eq_error, map_eq_error]
  allocate layout error after := by
    rw [exec_allocate, settle_eq_error]
  free address error after := by
    rw [exec_free, settle_eq_error, map_eq_error]

end SlabHeap
end ModuleHost
