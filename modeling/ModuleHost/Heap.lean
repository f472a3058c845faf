import ModuleHost.Heap.Block
import ModuleHost.Heap.Holes
import ModuleHost.Heap.Layout
import ModuleHost.Heap.PageSource
import ModuleHost.Notice
import ModuleHost.Text.Numeral

namespace ModuleHost

/-!
# The kernel heap

Requests up to 2048 bytes with ordinary alignment are served from eight size
classes.  A class keeps a chain of free blocks, threaded through the headers of the
blocks, and cuts a fresh chunk of pages into blocks when the chain is empty.  Every
other request takes whole pages.  The pages come from a source below the heap, which
for `Heap` is the list of holes of the region.

Freeing trusts nothing but the header in front of the address: the address must lie
in the region and be aligned, and the header must be that of a block in use.  An
error leaves the heap and its memory as they were.
-/

/-- Why the heap refused. -/
inductive HeapError
  | outOfMemory
  | notInitialized
  | alreadyInitialized
  | invalidRegion (start : Address) (size : Nat)
  | doubleFree (address : Address)
  | badMagic (address : Address) (magic : Nat)
  | foreignPointer (address : Address)
  deriving DecidableEq, Repr

namespace HeapError

open Text (hex)

def message : HeapError → String
  | outOfMemory => "out of memory"
  | notInitialized => "heap not initialized"
  | alreadyInitialized => "heap already initialized"
  | invalidRegion start size => s!"invalid heap region {hex start} (+{hex size})"
  | doubleFree address => s!"double free of {hex address}"
  | badMagic address magic => s!"bad block magic {hex magic} at {hex address}"
  | foreignPointer address => s!"pointer {hex address} was not allocated by this heap"

/-- The error means that memory has been damaged. -/
def isDamage : HeapError → Bool
  | doubleFree _ | badMagic _ _ | foreignPointer _ => true
  | _ => false

end HeapError

namespace Heap

/-- The object sizes of the classes. -/
def classSizes : Vector Nat 8 :=
  #v[16, 32, 64, 128, 256, 512, 1024, 2048]

/-- The alignment of every block. -/
def blockAlign : Nat := 16

/-- A chunk holds at least this many blocks. -/
def blocksPerChunk : Nat := 8

/-- The client's bytes of a large block start at least this far in: the node of a
hole must not reach the header, which outlives the block. -/
def leastLargeOffset : Nat := 32

/-- A size class: the first header of its chain of free blocks, zero when there is
none, and how many blocks it has and has handed out. -/
structure SizeClass where
  chain : Address := 0
  total : Nat := 0
  inUse : Nat := 0
  deriving DecidableEq, Repr

end Heap

/-- The heap with the memory that it manages, over a source of pages. -/
structure SlabHeap (Pages : Type) [Heap.PageSource Pages] where
  memory : Memory
  region : Pages := Heap.PageSource.empty
  classes : Vector Heap.SizeClass 8 := Vector.replicate 8 {}
  start : Address := 0
  stop : Address := 0
  /-- Large blocks in use. -/
  largeCount : Nat := 0
  initialized : Bool := false

/-- The heap of the kernel has its pages in a list of holes. -/
abbrev Heap := SlabHeap Heap.Region

namespace Heap

/-- The smallest class whose objects have the size. -/
def classFor? (size : Nat) : Option (Fin 8) :=
  (List.finRange 8).find? fun index => size ≤ classSizes[index]

/-- The distance between the headers of a class. -/
def stride (index : Fin 8) : Nat :=
  BlockHeader.size + classSizes[index]

/-- Where the client's bytes start in the backing memory of a large block. -/
def largeOffset (layout : Layout) : Nat :=
  max (max layout.align blockAlign) leastLargeOffset

/-- The size of the backing memory of a large block. -/
def largeTotal? (layout : Layout) : Option Nat :=
  if largeOffset layout < 1 <<< 32 then roundUp? (largeOffset layout + layout.size) pageSize
  else none

end Heap

namespace SlabHeap

open Heap

variable {Pages : Type} [PageSource Pages]

/-- Give the heap its region. -/
def setRegion (heap : SlabHeap Pages) (start : Address) (size : Nat) :
    Except HeapError (SlabHeap Pages) :=
  if heap.initialized then .error .alreadyInitialized
  else if size < pageSize ∨ start % blockAlign ≠ 0 ∨ addressLimit ≤ start + size then
    .error (.invalidRegion start size)
  else
    let (region, memory) := PageSource.manage heap.memory start size
    .ok { heap with
      memory
      region
      start
      stop := start + size
      initialized := true }

/-- The header at an address. -/
def headerAt (heap : SlabHeap Pages) (place : Address) : BlockHeader :=
  .decode (heap.memory.read place BlockHeader.size)

/-- Write a header. -/
def setHeader (heap : SlabHeap Pages) (place : Address) (header : BlockHeader) : SlabHeap Pages :=
  { heap with memory := heap.memory.write place header.encode }

def setClass (heap : SlabHeap Pages) (index : Fin 8) (sizeClass : SizeClass) : SlabHeap Pages :=
  { heap with classes := heap.classes.set index sizeClass }

/-- Make the place of a free block the first of its class's chain. -/
def pushFree (heap : SlabHeap Pages) (index : Fin 8) (place : Address) : SlabHeap Pages :=
  let sizeClass := heap.classes[index]
  (heap.setHeader place ⟨Tag.smallFree.magic, index, sizeClass.chain⟩).setClass index
    { sizeClass with chain := place }

/-- Take a block of whole pages from the region. -/
def takePages (heap : SlabHeap Pages) (size align : Nat) :
    Except HeapError (Address × SlabHeap Pages) :=
  match PageSource.allocate? heap.region heap.memory size align with
  | none => .error .outOfMemory
  | some (start, region, memory) => .ok (start, { heap with region, memory })

/-- Cut a fresh chunk into free blocks of a class, the lowest first in its chain. -/
def addChunk (heap : SlabHeap Pages) (index : Fin 8) : Except HeapError (SlabHeap Pages) :=
  match roundUp? (stride index * blocksPerChunk) pageSize with
  | none => .error .outOfMemory
  | some chunk =>
    match heap.takePages chunk pageSize with
    | .error error => .error error
    | .ok (base, heap) =>
      let count := chunk / stride index
      let places := (List.range count).map fun position => base + position * stride index
      let filled := places.foldr (fun place heap => heap.pushFree index place) heap
      let sizeClass := filled.classes[index]
      .ok (filled.setClass index { sizeClass with total := sizeClass.total + count })

/-- Hand out the first block of a class's chain. -/
def popFree (heap : SlabHeap Pages) (index : Fin 8) :
    Except HeapError (Address × SlabHeap Pages) :=
  let sizeClass := heap.classes[index]
  let place := sizeClass.chain
  let header := heap.headerAt place
  if header.tag? = some .smallFree then
    let used := heap.setHeader place ⟨Tag.smallUsed.magic, header.detail, 0⟩
    .ok (place + BlockHeader.size,
      used.setClass index
        { sizeClass with chain := header.link, inUse := sizeClass.inUse + 1 })
  else .error (.badMagic (place + BlockHeader.size) header.magic)

/-- Hand out a block of a class. -/
def allocateSmall (heap : SlabHeap Pages) (index : Fin 8) :
    Except HeapError (Address × SlabHeap Pages) :=
  if heap.classes[index].chain = 0 then
    match heap.addChunk index with
    | .error error => .error error
    | .ok heap => heap.popFree index
  else heap.popFree index

/-- Hand out whole pages. -/
def allocateLarge (heap : SlabHeap Pages) (layout : Layout) :
    Except HeapError (Address × SlabHeap Pages) :=
  match largeTotal? layout with
  | none => .error .outOfMemory
  | some total =>
    let align := max layout.align pageSize
    if total + align ≤ 1 <<< 63 then
      match heap.takePages total align with
      | .error error => .error error
      | .ok (base, heap) =>
        let offset := largeOffset layout
        let payload := base + offset
        let marked :=
          heap.setHeader (payload - BlockHeader.size) ⟨Tag.largeUsed.magic, offset, total⟩
        .ok (payload, { marked with largeCount := marked.largeCount + 1 })
    else .error .outOfMemory

/-- Hand out a block for a layout. -/
def allocate (heap : SlabHeap Pages) (layout : Layout) :
    Except HeapError (Address × SlabHeap Pages) :=
  if !heap.initialized then .error .notInitialized
  else if layout.align ≤ blockAlign then
    match classFor? layout.size with
    | some index => heap.allocateSmall index
    | none => heap.allocateLarge layout
  else heap.allocateLarge layout

/-- Take a small block back. -/
def freeSmall (heap : SlabHeap Pages) (index : Fin 8) (place : Address) : SlabHeap Pages :=
  let pushed := heap.pushFree index place
  let sizeClass := pushed.classes[index]
  pushed.setClass index { sizeClass with inUse := sizeClass.inUse - 1 }

/-- Take a large block back, if its header describes pages of the region. -/
def freeLarge (heap : SlabHeap Pages) (address : Address) (header : BlockHeader) :
    Except HeapError (SlabHeap Pages) :=
  let offset := header.detail
  let total := header.link
  let base := (address + addressLimit - offset) % addressLimit
  if offset < leastLargeOffset ∨ total % pageSize ≠ 0 ∨ base < heap.start ∨
      heap.stop < base + total then
    .error (.badMagic address header.magic)
  else
    let marked :=
      heap.setHeader (address - BlockHeader.size) ⟨Tag.largeFree.magic, offset, total⟩
    let (region, memory) := PageSource.release marked.region marked.memory base total
    .ok { marked with region, memory, largeCount := marked.largeCount - 1 }

/-- Take a block back. -/
def free (heap : SlabHeap Pages) (address : Address) : Except HeapError (SlabHeap Pages) :=
  if !heap.initialized then .error .notInitialized
  else if address < heap.start + BlockHeader.size ∨ heap.stop ≤ address ∨
      address % blockAlign ≠ 0 then
    .error (.foreignPointer address)
  else
    let place := address - BlockHeader.size
    let header := heap.headerAt place
    match header.tag? with
    | some .smallUsed =>
      if isClass : header.detail < 8 then .ok (heap.freeSmall ⟨header.detail, isClass⟩ place)
      else .error (.badMagic address header.magic)
    | some .largeUsed => heap.freeLarge address header
    | some .smallFree | some .largeFree => .error (.doubleFree address)
    | none => .error (.badMagic address header.magic)

/-- The size of the region as it was given. -/
def size (heap : SlabHeap Pages) : Nat :=
  heap.stop - heap.start

/-- The bytes handed out by the region, chunks of small blocks included. -/
def used (heap : SlabHeap Pages) : Nat :=
  if heap.initialized then PageSource.used heap.region else 0

/-- The bytes that the region has left. -/
def available (heap : SlabHeap Pages) : Nat :=
  if heap.initialized then PageSource.free heap.region else 0

end SlabHeap

namespace Heap

open Text (kilobytes)

/-- The usage report: the totals, then every class that has blocks. -/
def usageNotices (heap : Heap) : List Notice :=
  let totals := s!"total={kilobytes heap.size} KB, used={kilobytes heap.used} KB"
  let rest := s!"free={kilobytes heap.available} KB, large={heap.largeCount}"
  let classLines := (List.finRange 8).filterMap fun index =>
    let sizeClass := heap.classes[index]
    if sizeClass.total = 0 then none
    else
      let column := Text.padLeft ' ' 4 (toString classSizes[index])
      some ⟨.info, s!"[heap]   {column}B: {sizeClass.inUse}/{sizeClass.total} in use"⟩
  ⟨.info, s!"[heap] Stats: {totals}, {rest}"⟩ :: classLines

end Heap

end ModuleHost
