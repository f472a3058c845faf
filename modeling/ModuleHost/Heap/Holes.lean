import ModuleHost.Endian
import ModuleHost.Heap.PageSource

namespace ModuleHost
namespace Heap

/-!
# Holes

The free space of a region is a list of holes in ascending order.  A request takes
the first hole that fits: it is placed at the hole's start if that is aligned, and
otherwise behind a gap large enough to be a hole of its own.  What is left behind
the request must likewise be nothing or a hole.  Freed space becomes a hole that is
joined with the holes it touches.  A gap between a hole and an end of the region
belongs to the hole if it is too small to be one itself.

A hole holds a node in its first bytes: its size and the address of the next hole.
A node that is no longer in the list keeps its size and loses its link.
-/

structure Hole where
  start : Address
  size : Nat
  deriving DecidableEq, Repr

/-- The size of a node, hence of the smallest hole. -/
def nodeSize : Nat := 16

namespace Hole

/-- The first address behind the hole. -/
def stop (hole : Hole) : Address :=
  hole.start + hole.size

/-- Where a request is placed in the hole. -/
def candidate? (hole : Hole) (align : Nat) : Option Address :=
  if hole.start % align = 0 then some hole.start else roundUp? (hole.start + nodeSize) align

/-- The gap that a request placed at `start` leaves in front. -/
def gapBefore (hole : Hole) (start : Address) : List Hole :=
  if start = hole.start then [] else [⟨hole.start, start - hole.start⟩]

/-- Take `size` bytes out of the hole: where they start, and the holes that stay. -/
def carve? (hole : Hole) (size align : Nat) : Option (Address × List Hole) := do
  let start ← hole.candidate? align
  let stop := start + size
  if stop = hole.stop then some (start, hole.gapBefore start)
  else if stop + nodeSize ≤ hole.stop then
    some (start, hole.gapBefore start ++ [⟨stop, hole.stop - stop⟩])
  else none

end Hole

/-- Take `size` bytes out of the first hole that has room. -/
def firstFit? (size align : Nat) : List Hole → Option (Address × List Hole)
  | [] => none
  | hole :: rest =>
    match hole.carve? size align with
    | some (start, pieces) => some (start, pieces ++ rest)
    | none => (firstFit? size align rest).map fun (start, rest) => (start, hole :: rest)

/-- Put a hole in its place in the order. -/
def insertHole (hole : Hole) : List Hole → List Hole
  | [] => [hole]
  | next :: rest =>
    if hole.start < next.start then hole :: next :: rest else next :: insertHole hole rest

/-- Join a hole with the one behind it if they touch. -/
def joinHole (hole : Hole) : List Hole → List Hole
  | [] => [hole]
  | next :: rest =>
    if hole.stop = next.start then ⟨hole.start, hole.size + next.size⟩ :: rest
    else hole :: next :: rest

/-- Join all holes that touch. -/
def coalesce (holes : List Hole) : List Hole :=
  holes.foldr joinHole []

/-- Give the first hole the bytes between the bottom of the region and it if they are
too few for a node. -/
def stretchFirst (bottom : Address) : List Hole → List Hole
  | [] => []
  | hole :: rest =>
    if hole.start < bottom + nodeSize then ⟨bottom, hole.stop - bottom⟩ :: rest
    else hole :: rest

/-- Give the last hole the bytes between it and the top of the region if they are too
few for a node. -/
def stretchLast (top : Address) : List Hole → List Hole
  | [] => []
  | [hole] =>
    if top < hole.stop + nodeSize then [⟨hole.start, max hole.stop top - hole.start⟩]
    else [hole]
  | hole :: next :: rest => hole :: stretchLast top (next :: rest)

/-- Eight bytes at the top are too few for a node, sixteen are a hole of their own. -/
example :
    stretchLast 64 [⟨0, 16⟩, ⟨32, 24⟩] = [⟨0, 16⟩, ⟨32, 32⟩] ∧
      stretchLast 64 [⟨0, 16⟩, ⟨32, 16⟩] = [⟨0, 16⟩, ⟨32, 16⟩] := by
  decide

/-- The bytes of the node of a hole that is followed by `next`. -/
def nodeBytes (hole : Hole) (next : Option Hole) : List UInt8 :=
  Endian.bytes 8 hole.size ++ Endian.bytes 8 ((next.map (·.start)).getD 0)

/-- Write the node of a hole that is followed by `next`. -/
def writeNode (memory : Memory) (hole : Hole) (next : Option Hole) : Memory :=
  memory.write hole.start (nodeBytes hole next)

/-- Every hole with the one that follows it. -/
def successions : List Hole → List (Hole × Option Hole)
  | [] => []
  | hole :: rest => (hole, rest.head?) :: successions rest

/-- Write what changes when a list of holes takes the place of another. -/
def replaceNodes (memory : Memory) (before after : List Hole) : Memory :=
  let old := successions before
  let new := successions after
  let unlinked := (old.filter fun node => !new.contains node).foldl
    (fun memory node => writeNode memory node.1 none) memory
  (new.filter fun node => !old.contains node).foldl
    (fun memory node => writeNode memory node.1 node.2) unlinked

/-- A region of memory whose blocks are handed out and taken back. -/
structure Region where
  start : Address := 0
  /-- The bytes under management. -/
  size : Nat := 0
  holes : List Hole := []
  /-- The bytes in blocks handed out. -/
  used : Nat := 0
  deriving DecidableEq, Repr

namespace Region

/-- A region that is one hole, its size a multiple of eight. -/
def ofRange (start : Address) (size : Nat) : Region :=
  let size := size / 8 * 8
  { start, size, holes := [⟨start, size⟩] }

/-- The first address behind the region. -/
def stop (region : Region) : Address :=
  region.start + region.size

def free (region : Region) : Nat :=
  region.size - region.used

/-- Hand out a block. -/
def allocate? (region : Region) (memory : Memory) (size align : Nat) :
    Option (Address × Region × Memory) :=
  (firstFit? size align region.holes).map fun (start, holes) =>
    (start, { region with holes, used := region.used + size },
      replaceNodes memory region.holes holes)

/-- Take a block back; the smallest block is a node. -/
def release (region : Region) (memory : Memory) (start : Address) (size : Nat) :
    Region × Memory :=
  let freed : Hole := ⟨start, max size nodeSize⟩
  let joined := coalesce (stretchFirst region.start (insertHole freed region.holes))
  let holes := stretchLast region.stop joined
  ({ region with holes, used := region.used - freed.size },
    replaceNodes (writeNode memory freed none) region.holes holes)

instance : PageSource Region where
  empty := {}
  manage memory start size :=
    let region := ofRange start size
    (region, replaceNodes memory [] region.holes)
  allocate? := allocate?
  release := release
  used := used
  free := free

end Region

end Heap
end ModuleHost
