import ModuleHost.Proofs.Heap.Header

namespace ModuleHost
namespace Heap

/-!
# What a source of pages promises

A source accounts for the blocks that it has handed out: they lie in its region and no
two of them have an address in common.  Its own notes are nodes of sixteen bytes, the
size of a hole and a link, each at the start of a hole and so apart from every block.
Holes come from cutting a block out of a hole and from joining what is taken back:
they start where a hole started before, where the block ends, or where the block that
came back started.
-/

/-- The addresses of the node of a hole that starts at a place. -/
def nodeRange (place : Address) : Range :=
  ⟨place, nodeSize⟩

/-- Memory after nodes were written at some of the places; sizes of holes are multiples
of eight. -/
inductive NodeWrites (places : List Address) (before : Memory) : Memory → Prop
  | none : NodeWrites places before before
  | node {after : Memory} {place size link : Nat} (earlier : NodeWrites places before after)
      (listed : place ∈ places) (whole : size % 8 = 0) :
      NodeWrites places before (after.write place (Endian.bytes 8 size ++ Endian.bytes 8 link))

/-- An allocator of blocks of whole pages that keeps its promises. -/
class LawfulPageSource (Pages : Type) [PageSource Pages] where
  /-- The source manages the region and has handed out these blocks of it. -/
  Accounts (pages : Pages) (region : Range) (blocks : List Range) : Prop
  /-- Where the holes start. -/
  nodes (pages : Pages) : List Address
  perm {pages : Pages} {region : Range} {blocks blocks' : List Range} (same : blocks.Perm blocks')
    (accounts : Accounts pages region blocks) : Accounts pages region blocks'
  within {pages : Pages} {region : Range} {blocks : List Range}
    (accounts : Accounts pages region blocks) {block : Range} (listed : block ∈ blocks) :
    Range.Within block region
  apart {pages : Pages} {region : Range} {blocks : List Range}
    (accounts : Accounts pages region blocks) : blocks.Pairwise Range.Apart
  node_within {pages : Pages} {region : Range} {blocks : List Range}
    (accounts : Accounts pages region blocks) {place : Address} (listed : place ∈ nodes pages) :
    Range.Within (nodeRange place) region
  node_apart {pages : Pages} {region : Range} {blocks : List Range}
    (accounts : Accounts pages region blocks) {place : Address} (listed : place ∈ nodes pages)
    {block : Range} (listed' : block ∈ blocks) : Range.Apart (nodeRange place) block
  used_eq {pages : Pages} {region : Range} {blocks : List Range}
    (accounts : Accounts pages region blocks) :
    PageSource.used pages = (blocks.map Range.size).sum
  manage {memory after : Memory} {start size : Nat} {pages : Pages} (aligned : start % 16 = 0)
    (large : pageSize ≤ size) (bounded : start + size < addressLimit)
    (managed : PageSource.manage memory start size = (pages, after)) :
    Accounts pages ⟨start, size⟩ [] ∧ nodes pages ⊆ [start] ∧ NodeWrites [start] memory after
  allocate {pages pages' : Pages} {memory after : Memory} {region : Range} {blocks : List Range}
    {size bits : Nat} {start : Address} (accounts : Accounts pages region blocks)
    (positive : 0 < size) (whole : size % pageSize = 0) (wide : 12 ≤ bits)
    (given : PageSource.allocate? pages memory size (2 ^ bits) = some (start, pages', after)) :
    start % 2 ^ bits = 0 ∧ Accounts pages' region (⟨start, size⟩ :: blocks) ∧
      nodes pages' ⊆ (start + size) :: nodes pages ∧
      NodeWrites (nodes pages ++ nodes pages') memory after
  release {pages pages' : Pages} {memory after : Memory} {region block : Range}
    {blocks : List Range} (accounts : Accounts pages region (block :: blocks))
    (released : PageSource.release pages memory block.start block.size = (pages', after)) :
    Accounts pages' region blocks ∧ nodes pages' ⊆ block.start :: nodes pages ∧
      NodeWrites (block.start :: nodes pages) memory after

namespace NodeWrites

variable {places : List Address} {before after : Memory}

/-- Nothing outside the nodes changes. -/
theorem changesIn (writes : NodeWrites places before after) :
    Memory.ChangesIn (places.map nodeRange) before after := by
  induction writes with
  | none => exact fun _ _ => rfl
  | node _ listed _ ih =>
      refine ih.trans (.mono (Memory.changesIn_write _ _ _) ?_)
      rw [List.length_append, Endian.length_bytes, Endian.length_bytes]
      rintro range listed'
      rw [List.mem_singleton.mp listed']
      exact List.mem_map_of_mem listed

/-- No aligned place looks used that did not before. -/
theorem usedWordAt (writes : NodeWrites places before after)
    (aligned : ∀ place ∈ places, place % 16 = 0) {place : Address} (aligned' : place % 16 = 0)
    (used : UsedWordAt after place) : UsedWordAt before place := by
  induction writes with
  | none => exact used
  | @node after written size link _ listed whole ih =>
      have different : place ≠ written := by
        rintro rfl
        exact not_usedWordAt_write_whole after place whole _ used
      exact ih (used.of_write (by simp [BlockHeader.size]) aligned' (aligned written listed)
        different)

end NodeWrites

end Heap
end ModuleHost
