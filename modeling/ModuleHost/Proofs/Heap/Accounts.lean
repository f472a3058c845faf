import ModuleHost.Proofs.Heap.InPlace
import ModuleHost.Proofs.Heap.Tenancy

namespace ModuleHost
namespace Heap

/-!
# The accounts of the heap

The counts of the heap are those of its blocks in every state that clients can bring about,
whatever addresses they try to give back.  The bytes in use are the chunks that were cut on the
way, which are never given back, and the blocks of the large grants.
-/

namespace Tenancy

section Runs

variable {Pages : Type} [PageSource Pages]

/-- The free blocks of a class: memory has the chain of their places, and each of them is cut from
a chunk of the class. -/
structure FreeList (tenancy : Tenancy Pages) (chunks : List Chunk) (index : Fin 8)
    (places : List Address) : Prop where
  threaded : Threaded tenancy.heap.memory index (tenancy.heap.head index) places
  nodup : places.Nodup
  housed : ∀ place ∈ places, Cell.Housed ⟨index, place⟩ chunks

/-- The counts are those of the blocks.  The place zero, which ends a chain, is not on one if the
region does not start there. -/
structure Accounted (tenancy : Tenancy Pages) (start : Address) (chunks : List Chunk) : Prop where
  freeLists : ∀ index, ∃ places, tenancy.FreeList chunks index places ∧
    (0 < start → 0 ∉ places) ∧ (tenancy.heap.classes.get index).total =
      (tenancy.heap.classes.get index).inUse + places.length
  inUse : ∀ index, (tenancy.heap.classes.get index).inUse =
    tenancy.grants.countP fun grant => grant.layout.class? = some index
  large : tenancy.heap.largeCount = tenancy.grants.countP Grant.isLarge
  used : tenancy.heap.used = (chunks.map fun chunk => chunk.range.size).sum +
    ((tenancy.grants.filter Grant.isLarge).map fun grant => grant.extent.size).sum

end Runs

variable {Pages : Type} [PageSource Pages] [LawfulPageSource Pages]

variable {tenancy : Tenancy Pages} {bounds : Range} {chunks : List Chunk} {free : List Cell}
variable {memory : Memory} {start size : Nat}

/-! ## Accounts -/

theorem Kept.freeList (kept : tenancy.Kept bounds chunks free) (index : Fin 8) :
    tenancy.FreeList chunks index (placesOf index free) where
  threaded := kept.sound.marks.chains index
  nodup := kept.sound.space.nodup_placesOf index
  housed _ listed := kept.sound.space.housed _ (mem_placesOf.mp listed)

/-- Free blocks lie in the region. -/
theorem Kept.start_le (kept : tenancy.Kept bounds chunks free) {index : Fin 8} {place : Address}
    (listed : place ∈ placesOf index free) : bounds.start ≤ place :=
  (kept.sound.space.unit_within_bounds (cell_mem_units (mem_placesOf.mp listed))).1

/-- The bytes that the source has handed out are those of chunks and of large grants. -/
theorem Kept.used_eq (kept : tenancy.Kept bounds chunks free) :
    tenancy.heap.used = (chunks.map fun chunk => chunk.range.size).sum +
      ((tenancy.grants.filter Grant.isLarge).map fun grant => grant.extent.size).sum := by
  have used := LawfulPageSource.used_eq kept.sound.space.accounts
  rw [List.nil_append, backing, List.map_append, List.sum_append] at used
  rw [SlabHeap.used, kept.sound.initialized, if_pos rfl, used, List.map_map, List.map_map]
  rfl

theorem Kept.accounted (kept : tenancy.Kept bounds chunks free) :
    tenancy.Accounted bounds.start chunks where
  freeLists index := by
    refine ⟨placesOf index free, kept.freeList index, fun positive listed => ?_,
      kept.counted.total index⟩
    exact absurd (kept.start_le listed) (Nat.not_le_of_gt positive)
  inUse := kept.counted.inUse
  large := kept.counted.large
  used := kept.used_eq

/-- Whatever heedless clients do, the counts are those of the blocks, and whatever state a heap is
in, an operation that fails changes nothing of it. -/
theorem accounted_and_atomic (run : Cutting Heedless memory start size tenancy chunks)
    (clean : ∀ place, place % 16 = 0 → start ≤ place → place + 4 ≤ start + size →
      ¬UsedWordAt memory place) :
    tenancy.Accounted start chunks ∧ ∀ heap : SlabHeap Pages, heap.Atomic := by
  rcases exists_kept_unforged run clean with ⟨free, kept, _⟩
  exact ⟨kept.accounted, SlabHeap.atomic⟩

/-- In a memory of zeros nothing looks used. -/
theorem not_usedWordAt_zeros (place : Address) : ¬UsedWordAt (.filled 0) place := by
  have zeros : (Memory.filled 0).read place 4 = [0, 0, 0, 0] := rfl
  rw [UsedWordAt, zeros]
  decide

/-- An address inside a block was refused, and the block went back; what stays in use are the chunk
that it was cut from and the pages of the other block. -/
theorem accounted_and_atomic_vacant :
    let tenancy := (((vacant.perform (.allocate ⟨100, 3, by decide⟩)).perform
      (.free 65568)).perform (.allocate ⟨5000, 4, by decide⟩)).perform (.free 65552)
    tenancy.heap.used = 4096 + 8192 ∧ ∃ chunks, chunks.map Chunk.range = [⟨65536, 4096⟩] ∧
      tenancy.Accounted 65536 chunks ∧ ∀ heap : SlabHeap Region, heap.Atomic := by
  have opened : Cutting Heedless (.filled 0) 65536 65536 vacant [] := .opened rfl
  have small := opened.step (show Heedless _ (.allocate ⟨100, 3, by decide⟩) from trivial)
  have refused := small.step (show Heedless _ (.free 65568) from trivial)
  have large := refused.step (show Heedless _ (.allocate ⟨5000, 4, by decide⟩) from trivial)
  have freed := large.step (show Heedless _ (.free 65552) from trivial)
  exact ⟨by decide +kernel, _, by decide +kernel,
    accounted_and_atomic freed fun place _ _ _ => not_usedWordAt_zeros place⟩

end Tenancy
end Heap
end ModuleHost
