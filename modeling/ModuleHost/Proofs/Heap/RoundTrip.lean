import ModuleHost.Proofs.Heap.Accounts

namespace ModuleHost
namespace Heap

/-!
# Giving back at once

A block that has just been handed out goes back, and then as many blocks are in use as before.
There is one exception.  The address of a block is where the client's bytes start; when the client
asked for none, with the alignment of a page or more, these bytes start where the block ends.  At
the end of the region this is no address that the heap takes back.
-/

namespace Tenancy

variable {Pages : Type} [PageSource Pages]

/-- As many blocks are in use as before. -/
structure SameUse (before after : SlabHeap Pages) : Prop where
  large : after.largeCount = before.largeCount
  inUse : ∀ index, (after.classes.get index).inUse = (before.classes.get index).inUse

theorem SameUse.of_counted {before after : SlabHeap Pages} {free free' : List Cell}
    {grants : List Grant} (counted : before.Counted free grants)
    (counted' : after.Counted free' grants) : SameUse before after where
  large := counted'.large.trans counted.large.symm
  inUse index := (counted'.inUse index).trans (counted.inUse index).symm

/-- What the client of a layout can do with the address that it got. -/
structure RoundTrip (heap : SlabHeap Pages) (region : Range) (layout : Layout) (address : Address)
    (after : SlabHeap Pages) : Prop where
  aligned : address % layout.align = 0
  above : region.start + BlockHeader.size ≤ address
  within : address + layout.size ≤ region.start + region.size
  restores : address < region.start + region.size →
    ∃ restored, after.free address = .ok restored ∧ SameUse heap restored
  stranded : address = region.start + region.size →
    layout.size = 0 ∧ pageSize ≤ layout.align ∧
      after.free address = .error (.foreignPointer address)

variable [LawfulPageSource Pages]
variable {heap after : SlabHeap Pages} {bounds : Range} {loans : List Range} {chunks : List Chunk}
variable {free : List Cell} {grants : List Grant} {grant : Grant} {layout : Layout}
variable {tenancy : Tenancy Pages} {memory : Memory} {start size : Nat} {address : Address}

/-- A block whose address is the end of the region is made of its offset alone. -/
theorem offset_eq_span (sound : heap.Sound bounds loans chunks free (grant :: grants))
    (last : grant.address = heap.stop) : grant.layout.offset = grant.layout.span := by
  have seated := sound.seated_head
  have within := sound.space.unit_within_bounds (extent_mem_units List.mem_cons_self)
  have above := seated.above
  have room := seated.room
  rw [sound.stop_eq] at last
  simp only [Range.Within, Grant.extent] at within
  lia

/-- Only blocks that were aligned to pages are made of their offset. -/
theorem pageSize_le_align (seated : grant.Seated chunks)
    (short : grant.layout.offset = grant.layout.span) : pageSize ≤ grant.layout.align := by
  cases served : grant.layout.class? with
  | some index =>
      rw [Layout.offset_small served, Layout.span_small served] at short
      have long := (stride_whole index).2
      simp only [BlockHeader.size] at short
      lia
  | none =>
      have paged : grant.layout.span % pageSize = 0 := (seated.paged served).2
      rw [← short, Layout.offset_large served] at paged
      rw [Layout.largeOffset_eq] at paged
      have wide : 12 ≤ max grant.layout.exponent 5 := by
        have divides : 2 ^ 12 ∣ 2 ^ max grant.layout.exponent 5 := Nat.dvd_of_mod_eq_zero paged
        exact (Nat.pow_dvd_pow_iff_le_right (by decide)).mp divides
      rw [Layout.align_eq]
      exact Nat.pow_le_pow_right (show 0 < 2 by decide) (show 12 ≤ _ by lia)

theorem Kept.roundTrip (kept : tenancy.Kept bounds chunks free)
    (given : tenancy.heap.allocate layout = .ok (address, after)) :
    RoundTrip tenancy.heap bounds layout address after := by
  rcases kept.sound.allocate layout with refused | ⟨address', after', free', given', allocation⟩
  · rw [refused] at given
    cases given
  · rw [given'] at given
    cases given
    have sound := allocation.sound
    have counted := allocation.move.counts kept.counted
    have reach := sound.address_bounds
    rw [sound.start_eq, sound.stop_eq] at reach
    refine ⟨sound.seated_head.aligned, reach.1, reach.2, fun below => ?_, fun last => ?_⟩
    · rw [← sound.stop_eq] at below
      rcases sound.free_grant below with ⟨restored, free'', freed, release⟩
      exact ⟨restored, freed, .of_counted kept.counted (release.move.counts counted)⟩
    · rw [← sound.stop_eq] at last
      refine ⟨?_, pageSize_le_align sound.seated_head (offset_eq_span sound last),
        sound.free_beyond (Nat.le_of_eq last.symm)⟩
      have within : address + layout.size ≤ bounds.start + bounds.size := reach.2
      rw [← sound.stop_eq] at within
      lia

/-- Whatever modest clients have done, a block that is handed out can be given back at once, unless
it is an empty one whose address is the end of the region. -/
theorem free_after_allocate (reachable : Reachable Modest memory start size tenancy)
    (given : tenancy.heap.allocate layout = .ok (address, after)) :
    RoundTrip tenancy.heap ⟨start, size⟩ layout address after := by
  rcases exists_cutting reachable with ⟨chunks, run⟩
  rcases exists_kept run with ⟨free, kept⟩
  exact kept.roundTrip given

/-- A hundred bytes are given back at once. -/
theorem free_after_allocate_vacant :
    ∃ after restored, vacant.heap.allocate ⟨100, 3, by decide⟩ = .ok (65552, after) ∧
      after.free 65552 = .ok restored ∧ SameUse vacant.heap restored := by
  have opened : Reachable Modest (.filled 0) 65536 65536 vacant := .opened rfl
  have given : ∃ after, vacant.heap.allocate ⟨100, 3, by decide⟩ = .ok (65552, after) := ⟨_, rfl⟩
  rcases given with ⟨after, given⟩
  rcases (free_after_allocate opened given).restores (by decide) with ⟨restored, freed, same⟩
  exact ⟨after, restored, given, freed, same⟩

/-- In a region of one page an empty block that is aligned to pages has the end of the region as its
address.  The heap hands it out and does not take it back. -/
theorem empty_block_stranded :
    let heap : SlabHeap Region :=
      { memory := replaceNodes (.filled 0) [] (Region.ofRange 0x100000000 4096).holes
        region := .ofRange 0x100000000 4096
        start := 0x100000000
        stop := 0x100001000
        initialized := true }
    Reachable Modest (.filled 0) 0x100000000 4096 ⟨heap, []⟩ ∧
      ∃ after, heap.allocate ⟨0, 12, by decide⟩ = .ok (0x100001000, after) ∧
        after.free 0x100001000 = .error (.foreignPointer 0x100001000) := by
  intro heap
  exact ⟨.opened rfl, _, rfl, rfl⟩

end Tenancy
end Heap
end ModuleHost
