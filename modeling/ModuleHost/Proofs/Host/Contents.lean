import ModuleHost.Proofs.Host.Staging
import ModuleHost.Proofs.Memory

namespace ModuleHost

/-!
# The first contents of sections

A section with pages of its own begins with its contents in the image; the rest of its
pages is zero.  Placing a section writes into the pages it has just been given and
nowhere else, so the sections placed before keep their contents.
-/

namespace Object

/-- The byte that a section begins with at an offset, zero behind its contents. -/
def initial (object : Object) (header : Section) (offset : Nat) : UInt8 :=
  (object.contents header).getD offset 0

theorem length_contents_le (object : Object) (header : Section) :
    (object.contents header).length ≤ header.size.toNat := by
  unfold contents claimed claimed?
  split
  · exact Nat.zero_le _
  · simp only
    split
    · simp only [Option.getD_some, Endian.slice, List.length_take]
      exact Nat.min_le_left _ _
    · exact Nat.zero_le _

theorem initial_of_le {object : Object} {header : Section} {offset : Nat}
    (beyond : header.size.toNat ≤ offset) : object.initial header offset = 0 := by
  rw [initial, List.getD_eq_getElem?_getD, List.getElem?_eq_none, Option.getD_none]
  exact Nat.le_trans (object.length_contents_le header) beyond

end Object

namespace Staging

/-- The section is given pages of its own. -/
def takesPages (header : Object.Section) : Bool :=
  header.isAllocated && header.size.toNat ≠ 0 && !sharesZeroPage header

/-- How a section is placed. -/
inductive Placed (object : Object) (before after : Memory) (header : Object.Section) :
    Placement → Prop
  | elsewhere (placement : Placement) (others : takesPages header = false)
      (own : placement.lease? = none) (same : after = before) :
      Placed object before after header placement
  | pages (lease : Lease) (takes : takesPages header = true)
      (size : lease.range.size = header.size.toNat)
      (rounds : pagesFor? header.size.toNat = some lease.pages.size)
      (filled : after = fillPages before lease.range.start header.size.toNat
        (object.contents header)) :
      Placed object before after header
        ⟨lease.range.start, lease.range.size, placementIn lease.window⟩

/-- A section that takes pages has them, and they hold its first contents. -/
structure Filled (object : Object) (memory : Memory) (header : Object.Section)
    (placement : Placement) : Prop where
  owns_eq : placement.ownsPages = takesPages header
  rounds : ∀ lease, placement.lease? = some lease →
    placement.size = header.size.toNat ∧ pagesFor? header.size.toNat = some lease.pages.size
  bytes : ∀ lease, placement.lease? = some lease → ∀ offset < lease.pages.size,
    memory.byteAt (placement.address + offset) = object.initial header offset

/-! ## Filling pages -/

theorem byteAt_fillPages (object : Object) (header : Object.Section) (memory : Memory)
    (start : Address) {rounded offset : Nat}
    (rounds : pagesFor? header.size.toNat = some rounded) (inside : offset < rounded) :
    (fillPages memory start header.size.toNat (object.contents header)).byteAt
      (start + offset) = object.initial header offset := by
  unfold fillPages
  rw [rounds, Option.getD_some, Object.initial]
  by_cases given : offset < (object.contents header).length
  · exact Memory.byteAt_write_self _ _ _ given
  · have cleared : start ≤ start + offset ∧ start + offset < start + rounded :=
      ⟨Nat.le_add_right _ _, Nat.add_lt_add_left inside _⟩
    rw [Memory.byteAt_write, Nat.add_sub_cancel_left, if_neg fun both => given both.2,
      Memory.byteAt_fill, if_pos cleared, List.getD_eq_getElem?_getD,
      List.getElem?_eq_none (Nat.le_of_not_lt given), Option.getD_none]

theorem changesIn_fillPages (object : Object) (header : Object.Section) (memory : Memory)
    (start : Address) {rounded : Nat}
    (rounds : pagesFor? header.size.toNat = some rounded) :
    Memory.ChangesIn [⟨start, rounded⟩] memory
      (fillPages memory start header.size.toNat (object.contents header)) := by
  have within : (object.contents header).length ≤ rounded :=
    Nat.le_trans (object.length_contents_le header) (pagesFor?_eq_some rounds).2.1
  unfold fillPages
  rw [rounds, Option.getD_some]
  exact (Memory.changesIn_fill memory start rounded 0).trans
    ((Memory.changesIn_write _ start _).widen within)

/-! ## Placing -/

variable {object : Object} {staging after : Staging} {header : Object.Section}
variable {placement : Placement}

theorem takesPages_eq (header : Object.Section) :
    takesPages header = (!header.isOmitted && !sharesZeroPage header) := by
  rw [takesPages, Object.Section.isOmitted, Bool.not_or, Bool.not_not, decide_not]

theorem place_eq_ok (placed : Staging.place object staging header = (after, .ok placement)) :
    Placed object staging.host.memory after.host.memory header placement := by
  cases place_cases placed with
  | omitted absent =>
      refine .elsewhere _ ?_ rfl rfl
      rw [takesPages_eq, absent]
      rfl
  | shared _ _ shares =>
      refine .elsewhere _ ?_ rfl rfl
      rw [takesPages_eq, shares, Bool.not_true, Bool.and_false]
  | given present _ own address state taken _ =>
      have takes : takesPages header = true := by
        rw [takesPages_eq, present, own]
        rfl
      rcases takePages_eq_ok taken with ⟨arena, allocated, rfl⟩
      exact .pages ⟨windowFor header, ⟨address, header.size.toNat⟩⟩ takes rfl
        (Arena.pagesFor?_of_allocate allocated) rfl

variable {origin : Host} {holders : List Handle} {loose : List Lease}

theorem Placed.filled {before after : Memory}
    (placed : Placed object before after header placement) :
    Filled object after header placement := by
  cases placed with
  | elsewhere _ others unowned _ =>
      have missing (lease : Lease) : placement.lease? ≠ some lease := by
        rw [unowned]
        nofun
      refine ⟨?_, fun lease own => absurd own (missing lease),
        fun lease own => absurd own (missing lease)⟩
      rw [others, Bool.eq_false_iff]
      intro owns
      rcases placement.ownsPages_iff.mp owns with ⟨lease, own⟩
      exact missing lease own
  | pages lease takes size rounds written =>
      have owned := lease?_placementIn lease.range.start lease.range.size lease.window
      refine ⟨?_, ?_, ?_⟩
      · rw [takes]
        exact (Placement.ownsPages_iff _).mpr ⟨_, owned⟩
      · intro lease' own
        rw [owned] at own
        rcases Option.some.inj own
        exact ⟨size, rounds⟩
      · intro lease' own offset inside
        rw [owned] at own
        rcases Option.some.inj own
        rw [written]
        exact byteAt_fillPages object header before _ rounds inside

theorem Filled.byteAt_eq {before after : Memory}
    (filled : Filled object before header placement)
    (same : ∀ lease, placement.lease? = some lease → ∀ address, lease.pages.Has address →
      after.byteAt address = before.byteAt address) : Filled object after header placement := by
  refine ⟨filled.owns_eq, filled.rounds, ?_⟩
  intro lease own offset inside
  rw [← filled.bytes lease own offset inside]
  apply same lease own
  rw [Range.Has, lease.pages_start, Placement.range_of_lease? own]
  exact ⟨Nat.le_add_right _ _, Nat.add_lt_add_left inside _⟩

/-- What is in pages apart from the new ones stays. -/
theorem Placed.kept {before after : Memory}
    (placed : Placed object before after header placement) {earlier : Object.Section}
    {other : Placement}
    (apart : ∀ lease lease', other.lease? = some lease → placement.lease? = some lease' →
      Range.Apart lease.pages lease'.pages)
    (filled : Filled object before earlier other) : Filled object after earlier other := by
  cases placed with
  | elsewhere _ _ _ same => exact same ▸ filled
  | pages lease' _ _ rounds written =>
      have changes := changesIn_fillPages object header before lease'.range.start rounds
      rw [lease'.mk_pages_size, ← written] at changes
      refine filled.byteAt_eq fun lease own address inside => ?_
      exact changes.byteAt_eq (apart lease lease' own (lease?_placementIn _ _ _)) inside

/-- Every section that has been placed holds its first contents. -/
theorem Sound.filled (sound : Sound origin holders staging loose) {placements : List Placement}
    (placed : Staging.placeAll object staging = (after, .ok placements)) :
    placements.length = object.sections.length ∧
      ∀ (index : Nat) header placement, object.sections[index]? = some header →
        placements[index]? = some placement →
          Filled object after.host.memory header placement := by
  have run := Stepwise.mapList_ok
    (motive := fun done staging =>
      Sound origin holders staging (loose ++ (done.map Prod.snd).filterMap Placement.lease?) ∧
        ∀ entry ∈ done, Filled object staging.host.memory entry.1 entry.2)
    (fun done state header after placement here step => by
      have next := here.1.place_next step
      have way := place_eq_ok step
      rw [List.map_append]
      refine ⟨next, ?_⟩
      intro entry listed
      rcases List.mem_append.mp listed with earlier | new
      · refine way.kept ?_ (here.2 entry earlier)
        intro lease lease' own own'
        rw [List.filterMap_append, ← List.append_assoc] at next
        refine next.apart (List.mem_append_right _ (List.mem_filterMap.mpr ⟨entry.2, ?_, own⟩))
          (List.mem_filterMap.mpr ⟨placement, List.mem_singleton_self _, own'⟩)
        exact List.mem_map_of_mem earlier
      · rw [List.mem_singleton.mp new]
        exact way.filled)
    ⟨by simpa using sound, fun _ listed => absurd listed List.not_mem_nil⟩ placed
  refine ⟨run.1, fun index header placement present found => ?_⟩
  refine run.2.2 (header, placement) (List.mem_of_getElem? (i := index) ?_)
  exact List.getElem?_zip_eq_some.mpr ⟨present, found⟩

end Staging

end ModuleHost
