import ModuleHost.Proofs.Arena.Cursors
import ModuleHost.Proofs.Arena.Runs

namespace ModuleHost
namespace Arena

/-!
# Series of allocations

While a module is staged nothing is given back, so the arena goes through a series of
allocations.  The pages of the series are apart from each other and from all pages handed out
before, and they are all that was handed out in its course.
-/

/-- The arena hands out pages for these leases, one after the other, and does nothing else. -/
inductive HandsOut (before : Arena) : List Lease → Arena → Prop
  | nothing : HandsOut before [] before
  | next {leases : List Lease} {middle after : Arena} {size : Nat} {kind : WindowKind}
      {address : Address} (earlier : HandsOut before leases middle)
      (given : middle.allocate size kind = .ok (address, after)) :
      HandsOut before (leases ++ [⟨kind, ⟨address, size⟩⟩]) after

variable {first second third before after : Arena} {leases : List Lease} {address : Address}

theorem givesOut_split (grows : Grows first second) (grows' : Grows second third) :
    GivesOut first third address ↔
      GivesOut first second address ∨ GivesOut second third address := by
  constructor
  · rintro ⟨kind, above, below⟩
    rcases Nat.lt_or_ge address ((second.window kind).base + (second.window kind).cursor) with
      earlier | later
    · exact Or.inl ⟨kind, above, earlier⟩
    · exact Or.inr ⟨kind, later, below⟩
  · rintro (earlier | later)
    · exact earlier.onward grows'
    · exact later.since grows

/-- An allocation hands out its pages and no other address. -/
theorem givesOut_allocate_iff {size : Nat} {kind : WindowKind} {start : Address}
    (given : before.allocate size kind = .ok (start, after)) :
    GivesOut before after address ↔ Range.Has (Range.pages ⟨start, size⟩) address := by
  rcases allocate_eq_ok_iff.mp given with ⟨_, rfl, rfl⟩
  constructor
  · rintro ⟨other, above, below⟩
    by_cases same : other = kind
    · subst same
      rw [window_setWindow_self, ← Nat.add_assoc] at below
      exact ⟨above, below⟩
    · rw [window_setWindow_of_ne _ _ same] at below
      exact absurd (Nat.lt_of_lt_of_le below above) (Nat.lt_irrefl _)
  · rintro ⟨above, below⟩
    refine ⟨kind, above, ?_⟩
    rw [window_setWindow_self, ← Nat.add_assoc]
    exact below

namespace HandsOut

theorem grows (handsOut : HandsOut before leases after) : Grows before after := by
  induction handsOut with
  | nothing => exact Grows.refl before
  | next _ given earlier => exact earlier.trans (allocate_eq_ok given).1

/-- What was handed out in the course of a series are the pages of its leases. -/
theorem givesOut_iff (handsOut : HandsOut before leases after) :
    GivesOut before after address ↔ ∃ lease ∈ leases, lease.range.pages.Has address := by
  induction handsOut with
  | nothing =>
      refine iff_of_false ?_ (by simp)
      rintro ⟨kind, above, below⟩
      exact absurd (Nat.lt_of_lt_of_le below above) (Nat.lt_irrefl _)
  | next earlier given before_iff =>
      rw [givesOut_split earlier.grows (allocate_eq_ok given).1, before_iff,
        givesOut_allocate_iff given]
      simp only [List.mem_append, List.mem_singleton, or_and_right, exists_or, exists_eq_left]

/-- The grants of a series are added to a ledger. -/
theorem ledger (handsOut : HandsOut before leases after) {text data : WindowSpec}
    {grants : List Lease} (sound : Ledger.Sound text data { arena := before, grants }) :
    Ledger.Sound text data { arena := after, grants := leases.reverse ++ grants } := by
  induction handsOut with
  | nothing => exact sound
  | next _ given earlier =>
      rw [List.reverse_append, List.reverse_singleton, List.append_assoc]
      exact earlier.allocate given

end HandsOut

/-- An arena with pages that it handed out makes a ledger. -/
theorem Sound.ledger (sound : before.Sound) {grants : List Lease}
    (handed : ∀ lease ∈ grants, (before.window lease.window).Handed lease.range.pages)
    (apart : grants.Pairwise fun one other => Range.Apart one.range.pages other.range.pages) :
    Ledger.Sound before.text.spec before.data.spec { arena := before, grants } :=
  ⟨sound, rfl, rfl, handed, apart⟩

namespace HandsOut

variable {lease : Lease}

theorem sound (handsOut : HandsOut before leases after) (sound : before.Sound) : after.Sound :=
  (handsOut.ledger (sound.ledger (by simp) .nil)).arena

/-- The pages of a series lie in their windows and begin at multiples of the page size. -/
theorem handed (handsOut : HandsOut before leases after) (sound : before.Sound)
    (listed : lease ∈ leases) : (after.window lease.window).Handed lease.range.pages := by
  have ledger := handsOut.ledger (sound.ledger (by simp) .nil)
  exact ledger.handed lease (List.mem_append_left _ (List.mem_reverse.mpr listed))

theorem apart (handsOut : HandsOut before leases after) (sound : before.Sound) :
    leases.Pairwise fun one other => Range.Apart one.range.pages other.range.pages := by
  have ledger := handsOut.ledger (sound.ledger (by simp) .nil)
  refine (List.pairwise_reverse.mp (List.pairwise_append.mp ledger.apart).1).imp ?_
  exact Range.Apart.symm

/-- The pages of a series are apart from pages that were handed out before. -/
theorem apart_of_handed (handsOut : HandsOut before leases after) (sound : before.Sound)
    {other : Lease} (listed : lease ∈ leases)
    (handed : (before.window other.window).Handed other.range.pages) :
    Range.Apart lease.range.pages other.range.pages := by
  have opened : Ledger.Sound before.text.spec before.data.spec
      { arena := before, grants := [other] } :=
    sound.ledger (by simpa using handed) (List.pairwise_singleton _ _)
  have ledger := handsOut.ledger opened
  exact (List.pairwise_append.mp ledger.apart).2.2 lease (List.mem_reverse.mpr listed) other
    (List.mem_singleton_self other)

end HandsOut
end Arena
end ModuleHost
