import Mathlib.Order.Interval.Finset.Nat
import ModuleHost.Proofs.Arena.InPlace

namespace ModuleHost

/-!
# Runs of an arena

The arena is asked for pages and given ranges back, in any order and with any numbers.
A range that comes back need not be one that was handed out: it may be a part of one, or
span several.  So the leases of a run cannot be followed, but its answers can: the ledger
of a run keeps beside the arena what was granted and what was accepted.

The grants never share an address and are all that was handed out.  The released ranges are
the pages of the accepted ones, each once, and lie among those handed out.  No request is
refused that these facts do not rule out.
-/

namespace Range

/-- The addresses of ranges. -/
def addresses : List Range → Finset Address
  | [] => ∅
  | range :: rest => Finset.Ico range.start (range.start + range.size) ∪ addresses rest

theorem mem_addresses {ranges : List Range} {address : Address} :
    address ∈ addresses ranges ↔
      ∃ range ∈ ranges, range.start ≤ address ∧ address < range.start + range.size := by
  induction ranges with
  | nil => simp [addresses]
  | cons range rest others => simp [addresses, others]

theorem card_addresses {ranges : List Range} (apart : ranges.Pairwise Apart) :
    (addresses ranges).card = (ranges.map size).sum := by
  induction ranges with
  | nil => rfl
  | cons range rest others =>
      rcases List.pairwise_cons.mp apart with ⟨first, later⟩
      have disjoint : Disjoint (Finset.Ico range.start (range.start + range.size))
          (addresses rest) := by
        refine Finset.disjoint_left.mpr fun address here there => ?_
        rcases mem_addresses.mp there with ⟨other, listed, above, below⟩
        rcases Finset.mem_Ico.mp here with ⟨above', below'⟩
        have separate := first other listed
        unfold Apart at separate
        lia
      rw [addresses, Finset.card_union_of_disjoint disjoint, others later, Nat.card_Ico,
        Nat.add_sub_cancel_left, List.map_cons, List.sum_cons]

/-- Ranges without a common address take no more than the place they lie in. -/
theorem total_le_of_apart {ranges : List Range} (apart : ranges.Pairwise Apart)
    {start : Address} {count : Nat}
    (inside : ∀ range ∈ ranges, start ≤ range.start ∧ range.start + range.size ≤ start + count) :
    (ranges.map size).sum ≤ count := by
  have within : addresses ranges ⊆ Finset.Ico start (start + count) := by
    intro address present
    rcases mem_addresses.mp present with ⟨range, listed, above, below⟩
    have bounds := inside range listed
    exact Finset.mem_Ico.mpr
      ⟨Nat.le_trans bounds.1 above, Nat.lt_of_lt_of_le below bounds.2⟩
  calc (ranges.map size).sum
      = (addresses ranges).card := (card_addresses apart).symm
    _ ≤ (Finset.Ico start (start + count)).card := Finset.card_le_card within
    _ = count := by rw [Nat.card_Ico, Nat.add_sub_cancel_left]

end Range

namespace Window

theorem Sound.released_le {window : Window} (sound : window.Sound) :
    window.releasedBytes ≤ window.cursor := by
  have inside (range : Range) (listed : range ∈ window.released) : window.base ≤ range.start ∧
      range.start + range.size ≤ window.base + window.cursor :=
    (sound.released_inside range listed).2.2
  rw [sound.released_total]
  exact Range.total_le_of_apart sound.released_apart inside

end Window

namespace Arena

open Program (exec settle settle_eq_error)

/-! ## The ledger of a run -/

/-- What may be asked of an arena. -/
inductive Request
  | allocate (size : Nat) (kind : WindowKind)
  | free (range : Range)

/-- An arena with everything that it ever handed out and took back, the latest first. -/
structure Ledger where
  arena : Arena
  grants : List Lease := []
  freed : List Range := []

namespace Ledger

/-- The arena is what a request for pages left, and a grant is noted. -/
def noteGrant (ledger : Ledger) (size : Nat) (kind : WindowKind) :
    Except ArenaError Address × Arena → Ledger
  | (.ok address, after) =>
    { ledger with arena := after, grants := ⟨kind, ⟨address, size⟩⟩ :: ledger.grants }
  | (.error _, after) => { ledger with arena := after }

/-- The arena is what a release left, and a range that was accepted is noted. -/
def noteFreed (ledger : Ledger) (range : Range) : Except ArenaError Unit × Arena → Ledger
  | (.ok _, after) => { ledger with arena := after, freed := range :: ledger.freed }
  | (.error _, after) => { ledger with arena := after }

/-- Ask the arena where it is. -/
def perform (ledger : Ledger) : Request → Ledger
  | .allocate size kind =>
    ledger.noteGrant size kind (exec (InPlace.allocate size kind) ledger.arena)
  | .free range => ledger.noteFreed range (exec (InPlace.free range) ledger.arena)

def performAll (ledger : Ledger) (requests : List Request) : Ledger :=
  requests.foldl perform ledger

/-- The windows are sound and where they were asked to lie, and the grants are different
pages of theirs. -/
structure Sound (text data : WindowSpec) (ledger : Ledger) : Prop where
  arena : ledger.arena.Sound
  text_spec : ledger.arena.text.spec = text
  data_spec : ledger.arena.data.spec = data
  handed : ∀ lease ∈ ledger.grants, (ledger.arena.window lease.window).Handed lease.range.pages
  apart : ledger.grants.Pairwise fun first second =>
    Range.Apart first.range.pages second.range.pages

variable {text data : WindowSpec} {ledger : Ledger}

theorem Sound.opening {fresh : Arena} (made : ofSpecs text data = .ok fresh) :
    Sound text data { arena := fresh } := by
  rcases sound_ofSpecs made with ⟨rfl, sound⟩
  exact ⟨sound, rfl, rfl, fun _ listed => absurd listed List.not_mem_nil, List.Pairwise.nil⟩

theorem Sound.allocate (sound : ledger.Sound text data) {size : Nat} {kind : WindowKind}
    {address : Address} {after : Arena}
    (given : ledger.arena.allocate size kind = .ok (address, after)) :
    Sound text data
      { ledger with arena := after, grants := ⟨kind, ⟨address, size⟩⟩ :: ledger.grants } := by
  rcases allocate_eq_ok_iff.mp given with ⟨⟨_, fits⟩, start, window⟩
  have here := sound.arena.windows kind
  subst start window
  refine ⟨sound.arena.setWindow (here.advance (wholePages_mod size) fits) rfl, ?_, ?_, ?_, ?_⟩
  · cases kind <;> exact sound.text_spec
  · cases kind <;> exact sound.data_spec
  · intro lease listed
    rcases List.mem_cons.mp listed with rfl | earlier
    · rw [window_setWindow_self]
      refine ⟨?_, Nat.le_add_right _ _, Nat.le_of_eq (Nat.add_assoc _ _ _)⟩
      show ((ledger.arena.window kind).base + (ledger.arena.window kind).cursor) % pageSize = 0
      rw [Nat.add_mod, here.base_aligned, here.cursor_aligned]
      rfl
    · exact forall_setWindow
        (motive := fun other window => lease.window = other → window.Handed lease.range.pages)
        ledger.arena (fun same => (same ▸ sound.handed lease earlier).advance _)
        (fun _ _ same => same ▸ sound.handed lease earlier) lease.window rfl
  · exact List.pairwise_cons.mpr
      ⟨fun lease listed => sound.arena.behind (sound.handed lease listed) fits, sound.apart⟩

theorem Sound.free (sound : ledger.Sound text data) {range : Range} {after : Arena}
    (freed : ledger.arena.free range = .ok after) :
    Sound text data { ledger with arena := after, freed := range :: ledger.freed } := by
  rcases sound.arena.free_eq_ok_iff.mp freed with ⟨kind, handed, apart, rfl⟩
  have released := (sound.arena.windows kind).release (wholePages_mod range.size) handed apart
  refine ⟨sound.arena.setWindow released rfl, ?_, ?_, ?_, sound.apart⟩
  · cases kind <;> exact sound.text_spec
  · cases kind <;> exact sound.data_spec
  -- What was granted stays handed out when pages of it are released.
  · intro lease listed
    have earlier := sound.handed lease listed
    exact forall_setWindow
      (motive := fun other window => lease.window = other → window.Handed lease.range.pages)
      ledger.arena (fun same => ⟨(same ▸ earlier).aligned, (same ▸ earlier).above,
        (same ▸ earlier).below⟩) (fun _ _ same => same ▸ earlier) lease.window rfl

/-- The ledger is complete: what was handed out are its grants, and what came back are the
pages of the ranges that it took back, each once. -/
structure Complete (ledger : Ledger) : Prop where
  used : ∀ kind, (ledger.arena.window kind).cursor =
    ((ledger.grants.filter fun lease => lease.window = kind).map
      fun lease => lease.range.pages.size).sum
  released : (ledger.arena.text.released ++ ledger.arena.data.released).Perm
    (ledger.freed.map Range.pages)

theorem Complete.opening {fresh : Arena} (made : ofSpecs text data = .ok fresh) :
    Complete { arena := fresh } := by
  rcases sound_ofSpecs made with ⟨rfl, _⟩
  exact ⟨fun kind => by cases kind <;> rfl, .refl _⟩

theorem Complete.allocate (complete : ledger.Complete) {size : Nat} {kind : WindowKind}
    {address : Address} {after : Arena}
    (given : ledger.arena.allocate size kind = .ok (address, after)) :
    Complete
      { ledger with arena := after, grants := ⟨kind, ⟨address, size⟩⟩ :: ledger.grants } := by
  rcases allocate_eq_ok_iff.mp given with ⟨_, _, rfl⟩
  constructor
  · refine forall_setWindow (motive := fun other window => window.cursor =
      (((⟨kind, ⟨address, size⟩⟩ :: ledger.grants).filter fun lease => lease.window = other).map
        fun lease => lease.range.pages.size).sum) ledger.arena ?_ ?_
    · rw [List.filter_cons_of_pos (by simp), List.map_cons, List.sum_cons,
        ← complete.used kind]
      exact Nat.add_comm _ _
    · intro other different
      rw [List.filter_cons_of_neg (by simpa using Ne.symm different)]
      exact complete.used other
  · cases kind <;> exact complete.released

theorem Complete.free (complete : ledger.Complete) {range : Range} {after : Arena}
    (released : (after.text.released ++ after.data.released).Perm
      (range.pages :: (ledger.arena.text.released ++ ledger.arena.data.released)))
    (cursors : ∀ kind, (after.window kind).cursor = (ledger.arena.window kind).cursor) :
    Complete { ledger with arena := after, freed := range :: ledger.freed } where
  used kind := (cursors kind).trans (complete.used kind)
  released := released.trans (complete.released.cons _)

/-- A request is granted or accepted and noted, or it changes nothing. -/
theorem perform_cases (ledger : Ledger) (request : Request) :
    (∃ size kind address after, ledger.arena.allocate size kind = .ok (address, after) ∧
      ledger.perform request =
        { ledger with arena := after, grants := ⟨kind, ⟨address, size⟩⟩ :: ledger.grants }) ∨
    (∃ range after, ledger.arena.free range = .ok after ∧ ledger.perform request =
      { ledger with arena := after, freed := range :: ledger.freed }) ∨
    ledger.perform request = ledger := by
  cases request with
  | allocate size kind =>
      rw [perform, exec_allocate]
      cases given : ledger.arena.allocate size kind with
      | ok result => exact Or.inl ⟨size, kind, result.1, result.2, given, rfl⟩
      | error error => exact Or.inr (Or.inr rfl)
  | free range =>
      rw [perform, exec_free]
      cases freed : ledger.arena.free range with
      | ok after => exact Or.inr (Or.inl ⟨range, after, freed, rfl⟩)
      | error error => exact Or.inr (Or.inr rfl)

theorem Sound.perform (sound : ledger.Sound text data) (complete : ledger.Complete)
    (request : Request) :
    (ledger.perform request).Sound text data ∧ (ledger.perform request).Complete := by
  rcases ledger.perform_cases request with
    ⟨size, kind, address, after, given, same⟩ | ⟨range, after, freed, same⟩ | same
  · rw [same]
    exact ⟨sound.allocate given, complete.allocate given⟩
  · have adds := sound.arena.free_adds freed
    rw [same]
    exact ⟨sound.free freed, complete.free adds.1 adds.2⟩
  · rw [same]
    exact ⟨sound, complete⟩

theorem Sound.performAll (sound : ledger.Sound text data) (complete : ledger.Complete)
    (requests : List Request) :
    (ledger.performAll requests).Sound text data ∧ (ledger.performAll requests).Complete := by
  induction requests generalizing ledger with
  | nil => exact ⟨sound, complete⟩
  | cons request rest later =>
      have here := sound.perform complete request
      exact later here.1 here.2

/-- What the ledger of an arena over two given windows says, whatever was asked. -/
structure Orderly (text data : WindowSpec) (ledger : Ledger) : Prop where
  /-- The windows stay where they are. -/
  text_spec : ledger.arena.text.spec = text
  data_spec : ledger.arena.data.spec = data
  /-- Every grant is at least one whole page, and inside its window. -/
  granted : ∀ lease ∈ ledger.grants,
    lease.range.pages.start % pageSize = 0 ∧ pageSize ≤ lease.range.pages.size ∧
    lease.range.pages.size % pageSize = 0 ∧ lease.range.size ≤ lease.range.pages.size ∧
    (ledger.arena.window lease.window).base ≤ lease.range.pages.start ∧
    lease.range.pages.start + lease.range.pages.size ≤
      (ledger.arena.window lease.window).base + (ledger.arena.window lease.window).size
  granted_apart : ledger.grants.Pairwise fun first second =>
    Range.Apart first.range.pages second.range.pages
  /-- The pages of the grants are all that was handed out. -/
  used_granted : ∀ kind, (ledger.arena.window kind).cursor =
    ((ledger.grants.filter fun lease => lease.window = kind).map
      fun lease => lease.range.pages.size).sum
  /-- A request for pages is granted exactly when they are a word and are left. -/
  allocates : ∀ size kind, (∃ given, ledger.arena.allocate size kind = .ok given) ↔
    wholePages size < addressLimit ∧ wholePages size ≤ (ledger.arena.window kind).remaining
  cursor_le : ∀ kind, (ledger.arena.window kind).cursor ≤ (ledger.arena.window kind).size
  used_add_remaining : ∀ kind, (ledger.arena.window kind).cursor +
    (ledger.arena.window kind).remaining = (ledger.arena.window kind).size
  /-- What was released are whole pages that had been handed out. -/
  released_inside : ∀ kind, ∀ range ∈ (ledger.arena.window kind).released,
    range.start % pageSize = 0 ∧ range.size % pageSize = 0 ∧
    (ledger.arena.window kind).base ≤ range.start ∧ range.start + range.size ≤
      (ledger.arena.window kind).base + (ledger.arena.window kind).cursor
  /-- They are the pages of the ranges that were taken back, each once. -/
  released_freed : (ledger.arena.text.released ++ ledger.arena.data.released).Perm
    (ledger.freed.map Range.pages)
  released_apart : (ledger.arena.text.released ++ ledger.arena.data.released).Pairwise Range.Apart
  released_total : ∀ kind, (ledger.arena.window kind).releasedBytes =
    ((ledger.arena.window kind).released.map Range.size).sum
  released_le : ∀ kind,
    (ledger.arena.window kind).releasedBytes ≤ (ledger.arena.window kind).cursor
  /-- A range is taken back exactly when it begins a page, its pages were handed out by one
  window, and none of them was taken back before. -/
  frees : ∀ range : Range, (∃ after, ledger.arena.free range = .ok after) ↔
    range.start % pageSize = 0 ∧
    (∃ kind, (ledger.arena.window kind).base ≤ range.start ∧ range.start + wholePages range.size ≤
      (ledger.arena.window kind).base + (ledger.arena.window kind).cursor) ∧
    ∀ earlier ∈ ledger.freed, Range.Apart range.pages earlier.pages
  free_adds : ∀ range after, ledger.arena.free range = .ok after →
    (after.text.released ++ after.data.released).Perm
      (range.pages :: (ledger.arena.text.released ++ ledger.arena.data.released))
  /-- The requests that change the windows where they are give these answers. -/
  allocates_in_place : ∀ size kind, exec (InPlace.allocate size kind) ledger.arena =
    settle ledger.arena (ledger.arena.allocate size kind)
  frees_in_place : ∀ range, exec (InPlace.free range) ledger.arena =
    settle ledger.arena ((ledger.arena.free range).map fun after => ((), after))
  /-- When one of them is refused, both windows are left as they were. -/
  refused_allocate : ∀ size kind error after,
    exec (InPlace.allocate size kind) ledger.arena = (.error error, after) →
      after = ledger.arena
  refused_free : ∀ range error after,
    exec (InPlace.free range) ledger.arena = (.error error, after) → after = ledger.arena

theorem Sound.released_apart (sound : ledger.Sound text data) {kind other : WindowKind}
    (different : kind ≠ other) {pages range : Range}
    (handed : (ledger.arena.window kind).Handed pages)
    (listed : range ∈ (ledger.arena.window other).released) : Range.Apart pages range := by
  have there := sound.arena.windows other
  have inside := there.released_inside range listed
  exact sound.arena.apart_of_ne different handed.above (handed.within (sound.arena.windows kind))
    inside.2.2.1 (Nat.le_trans inside.2.2.2 (Nat.add_le_add_left there.cursor_le _))

theorem Sound.orderly (sound : ledger.Sound text data) (complete : ledger.Complete) :
    Orderly text data ledger where
  text_spec := sound.text_spec
  data_spec := sound.data_spec
  granted lease listed := by
    have handed := sound.handed lease listed
    exact ⟨handed.aligned, pageSize_le_wholePages _, wholePages_mod _, le_wholePages _,
      handed.above, handed.within (sound.arena.windows lease.window)⟩
  granted_apart := sound.apart
  used_granted := complete.used
  allocates size kind := by
    constructor
    · rintro ⟨⟨address, after⟩, given⟩
      exact (allocate_eq_ok_iff.mp given).1
    · intro ready
      exact ⟨_, allocate_eq_ok_iff.mpr ⟨ready, rfl, rfl⟩⟩
  cursor_le kind := (sound.arena.windows kind).cursor_le
  used_add_remaining kind := Nat.add_sub_cancel' (sound.arena.windows kind).cursor_le
  released_inside kind := (sound.arena.windows kind).released_inside
  released_freed := complete.released
  released_apart := by
    refine List.pairwise_append.mpr ⟨(sound.arena.windows .text).released_apart,
      (sound.arena.windows .data).released_apart, fun first here second there => ?_⟩
    have inside := (sound.arena.windows .text).released_inside first here
    have different : WindowKind.text ≠ .data := by decide
    exact sound.released_apart different
      ⟨inside.1, inside.2.2.1, inside.2.2.2⟩ there
  released_total kind := (sound.arena.windows kind).released_total
  released_le kind := (sound.arena.windows kind).released_le
  frees range := by
    -- The released ranges of both windows are what was taken back.
    have all : (∀ earlier ∈ ledger.freed, Range.Apart range.pages earlier.pages) ↔
        ∀ kind, ∀ released ∈ (ledger.arena.window kind).released,
          Range.Apart range.pages released := by
      rw [← List.forall_mem_map (P := Range.Apart range.pages)]
      simp only [← complete.released.mem_iff, List.mem_append]
      exact ⟨fun apart kind released listed => apart released (by cases kind <;> simp_all [window]),
        fun apart released listed => listed.elim (apart .text released) (apart .data released)⟩
    rw [all]
    constructor
    · rintro ⟨after, freed⟩
      rcases sound.arena.free_eq_ok_iff.mp freed with ⟨kind, handed, apart, _⟩
      refine ⟨handed.aligned, ⟨kind, handed.above, handed.below⟩, fun other released listed => ?_⟩
      by_cases same : kind = other
      · exact apart released (same ▸ listed)
      · exact sound.released_apart same handed listed
    · rintro ⟨aligned, ⟨kind, above, below⟩, apart⟩
      exact ⟨_, sound.arena.free_eq_ok_iff.mpr
        ⟨kind, ⟨aligned, above, below⟩, apart kind, rfl⟩⟩
  free_adds range after freed := (sound.arena.free_adds freed).1
  allocates_in_place := exec_allocate ledger.arena
  frees_in_place := exec_free ledger.arena
  refused_allocate size kind error after refused :=
    (settle_eq_error.mp ((exec_allocate ledger.arena size kind).symm.trans refused)).2
  refused_free range error after refused :=
    (settle_eq_error.mp ((exec_free ledger.arena range).symm.trans refused)).2

/-- Whatever is asked of an arena, with whatever numbers: its grants are pages of their own,
what came back are pages that it gave, and it refuses nothing without need. -/
theorem run_orderly {fresh : Arena} (made : ofSpecs text data = .ok fresh)
    (requests : List Request) : Orderly text data (performAll { arena := fresh } requests) := by
  rcases (Sound.opening made).performAll (.opening made) requests with ⟨sound, complete⟩
  exact sound.orderly complete

/-- A run near the top of the address space.  It releases the middle of its first grant, then
the end of that one together with the second, and the two releases are accepted; the third one
and the last request are refused. -/
theorem run_orderly_kernel_windows :
    ∃ fresh, ofSpecs ⟨0xFFFFFFFFA0000000, 0x8000000⟩ ⟨0xFFFFFFFFA8000000, 0x8000000⟩ = .ok fresh ∧
      Orderly ⟨0xFFFFFFFFA0000000, 0x8000000⟩ ⟨0xFFFFFFFFA8000000, 0x8000000⟩
        (performAll { arena := fresh } [.allocate 0x3000 .text, .allocate 1 .text,
          .free ⟨0xFFFFFFFFA0001000, 1⟩, .free ⟨0xFFFFFFFFA0002000, 0x2000⟩,
          .free ⟨0xFFFFFFFFA0002000, 0xFFFFFFFFFFFFFFFF⟩, .allocate 0xFFFFFFFFFFFFFFFF .data]) ∧
      (performAll { arena := fresh } [.allocate 0x3000 .text, .allocate 1 .text,
        .free ⟨0xFFFFFFFFA0001000, 1⟩, .free ⟨0xFFFFFFFFA0002000, 0x2000⟩,
        .free ⟨0xFFFFFFFFA0002000, 0xFFFFFFFFFFFFFFFF⟩,
        .allocate 0xFFFFFFFFFFFFFFFF .data]).freed =
          [⟨0xFFFFFFFFA0002000, 0x2000⟩, ⟨0xFFFFFFFFA0001000, 1⟩] ∧
      (performAll { arena := fresh } [.allocate 0x3000 .text, .allocate 1 .text,
        .free ⟨0xFFFFFFFFA0001000, 1⟩,
        .free ⟨0xFFFFFFFFA0002000, 0x2000⟩]).arena.text.releasedBytes = 0x3000 :=
  ⟨_, rfl, run_orderly rfl _, by decide +kernel, by decide +kernel⟩

end Ledger
end Arena
end ModuleHost
