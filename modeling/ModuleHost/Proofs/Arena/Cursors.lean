import ModuleHost.Proofs.Memory

namespace ModuleHost
namespace Arena

/-!
# Addresses behind the cursors

The cursors divide the addresses of the windows: those below have been handed out at some
time, those above never.  As cursors only advance, an address is handed out once, and an
address that a lease covers was handed out when the lease began.
-/

/-- The address has been handed out. -/
def Spent (arena : Arena) (address : Address) : Prop :=
  ∃ kind, (arena.window kind).base ≤ address ∧
    address < (arena.window kind).base + (arena.window kind).cursor

/-- The address was handed out between two states of an arena. -/
def GivesOut (before after : Arena) (address : Address) : Prop :=
  ∃ kind, (before.window kind).base + (before.window kind).cursor ≤ address ∧
    address < (after.window kind).base + (after.window kind).cursor

/-- The lease began between two states of an arena. -/
structure Fresh (before after : Arena) (lease : Lease) : Prop where
  rounds : pagesFor? lease.range.size = some lease.pages.size
  given : ∀ address, lease.pages.Has address → GivesOut before after address

variable {first second third : Arena} {address : Address} {lease : Lease}

theorem Spent.onward (spent : first.Spent address) (grows : Grows first second) :
    second.Spent address := by
  rcases spent with ⟨kind, above, below⟩
  rw [← grows.base_eq kind] at above below
  exact ⟨kind, above, Nat.lt_of_lt_of_le below (Nat.add_le_add_left (grows.cursor_le kind) _)⟩

theorem GivesOut.onward (given : GivesOut first second address) (grows : Grows second third) :
    GivesOut first third address := by
  rcases given with ⟨kind, above, below⟩
  rw [← grows.base_eq kind] at below
  exact ⟨kind, above, Nat.lt_of_lt_of_le below (Nat.add_le_add_left (grows.cursor_le kind) _)⟩

theorem GivesOut.since (given : GivesOut second third address) (grows : Grows first second) :
    GivesOut first third address := by
  rcases given with ⟨kind, above, below⟩
  rw [grows.base_eq kind] at above
  exact ⟨kind, Nat.le_trans (Nat.add_le_add_left (grows.cursor_le kind) _) above, below⟩

theorem GivesOut.spent (given : GivesOut first second address) (grows : Grows first second) :
    second.Spent address := by
  rcases given with ⟨kind, above, below⟩
  rw [← grows.base_eq kind] at above
  exact ⟨kind, Nat.le_trans (Nat.le_add_right _ _) above, below⟩

theorem Fresh.onward (fresh : Fresh first second lease) (grows : Grows second third) :
    Fresh first third lease :=
  ⟨fresh.rounds, fun address inside => (fresh.given address inside).onward grows⟩

theorem Fresh.since (fresh : Fresh second third lease) (grows : Grows first second) :
    Fresh first third lease :=
  ⟨fresh.rounds, fun address inside => (fresh.given address inside).since grows⟩

/-! ## What the windows allow -/

theorem Leased.spent {leases : List Lease} (leased : first.Leased leases)
    (listed : lease ∈ leases) (inside : lease.pages.Has address) : first.Spent address := by
  have placed := leased.inside lease listed
  exact ⟨lease.window, Nat.le_trans placed.above inside.1,
    Nat.lt_of_lt_of_le inside.2 placed.below⟩

/-- An address lies in a window that hands it out. -/
theorem Leased.window_of_spent {leases : List Lease} (leased : first.Leased leases)
    (spent : first.Spent address) :
    ∃ kind, (⟨(first.window kind).base, (first.window kind).size⟩ : Range).Has address := by
  rcases spent with ⟨kind, above, below⟩
  have bounded := (leased.sound kind).cursor_le
  exact ⟨kind, above, Nat.lt_of_lt_of_le below (Nat.add_le_add_left bounded _)⟩

/-- No address is handed out twice. -/
theorem Spent.not_givesOut (spent : first.Spent address) (grows : Grows first second)
    (sound : second.Sound) : ¬GivesOut first second address := by
  rintro ⟨kind, above, below⟩
  rcases spent with ⟨other, above', below'⟩
  by_cases same : other = kind
  · subst same
    exact absurd (Nat.lt_of_lt_of_le below' above) (Nat.lt_irrefl _)
  · have apart : Range.Apart ⟨(second.window other).base, (second.window other).size⟩
        ⟨(second.window kind).base, (second.window kind).size⟩ :=
      sound.apart_of_ne same (Nat.le_refl _) (Nat.le_refl _) (Nat.le_refl _) (Nat.le_refl _)
    rw [← grows.base_eq] at above above' below'
    refine apart.not_has ⟨above', ?_⟩ ⟨Nat.le_trans (Nat.le_add_right _ _) above, ?_⟩
    · refine Nat.lt_of_lt_of_le below' (Nat.add_le_add_left ?_ _)
      exact Nat.le_trans (grows.cursor_le other) (sound.windows other).cursor_le
    · exact Nat.lt_of_lt_of_le below (Nat.add_le_add_left (sound.windows kind).cursor_le _)

/-! ## Allocating and freeing -/

theorem allocate_eq_ok {size : Nat} {kind : WindowKind}
    (given : first.allocate size kind = .ok (address, second)) :
    Grows first second ∧ Fresh first second ⟨kind, ⟨address, size⟩⟩ := by
  have rounds := pagesFor?_of_allocate given
  rcases allocate_eq_ok_iff.mp given with ⟨_, start, window⟩
  subst start window
  refine ⟨grows_setWindow first kind rfl rfl (Nat.le_add_right _ _) fun _ listed => listed,
    rounds, fun address inside => ?_⟩
  rw [Range.Has, Lease.pages_start] at inside
  refine ⟨kind, inside.1, ?_⟩
  rw [window_setWindow_self, ← Nat.add_assoc, ← eq_wholePages rounds]
  exact inside.2

theorem grows_free {range : Range} (freed : first.free range = .ok second) :
    Grows first second := by
  unfold free at freed
  split at freed
  · next kind rounded _ _ =>
      simp only at freed
      split at freed
      · cases freed
      · split at freed
        · cases freed
        · rw [← Except.ok.inj freed]
          exact grows_setWindow first kind rfl rfl (Nat.le_refl _)
            fun _ listed => List.mem_cons_of_mem _ listed
  · cases freed

end Arena
end ModuleHost
