import Mathlib.Data.List.Sort
import ModuleHost.Proofs.Registry.Balance

namespace ModuleHost

/-- A module without its reference count. -/
def LoadedModule.uncounted (module : LoadedModule) : LoadedModule :=
  { module with references := 0 }

namespace Registry

/-!
# Registries that differ in counts only

While a module is staged, references on its providers are taken and, after a failure,
given back.  Between such registries every handle stands for the same module up to its
reference count, and so every question that does not look at counts has the same
answer.  If moreover the same outside holders account for both, the counts agree too
and the entries are equal.
-/

/-- Every handle stands for the same module, up to its reference count. -/
def Alike (first second : Registry) : Prop :=
  ∀ handle, (first.get? handle).map LoadedModule.uncounted =
    (second.get? handle).map LoadedModule.uncounted

/-- The entries without their reference counts. -/
def uncounted (registry : Registry) : List (Handle × LoadedModule) :=
  registry.entries.map fun entry => (entry.1, entry.2.uncounted)

variable {first second third : Registry}

/-- Lists of entries sorted by slot are equal if they have the same members. -/
theorem sorted_ext {left right : List (Handle × LoadedModule)}
    (leftSorted : left.Pairwise fun entry entry' => entry.1.index < entry'.1.index)
    (rightSorted : right.Pairwise fun entry entry' => entry.1.index < entry'.1.index)
    (same : ∀ entry, entry ∈ left ↔ entry ∈ right) : left = right := by
  have irreflexive : Std.Irrefl fun entry entry' : Handle × LoadedModule =>
      entry.1.index < entry'.1.index := ⟨fun entry => Nat.lt_irrefl entry.1.index⟩
  have antisymmetric : Std.Antisymm fun entry entry' : Handle × LoadedModule =>
      entry.1.index < entry'.1.index :=
    ⟨fun _ _ less more => absurd (Nat.lt_trans less more) (Nat.lt_irrefl _)⟩
  exact leftSorted.eq_of_mem_iff rightSorted fun {entry} => same entry

/-- The entries are determined by what the handles stand for. -/
theorem entries_ext (same : ∀ handle, first.get? handle = second.get? handle) :
    first.entries = second.entries := by
  refine sorted_ext first.entries_sorted second.entries_sorted ?_
  rintro ⟨handle, module⟩
  rw [← get?_eq_some_iff, ← get?_eq_some_iff, same]

theorem mem_uncounted_iff (registry : Registry) (handle : Handle) (module : LoadedModule) :
    (handle, module) ∈ registry.uncounted ↔
      (registry.get? handle).map LoadedModule.uncounted = some module := by
  simp only [uncounted, List.mem_map, Prod.mk.injEq, Prod.exists, Option.map_eq_some_iff]
  constructor
  · rintro ⟨_, held, listed, rfl, rfl⟩
    exact ⟨held, (get?_eq_some_iff registry _ held).mpr listed, rfl⟩
  · rintro ⟨held, found, rfl⟩
    exact ⟨handle, held, (get?_eq_some_iff registry handle held).mp found, rfl, rfl⟩

namespace Alike

theorem refl (registry : Registry) : Alike registry registry :=
  fun _ => rfl

theorem trans (alike : Alike first second) (alike' : Alike second third) : Alike first third :=
  fun handle => (alike handle).trans (alike' handle)

/-- Replacing a module by one that differs in its count only. -/
theorem update {handle : Handle} {module new : LoadedModule}
    (found : first.get? handle = some module) (same : new.uncounted = module.uncounted) :
    Alike first (first.update handle new) := by
  intro other
  have changes := changes_update found new
  by_cases here : other = handle
  · subst here
    rw [changes.get?_new, found, Option.map_some, Option.map_some, same]
  · rw [changes.get?_other here]

theorem acquire {handle : Handle} {count : Nat}
    (taken : first.acquire handle = .ok (second, count)) : Alike first second := by
  rcases acquire_eq_ok taken with ⟨module, found, _, rfl⟩
  exact Alike.update found rfl

theorem uncounted_eq (alike : Alike first second) : first.uncounted = second.uncounted := by
  have sorted (registry : Registry) : registry.uncounted.Pairwise
      fun entry entry' => entry.1.index < entry'.1.index :=
    List.pairwise_map.mpr registry.entries_sorted
  refine sorted_ext (sorted first) (sorted second) ?_
  rintro ⟨handle, module⟩
  rw [mem_uncounted_iff, mem_uncounted_iff, alike handle]

/-- A view of the entries that ignores the counts. -/
theorem map_entries {β : Type} (alike : Alike first second) (view : Handle × LoadedModule → β)
    (blind : ∀ entry, view (entry.1, entry.2.uncounted) = view entry) :
    first.entries.map view = second.entries.map view := by
  have through (registry : Registry) :
      registry.entries.map view = registry.uncounted.map view := by
    simp only [uncounted, List.map_map, Function.comp_def, blind]
  rw [through first, through second, alike.uncounted_eq]

theorem bound_eq (alike : Alike first second) (handle : Handle) :
    first.bound handle = second.bound handle :=
  congrArg List.sum (alike.map_entries _ fun _ => rfl)

/-- Alike registries that the same outside holders account for have the same entries. -/
theorem entries_eq {holders : List Handle} (alike : Alike first second)
    (balanced : first.Balanced holders) (balanced' : second.Balanced holders) :
    first.entries = second.entries := by
  refine entries_ext fun handle => ?_
  have counts : first.counted handle = second.counted handle := by
    rw [balanced handle, balanced' handle, alike.bound_eq]
  have same := alike handle
  unfold counted at counts
  cases left : first.get? handle with
  | none =>
      cases right : second.get? handle with
      | none => rfl
      | some module => rw [left, right] at same; cases same
  | some module =>
      cases right : second.get? handle with
      | none => rw [left, right] at same; cases same
      | some module' =>
          rw [left, right, Option.elim_some, Option.elim_some] at counts
          rw [left, right, Option.map_some, Option.map_some, Option.some.injEq] at same
          have whole (held : LoadedModule) :
              held = { held.uncounted with references := held.references } := rfl
          rw [whole module, whole module', same, counts]

/-- The provider of a name does not depend on the counts. -/
theorem resolve?_eq (alike : Alike first second) (name : String) :
    first.resolve? name = second.resolve? name := by
  have blind (registry : Registry) : registry.resolve? name =
      (registry.uncounted.filter fun entry => entry.2.phase.isOpen).findSome? fun entry =>
        (entry.2.exported? name).map fun address => (entry.1, address) := by
    simp only [resolve?, uncounted, List.filter_map, List.findSome?_map]
    rfl
  rw [blind first, blind second, alike.uncounted_eq]

end Alike

/-! ## All but one module -/

/-- Every handle but one stands for the same module, up to its reference count. -/
def AlikeExcept (handle : Handle) (first second : Registry) : Prop :=
  ∀ other, other ≠ handle → (first.get? other).map LoadedModule.uncounted =
    (second.get? other).map LoadedModule.uncounted

theorem Alike.except (alike : Alike first second) (handle : Handle) :
    AlikeExcept handle first second :=
  fun other _ => alike other

theorem Changes.alikeExcept {handle : Handle} {old new : Option LoadedModule}
    (changes : Changes first second handle old new) : AlikeExcept handle first second :=
  fun _ different => congrArg _ (changes.get?_other different).symm

theorem AlikeExcept.trans {handle : Handle} (alike : AlikeExcept handle first second)
    (alike' : AlikeExcept handle second third) : AlikeExcept handle first third :=
  fun other different => (alike other different).trans (alike' other different)

/-- Registries that agree on the one handle as well are alike. -/
theorem AlikeExcept.alike {handle : Handle} (alike : AlikeExcept handle first second)
    (here : (first.get? handle).map LoadedModule.uncounted =
      (second.get? handle).map LoadedModule.uncounted) : Alike first second := by
  intro other
  by_cases same : other = handle
  · rw [same, here]
  · exact alike other same

/-- The phase of the module that a handle stands for. -/
def phase? (registry : Registry) (handle : Handle) : Option Phase :=
  (registry.get? handle).map (·.phase)

theorem phase?_of_uncounted {handle : Handle}
    (same : (first.get? handle).map LoadedModule.uncounted =
      (second.get? handle).map LoadedModule.uncounted) :
    second.phase? handle = first.phase? handle := by
  have through (registry : Registry) : registry.phase? handle =
      ((registry.get? handle).map LoadedModule.uncounted).map (·.phase) := by
    rw [phase?, Option.map_map]
    rfl
  rw [through first, through second, same]

/-! ## Closed modules -/

/-- If the module of a handle is closed, it has got no more references. -/
def ClosedLe (first second : Registry) (handle : Handle) : Prop :=
  ∀ phase, first.phase? handle = some phase → phase.isOpen = false →
    second.counted handle ≤ first.counted handle

namespace ClosedLe

variable {handle : Handle}

theorem of_get?_eq (same : second.get? handle = first.get? handle) :
    ClosedLe first second handle := by
  intro _ _ _
  rw [counted, counted, same]

theorem trans (closed : ClosedLe first second handle) (closed' : ClosedLe second third handle)
    (same : second.phase? handle = first.phase? handle) : ClosedLe first third handle := by
  intro phase here shut
  exact Nat.le_trans (closed' phase (same.trans here) shut) (closed phase here shut)

/-- A leaving module without references stays without. -/
theorem unused (closed : ClosedLe first second handle)
    (leaving : first.phase? handle = some .finalizing) (none_counted : first.counted handle = 0) :
    second.counted handle = 0 :=
  Nat.le_zero.mp (none_counted ▸ closed .finalizing leaving rfl)

/-- References are given on open modules only. -/
theorem acquire {taken : Handle} {count : Nat}
    (given : first.acquire taken = .ok (second, count)) : ClosedLe first second handle := by
  rcases acquire_eq_ok given with ⟨module, found, opened, rfl⟩
  have changes := changes_update found { module with references := module.references + 1 }
  by_cases same : handle = taken
  · intro phase here shut
    rw [same, phase?, found, Option.map_some, Option.some.injEq] at here
    rw [here, shut] at opened
    cases opened
  · exact of_get?_eq (changes.get?_other same)

/-- A module whose count does not rise. -/
theorem update {updated : Handle} {module new : LoadedModule}
    (found : first.get? updated = some module) (less : new.references ≤ module.references) :
    ClosedLe first (first.update updated new) handle := by
  have changes := changes_update found new
  by_cases same : handle = updated
  · intro _ _ _
    rw [same, counted_of_get? found, counted_of_get? changes.get?_new]
    exact less
  · exact of_get?_eq (changes.get?_other same)

end ClosedLe

end Registry
end ModuleHost
