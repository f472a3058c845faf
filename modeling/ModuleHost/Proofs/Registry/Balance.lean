import Mathlib.Data.List.Count
import ModuleHost.Proofs.Registry.Operations

namespace ModuleHost
namespace Registry

/-!
# Reference counts

Every reference on a module is held by somebody: by a registered module that lists it
among its dependencies, or by a holder outside the registry.  The outside holders are
given as a list of handles, one for each reference.  `Balanced` is the equation
between what the registry counts and what is held; a handle that stands for no module
counts as zero, so the equation also says that nobody holds a reference on it.

Each operation moves references between the two sides, and a run of returns succeeds
exactly because the equation says that what is returned was held.
-/

/-- How many references registered modules hold on a handle. -/
def bound (registry : Registry) (handle : Handle) : Nat :=
  (registry.entries.map fun entry => entry.2.dependencies.count handle).sum

/-- How many references the registry counts on a handle. -/
def counted (registry : Registry) (handle : Handle) : Nat :=
  (registry.get? handle).elim 0 (·.references)

/-- The references counted on each handle are those held by registered modules and by the
outside holders. -/
def Balanced (registry : Registry) (holders : List Handle) : Prop :=
  ∀ handle, registry.counted handle = registry.bound handle + holders.count handle

variable {registry after : Registry} {handle : Handle} {module : LoadedModule}
variable {holders : List Handle}

theorem Changes.bound {old new : Option LoadedModule}
    (changes : Changes registry after handle old new) (other : Handle) :
    after.bound other + old.elim 0 (·.dependencies.count other) =
      registry.bound other + new.elim 0 (·.dependencies.count other) := by
  have moved := changes.sum_entries fun entry => entry.2.dependencies.count other
  unfold Registry.bound
  cases old <;> cases new <;> simpa [entryFor] using moved

/-- A registered module with a dependency holds a reference on it. -/
theorem bound_pos {dependent : Handle × LoadedModule} (registered : dependent ∈ registry.entries)
    (depends : handle ∈ dependent.2.dependencies) : 0 < registry.bound handle :=
  List.sum_pos_iff_exists_pos_nat.mpr
    ⟨_, List.mem_map_of_mem registered, List.count_pos_iff.mpr depends⟩

theorem counted_of_get? (found : registry.get? handle = some module) :
    registry.counted handle = module.references := by
  rw [counted, found, Option.elim_some]

namespace Balanced

theorem perm {holders' : List Handle} (balanced : registry.Balanced holders)
    (same : holders.Perm holders') : registry.Balanced holders' := by
  intro handle
  rw [balanced handle, same.count_eq]

/-- A handle with a reference on it stands for a module. -/
theorem exists_of_held (balanced : registry.Balanced holders) (held : handle ∈ holders) :
    ∃ module, registry.get? handle = some module ∧ 0 < module.references := by
  have positive := List.count_pos_iff.mpr held
  have equation := balanced handle
  cases found : registry.get? handle with
  | none =>
      rw [counted, found, Option.elim_none] at equation
      omega
  | some module =>
      rw [counted_of_get? found] at equation
      exact ⟨module, rfl, by omega⟩

/-- Every dependency of a registered module stands for a module with a reference on it. -/
theorem exists_of_bound (balanced : registry.Balanced holders)
    {dependent : Handle × LoadedModule} (registered : dependent ∈ registry.entries)
    (depends : handle ∈ dependent.2.dependencies) :
    ∃ module, registry.get? handle = some module ∧ 0 < module.references := by
  have positive := bound_pos registered depends
  have equation := balanced handle
  cases found : registry.get? handle with
  | none =>
      rw [counted, found, Option.elim_none] at equation
      omega
  | some module =>
      rw [counted_of_get? found] at equation
      exact ⟨module, rfl, by omega⟩

/-- Replacing a module by one with the same dependencies moves its count alone. -/
theorem replace (balanced : registry.Balanced holders) {new : LoadedModule}
    {holders' : List Handle}
    (changes : Changes registry after handle (some module) (some new))
    (dependencies : new.dependencies = module.dependencies)
    (here : new.references + holders.count handle = module.references + holders'.count handle)
    (others : ∀ other, other ≠ handle → holders'.count other = holders.count other) :
    after.Balanced holders' := by
  intro other
  have equation := balanced other
  have moved := changes.bound other
  simp only [Option.elim_some, dependencies] at moved
  by_cases same : other = handle
  · subst same
    rw [counted_of_get? changes.get?_new]
    rw [counted_of_get? changes.get?_old] at equation
    omega
  · rw [counted, changes.get?_other same, others other same]
    rw [counted] at equation
    omega

/-- Taking a reference makes its holder one of the outside holders. -/
theorem acquire (balanced : registry.Balanced holders) {count : Nat}
    (taken : registry.acquire handle = .ok (after, count)) :
    after.Balanced (handle :: holders) := by
  rcases acquire_eq_ok taken with ⟨module, found, _, rfl⟩
  refine balanced.replace (changes_update found _) rfl ?_ fun other different => ?_
  · simp only [List.count_cons_self]
    omega
  · rw [List.count_cons_of_ne (Ne.symm different)]

/-- A reference that is held is returned, and its holder is an outside holder no more. -/
theorem release (balanced : registry.Balanced (handle :: holders)) :
    ∃ module references, registry.get? handle = some module ∧
      module.references = references + 1 ∧
      registry.release handle =
        .ok (registry.update handle { module with references }, .returned references) ∧
      (registry.update handle { module with references }).Balanced holders := by
  rcases balanced.exists_of_held List.mem_cons_self with ⟨module, found, positive⟩
  rcases Nat.exists_eq_add_one.mpr positive with ⟨references, counted⟩
  refine ⟨module, references, found, counted, release_of_held found counted, ?_⟩
  refine balanced.replace (changes_update found _) rfl ?_ fun other different => ?_
  · simp only [List.count_cons_self]
    omega
  · rw [List.count_cons_of_ne (Ne.symm different)]

/-- A module with one reference is put in: its load holds that reference, and what it
depends on was held for it outside. -/
theorem add (balanced : registry.Balanced (module.dependencies ++ holders))
    (used : module.references = 1)
    (changes : Changes registry after handle none (some module)) :
    after.Balanced (handle :: holders) := by
  intro other
  have equation := balanced other
  have moved := changes.bound other
  simp only [Option.elim_none, Option.elim_some, List.count_append] at moved equation
  by_cases same : other = handle
  · subst same
    rw [counted_of_get? changes.get?_new, used, List.count_cons_self]
    rw [counted, changes.get?_old, Option.elim_none] at equation
    omega
  · rw [counted, changes.get?_other same, List.count_cons_of_ne (Ne.symm same)]
    rw [counted] at equation
    omega

/-- A module without references is taken out: its dependencies are then held outside. -/
theorem remove (balanced : registry.Balanced holders)
    (removed : registry.remove handle = .ok (after, module)) :
    after.Balanced (module.dependencies ++ holders) := by
  rcases remove_eq_ok removed with ⟨found, unused, changes⟩
  intro other
  have equation := balanced other
  have moved := changes.bound other
  simp only [Option.elim_none, Option.elim_some, List.count_append] at moved ⊢
  by_cases same : other = handle
  · subst same
    rw [counted, changes.get?_new, Option.elim_none]
    rw [counted_of_get? found, unused] at equation
    omega
  · rw [counted, changes.get?_other same]
    rw [counted] at equation
    omega

theorem setPhase (balanced : registry.Balanced holders)
    (found : registry.get? handle = some module) (phase : Phase) :
    (registry.setPhase handle phase).Balanced holders := by
  rw [setPhase_eq_update found]
  exact balanced.replace (changes_update found _) rfl rfl fun _ _ => rfl

end Balanced

end Registry
end ModuleHost
