import Mathlib.Data.List.Nodup
import ModuleHost.Proofs.Registry.Entries

namespace ModuleHost
namespace Registry

/-!
# What the operations of the registry do to its entries

Taking and giving back a reference and setting a phase replace one entry by an update;
adding puts one in, removing takes one out.  `Consistent` is kept by each of them.
-/

/-- What the storage of a registry satisfies. -/
structure Consistent (registry : Registry) : Prop where
  vacant_nodup : registry.vacant.Nodup
  /-- Exactly the vacant slots are on the stack. -/
  vacant_iff : ∀ index, index ∈ registry.vacant ↔
    ∃ generation, registry.slots[index]? = some ⟨generation, none⟩
  count_eq : registry.count = registry.entries.length
  names_nodup : (registry.entries.map fun entry => entry.2.name).Nodup

theorem consistent_empty : Consistent {} where
  vacant_nodup := List.nodup_nil
  vacant_iff index := by simp
  count_eq := rfl
  names_nodup := List.nodup_nil

variable {registry after : Registry} {handle : Handle} {module : LoadedModule}

/-- A name finds the one module that has it. -/
theorem Consistent.find?_eq_some_iff (consistent : registry.Consistent) (name : String)
    (handle : Handle) : registry.find? name = some handle ↔
      ∃ module, registry.get? handle = some module ∧ module.name = name := by
  refine ⟨find?_eq_some, fun ⟨module, found, named⟩ => ?_⟩
  have listed := (get?_eq_some_iff registry handle module).mp found
  cases searched : registry.find? name with
  | none => exact absurd named ((find?_eq_none_iff registry name).mp searched _ listed)
  | some other =>
      rcases find?_eq_some searched with ⟨module', found', named'⟩
      have listed' := (get?_eq_some_iff registry other module').mp found'
      have same := List.inj_on_of_nodup_map consistent.names_nodup listed' listed
        (named'.trans named.symm)
      exact congrArg some (congrArg Prod.fst same)

/-! ## Replacing a module -/

theorem slot_of_get? (found : registry.get? handle = some module) :
    registry.slots[handle.index]? = some ⟨handle.generation, some module⟩ :=
  (mem_entries_iff registry handle module).mp ((get?_eq_some_iff registry handle module).mp found)

theorem update_eq_setSlot (found : registry.get? handle = some module) (new : LoadedModule) :
    registry.update handle new = registry.setSlot handle.index ⟨handle.generation, some new⟩ := by
  simp only [update, found]

theorem changes_update (found : registry.get? handle = some module) (new : LoadedModule) :
    Changes registry (registry.update handle new) handle (some module) (some new) := by
  rcases entries_setSlot registry handle.index _ (slot_of_get? found) with
    ⟨front, back, others, entries, replaced⟩
  refine ⟨front, back, fun entry member => ?_, entries, ?_⟩
  · exact fun same => others entry member (congrArg Handle.index same)
  · rw [update_eq_setSlot found]
    exact replaced _

/-- Replacing a module by one of the same name keeps the registry consistent. -/
theorem Consistent.update (consistent : registry.Consistent)
    (found : registry.get? handle = some module) {new : LoadedModule}
    (named : new.name = module.name) : (registry.update handle new).Consistent := by
  have changes := changes_update found new
  have names := changes.map_entries (fun entry => entry.2.name) named.symm
  have lengths := congrArg List.length names
  rw [List.length_map, List.length_map] at lengths
  have stack : (registry.update handle new).vacant = registry.vacant := by
    rw [update_eq_setSlot found, setSlot]
  have total : (registry.update handle new).count = registry.count := by
    rw [update_eq_setSlot found, setSlot]
  refine ⟨stack ▸ consistent.vacant_nodup, ?_, ?_, names ▸ consistent.names_nodup⟩
  · intro index
    rw [stack, consistent.vacant_iff, update_eq_setSlot found]
    have occupied := slot_of_get? found
    have bounded := (List.getElem?_eq_some_iff.mp occupied).1
    simp only [setSlot, List.getElem?_set]
    by_cases same : handle.index = index
    · subst same
      rw [if_pos rfl, if_pos bounded, occupied]
      constructor <;> (rintro ⟨_, vacant⟩; cases vacant)
    · simp only [if_neg same]
  · rw [total, consistent.count_eq, lengths]

/-! ## References and phases -/

/-- A reference is given exactly on a module that is open. -/
theorem acquire_eq_ok {count : Nat} (taken : registry.acquire handle = .ok (after, count)) :
    ∃ module, registry.get? handle = some module ∧ module.phase.isOpen = true ∧
      after = registry.update handle { module with references := module.references + 1 } := by
  unfold acquire at taken
  cases found : registry.get? handle with
  | none => rw [found] at taken; cases taken
  | some module =>
      rw [found] at taken
      cases opened : module.phase.isOpen with
      | false => simp [opened] at taken
      | true =>
          simp only [opened, Bool.not_true, Bool.false_eq_true, if_false, Except.ok.injEq,
            Prod.mk.injEq] at taken
          exact ⟨module, rfl, opened, taken.1.symm⟩

theorem acquire_of_open (found : registry.get? handle = some module)
    (opened : module.phase.isOpen = true) :
    registry.acquire handle =
      .ok (registry.update handle { module with references := module.references + 1 },
        module.references + 1) := by
  simp [acquire, found, opened]

/-- A reference that is held can be given back. -/
theorem release_of_held {references : Nat} (found : registry.get? handle = some module)
    (held : module.references = references + 1) :
    registry.release handle =
      .ok (registry.update handle { module with references }, .returned references) := by
  simp only [release, found, held]

theorem setPhase_eq_update (found : registry.get? handle = some module) (phase : Phase) :
    registry.setPhase handle phase = registry.update handle { module with phase } := by
  simp only [setPhase, found]

/-! ## Putting in and taking out -/

/-- A removed module had no references, and its entry is the only one to go. -/
theorem remove_eq_ok (removed : registry.remove handle = .ok (after, module)) :
    registry.get? handle = some module ∧ module.references = 0 ∧
      Changes registry after handle (some module) none := by
  unfold remove at removed
  cases found : registry.get? handle with
  | none => rw [found] at removed; cases removed
  | some held =>
      rw [found] at removed
      by_cases unused : held.references = 0
      · simp only [unused, ne_eq, not_true_eq_false, if_false, Except.ok.injEq,
          Prod.mk.injEq] at removed
        rcases removed with ⟨rfl, rfl⟩
        rcases entries_setSlot registry handle.index _ (slot_of_get? found) with
          ⟨front, back, others, entries, emptied⟩
        refine ⟨rfl, unused, front, back, fun entry member => ?_, entries, emptied _⟩
        exact fun same => others entry member (congrArg Handle.index same)
      · simp only [ne_eq, unused, not_false_eq_true, if_true] at removed
        cases removed

theorem remove_of_unused (found : registry.get? handle = some module)
    (unused : module.references = 0) : ∃ after, registry.remove handle = .ok (after, module) := by
  simp [remove, found, unused]

theorem remove_of_used (found : registry.get? handle = some module)
    (used : module.references ≠ 0) :
    registry.remove handle = .error (.inUse module.name module.references) := by
  simp [remove, found, used]

theorem Consistent.remove (consistent : registry.Consistent)
    (removed : registry.remove handle = .ok (after, module)) : after.Consistent := by
  rcases remove_eq_ok removed with ⟨found, unused, front, back, _, entries, entries'⟩
  have occupied := slot_of_get? found
  have bounded := (List.getElem?_eq_some_iff.mp occupied).1
  simp only [Registry.remove, found, unused, ne_eq, not_true_eq_false, if_false,
    Except.ok.injEq, Prod.mk.injEq, and_true] at removed
  subst removed
  have fresh : handle.index ∉ registry.vacant := by
    intro vacant
    rcases (consistent.vacant_iff handle.index).mp vacant with ⟨generation, empty⟩
    rw [occupied] at empty
    cases empty
  refine ⟨List.nodup_cons.mpr ⟨fresh, consistent.vacant_nodup⟩, ?_, ?_, ?_⟩
  · intro index
    simp only [setSlot, List.mem_cons, List.getElem?_set, consistent.vacant_iff]
    by_cases same : handle.index = index
    · subst same
      simp [bounded]
    · simp only [if_neg same, false_or, Ne.symm same]
  · have total := consistent.count_eq
    rw [entries] at total
    rw [entries']
    simp only [entryFor, Option.map_some, Option.map_none, Option.toList_some,
      Option.toList_none, List.length_append, List.length_cons, List.length_nil] at total ⊢
    omega
  · have names := consistent.names_nodup
    rw [entries] at names
    rw [entries']
    refine names.sublist (List.Sublist.map _ ?_)
    simp [entryFor]

/-- Putting in a module of a new name keeps count and names right, whatever slot it takes. -/
theorem Consistent.insert (consistent : registry.Consistent)
    (changes : Changes registry after handle none (some module))
    (unknown : registry.find? module.name = none)
    (counted : after.count = registry.count + 1) (stack : after.vacant.Nodup)
    (exact : ∀ index, index ∈ after.vacant ↔
      ∃ generation, after.slots[index]? = some ⟨generation, none⟩) : after.Consistent := by
  rcases changes with ⟨front, back, _, entries, entries'⟩
  simp only [entryFor, Option.map_some, Option.map_none, Option.toList_some, Option.toList_none,
    List.append_nil, List.append_assoc, List.cons_append, List.nil_append] at entries entries'
  refine ⟨stack, exact, ?_, ?_⟩
  · rw [counted, consistent.count_eq, entries, entries']
    simp only [List.length_append, List.length_cons]
    omega
  · have names := consistent.names_nodup
    rw [entries] at names
    rw [entries', List.map_append, List.map_cons]
    refine List.nodup_middle.mpr (List.nodup_cons.mpr ⟨?_, List.map_append ▸ names⟩)
    rw [← List.map_append, ← entries]
    intro member
    rcases List.mem_map.mp member with ⟨entry, listed, same⟩
    exact (find?_eq_none_iff registry module.name).mp unknown entry listed same

/-- Without a vacant slot a new one is made behind the others. -/
theorem changes_append (registry : Registry) (module : LoadedModule) (count : Nat) :
    Changes registry ⟨registry.slots ++ [⟨0, some module⟩], [], count⟩
      ⟨registry.slots.length, 0⟩ none (some module) := by
  refine ⟨registry.entries, [], fun entry member same => ?_, by simp [entryFor], ?_⟩
  · rw [List.append_nil] at member
    have inside := (mem_entries_iff registry entry.1 entry.2).mp member
    rw [same, List.getElem?_eq_none (Nat.le_refl _)] at inside
    cases inside
  · simp [entries, entryFor, List.zipIdx_append]

/-- A vacant slot is filled in its place. -/
theorem changes_fill {index : Nat} {generation : UInt32}
    (empty : registry.slots[index]? = some ⟨generation, none⟩) (module : LoadedModule)
    (vacant : List Nat) (count : Nat) :
    Changes registry { registry.setSlot index ⟨generation, some module⟩ with vacant, count }
      ⟨index, generation⟩ none (some module) := by
  rcases entries_setSlot registry index _ empty with ⟨front, back, others, entries, filled⟩
  refine ⟨front, back, fun entry member same => ?_, entries, filled _⟩
  exact others entry member (congrArg Handle.index same)

/-- A module is put in under a handle that stood for nothing, if its name is new. -/
theorem add_eq_ok (consistent : registry.Consistent)
    (added : registry.add module = .ok (after, handle)) :
    registry.find? module.name = none ∧ Changes registry after handle none (some module) ∧
      after.Consistent := by
  unfold add at added
  cases unknown : registry.find? module.name with
  | some other => simp [unknown] at added
  | none =>
      rw [unknown] at added
      simp only [Option.isSome_none, Bool.false_eq_true, if_false] at added
      refine ⟨rfl, ?_⟩
      cases stack : registry.vacant with
      | nil =>
          rw [stack] at added
          simp only [Except.ok.injEq, Prod.mk.injEq] at added
          rcases added with ⟨rfl, rfl⟩
          have changes := changes_append registry module (registry.count + 1)
          refine ⟨changes, consistent.insert changes unknown rfl List.nodup_nil fun index => ?_⟩
          have none_vacant := consistent.vacant_iff index
          rw [stack] at none_vacant
          rw [none_vacant, List.getElem?_append]
          by_cases inside : index < registry.slots.length
          · rw [if_pos inside]
          · rw [if_neg inside, List.getElem?_eq_none (Nat.le_of_not_lt inside)]
            constructor
            · rintro ⟨_, impossible⟩
              cases impossible
            · rintro ⟨_, occupied⟩
              cases List.mem_singleton.mp (List.mem_of_getElem? occupied)
      | cons index vacant =>
          rcases (consistent.vacant_iff index).mp (stack ▸ List.mem_cons_self) with
            ⟨generation, empty⟩
          rw [stack] at added
          simp only [empty, Option.map_some, Option.getD_some, Except.ok.injEq,
            Prod.mk.injEq] at added
          rcases added with ⟨rfl, rfl⟩
          have changes := changes_fill empty module vacant (registry.count + 1)
          have distinct := List.nodup_cons.mp (stack ▸ consistent.vacant_nodup)
          refine ⟨changes, consistent.insert changes unknown rfl distinct.2 fun other => ?_⟩
          have bounded := (List.getElem?_eq_some_iff.mp empty).1
          simp only [setSlot, List.getElem?_set]
          by_cases same : index = other
          · subst same
            rw [if_pos rfl, if_pos bounded]
            refine iff_of_false distinct.1 ?_
            rintro ⟨_, occupied⟩
            cases occupied
          · have listed := consistent.vacant_iff other
            rw [stack, List.mem_cons, or_iff_right (Ne.symm same)] at listed
            rw [if_neg same, listed]

end Registry
end ModuleHost
