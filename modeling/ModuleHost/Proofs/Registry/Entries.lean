import Mathlib.Algebra.GroupWithZero.Nat
import Mathlib.Data.List.Basic
import ModuleHost.Registry

namespace ModuleHost
namespace Registry

/-!
# The registry as a list of entries

Slots, generations and the stack of vacant slots are how a registry is stored.  What
it holds is the list of its entries, handles with modules in the order of the slots.
Every operation on a registry changes at most one entry and leaves the others where
they are; `Changes` says which one, and each operation has one lemma of that form.

`Consistent` collects what the storage itself must satisfy: exactly the vacant slots
lie on the stack, the count is right, and no two modules have the same name.
-/

/-! ## Entries by slot -/

/-- The entry of a slot, none when the slot is vacant. -/
def entryAt (index : Nat) (slot : Slot) : List (Handle × LoadedModule) :=
  (slot.module.map fun module => ((⟨index, slot.generation⟩ : Handle), module)).toList

/-- An entry for a handle, none without a module. -/
def entryFor (handle : Handle) (module? : Option LoadedModule) : List (Handle × LoadedModule) :=
  (module?.map fun module => (handle, module)).toList

theorem mem_entries_iff (registry : Registry) (handle : Handle) (module : LoadedModule) :
    (handle, module) ∈ registry.entries ↔
      registry.slots[handle.index]? = some ⟨handle.generation, some module⟩ := by
  simp only [entries, List.mem_filterMap, Prod.exists, List.mem_zipIdx_iff_getElem?,
    Option.map_eq_some_iff, Prod.mk.injEq]
  constructor
  · rintro ⟨⟨generation, held⟩, index, found, _, occupied, rfl, rfl⟩
    rw [found]
    exact congrArg (fun held => some (Slot.mk generation held)) occupied
  · intro found
    exact ⟨_, handle.index, found, module, rfl, rfl, rfl⟩

/-- A handle stands for the module of its entry. -/
theorem get?_eq_some_iff (registry : Registry) (handle : Handle) (module : LoadedModule) :
    registry.get? handle = some module ↔ (handle, module) ∈ registry.entries := by
  rw [mem_entries_iff, get?]
  cases found : registry.slots[handle.index]? with
  | none => simp
  | some slot =>
      rcases slot with ⟨generation, held⟩
      simp only [Option.some.injEq, Slot.mk.injEq]
      by_cases same : generation = handle.generation <;> simp [same]

theorem get?_eq_none_iff (registry : Registry) (handle : Handle) :
    registry.get? handle = none ↔ ∀ entry ∈ registry.entries, entry.1 ≠ handle := by
  constructor
  · rintro missing ⟨other, module⟩ member rfl
    rw [(get?_eq_some_iff registry other module).mpr member] at missing
    cases missing
  · intro absent
    cases found : registry.get? handle with
    | none => rfl
    | some module =>
        exact absurd rfl (absent _ ((get?_eq_some_iff registry handle module).mp found))

/-- The entries are in the order of their slots. -/
theorem entries_sorted (registry : Registry) :
    registry.entries.Pairwise fun first second => first.1.index < second.1.index := by
  rw [entries, List.pairwise_filterMap]
  have increasing : registry.slots.zipIdx.Pairwise fun first second => first.2 < second.2 := by
    rw [← List.pairwise_map (f := Prod.snd) (R := (· < ·)), List.zipIdx_map_snd]
    exact List.pairwise_lt_range'
  refine increasing.imp ?_
  rintro ⟨slot, index⟩ ⟨slot', index'⟩ ordered entry found entry' found'
  simp only [Option.map_eq_some_iff] at found found'
  rcases found with ⟨_, _, rfl⟩
  rcases found' with ⟨_, _, rfl⟩
  exact ordered

/-- There is one entry for each occupied slot. -/
theorem length_entries (registry : Registry) :
    registry.entries.length = registry.slots.countP fun slot => slot.module.isSome := by
  rw [entries, List.length_filterMap_eq_countP]
  simp only [Option.isSome_map]
  have unnumbered : (registry.slots.zipIdx.map Prod.fst).countP (fun slot => slot.module.isSome) =
      registry.slots.zipIdx.countP fun numbered => numbered.1.module.isSome := List.countP_map
  rw [← unnumbered, List.zipIdx_map_fst]

/-- The slots of a registry except one keep their entries when that one is replaced. -/
theorem entries_setSlot (registry : Registry) (index : Nat) (old : Slot)
    (found : registry.slots[index]? = some old) :
    ∃ front back, (∀ entry ∈ front ++ back, entry.1.index ≠ index) ∧
      registry.entries = front ++ entryAt index old ++ back ∧
      ∀ new, (registry.setSlot index new).entries = front ++ entryAt index new ++ back := by
  have bounded : index < registry.slots.length := (List.getElem?_eq_some_iff.mp found).1
  have here : registry.slots[index] = old := (List.getElem?_eq_some_iff.mp found).2
  have pieces (slot : Slot) : registry.slots.set index slot =
      registry.slots.take index ++ slot :: registry.slots.drop (index + 1) :=
    List.set_eq_take_append_cons_drop.trans (if_pos bounded)
  have same : registry.slots = registry.slots.set index old := by
    rw [← here, List.set_getElem_self]
  have ahead : (registry.slots.take index).length = index :=
    List.length_take_of_le (Nat.le_of_lt bounded)
  have spread (slot : Slot) : (registry.setSlot index slot).entries =
      ((registry.slots.take index).zipIdx.flatMap fun entry => entryAt entry.2 entry.1) ++
        entryAt index slot ++
        ((registry.slots.drop (index + 1)).zipIdx (index + 1)).flatMap
          fun entry => entryAt entry.2 entry.1 := by
    simp only [entries, setSlot, pieces, List.filterMap_eq_flatMap_toList, List.zipIdx_append,
      List.zipIdx_cons, List.flatMap_append, List.flatMap_cons, ahead, Nat.zero_add,
      List.append_assoc]
    rfl
  refine ⟨_, _, ?_, ?_, spread⟩
  · -- With any module in the slot, its index lies strictly between those of its neighbours.
    have sorted := (registry.setSlot index ⟨0, some { name := "" }⟩).entries_sorted
    rw [spread, List.append_assoc] at sorted
    have between := List.pairwise_append.mp sorted
    intro entry member same
    rcases List.mem_append.mp member with first | second
    · exact Nat.lt_irrefl _ (same ▸ between.2.2 entry first _ List.mem_cons_self)
    · exact Nat.lt_irrefl _
        (same ▸ (List.pairwise_cons.mp between.2.1).1 entry second)
  · rw [← spread old]
    simp only [entries, setSlot, ← same]

/-- A name finds the handle of a module that has it. -/
theorem find?_eq_some {registry : Registry} {name : String} {handle : Handle}
    (found : registry.find? name = some handle) :
    ∃ module, registry.get? handle = some module ∧ module.name = name := by
  rcases Option.map_eq_some_iff.mp found with ⟨⟨found', module⟩, first, rfl⟩
  have named := List.find?_some first
  exact ⟨module, (get?_eq_some_iff registry found' module).mpr (List.mem_of_find?_eq_some first),
    of_decide_eq_true named⟩

theorem find?_eq_none_iff (registry : Registry) (name : String) :
    registry.find? name = none ↔ ∀ entry ∈ registry.entries, entry.2.name ≠ name := by
  simp [find?]

/-! ## One entry changes -/

/-- Two registries have the same entries in the same order, except that the entry of one
handle differs: it may be replaced, taken out or put in. -/
def Changes (before after : Registry) (handle : Handle) (old new : Option LoadedModule) : Prop :=
  ∃ front back, (∀ entry ∈ front ++ back, entry.1 ≠ handle) ∧
    before.entries = front ++ entryFor handle old ++ back ∧
    after.entries = front ++ entryFor handle new ++ back

namespace Changes

variable {before after : Registry} {handle : Handle} {old new : Option LoadedModule}

theorem symm (changes : Changes before after handle old new) :
    Changes after before handle new old := by
  rcases changes with ⟨front, back, others, first, second⟩
  exact ⟨front, back, others, second, first⟩

/-- What the handle stands for after the change. -/
theorem get?_new (changes : Changes before after handle old new) : after.get? handle = new := by
  rcases changes with ⟨front, back, others, _, entries⟩
  cases new with
  | none =>
      rw [get?_eq_none_iff, entries]
      simpa [entryFor] using others
  | some module =>
      rw [get?_eq_some_iff, entries]
      simp [entryFor]

/-- What the handle stood for before the change. -/
theorem get?_old (changes : Changes before after handle old new) : before.get? handle = old :=
  changes.symm.get?_new

theorem mem_other (changes : Changes before after handle old new) {other : Handle}
    (different : other ≠ handle) (module : LoadedModule) :
    (other, module) ∈ after.entries ↔ (other, module) ∈ before.entries := by
  rcases changes with ⟨front, back, _, first, second⟩
  have absent (held : Option LoadedModule) : (other, module) ∉ entryFor handle held := by
    cases held with
    | none => exact List.not_mem_nil
    | some held =>
        intro member
        exact different (congrArg Prod.fst (List.mem_singleton.mp member))
  rw [first, second]
  simp only [List.mem_append, absent, or_false]

/-- Every other handle stands for what it did. -/
theorem get?_other (changes : Changes before after handle old new) {other : Handle}
    (different : other ≠ handle) : after.get? other = before.get? other := by
  apply Option.ext
  intro module
  rw [get?_eq_some_iff, get?_eq_some_iff, changes.mem_other different]

/-- Any quantity summed over the entries changes by the entry's own part. -/
theorem sum_entries (changes : Changes before after handle old new)
    (part : Handle × LoadedModule → Nat) :
    (after.entries.map part).sum + ((entryFor handle old).map part).sum =
      (before.entries.map part).sum + ((entryFor handle new).map part).sum := by
  rcases changes with ⟨front, back, _, first, second⟩
  rw [first, second]
  simp only [List.map_append, List.sum_append]
  omega

/-- Two changes of one entry, with a module in between that shows its place. -/
theorem trans {registry : Registry} {module : LoadedModule}
    (changes : Changes before registry handle old (some module))
    (changes' : Changes registry after handle (some module) new) :
    Changes before after handle old new := by
  rcases changes with ⟨front, back, others, first, second⟩
  rcases changes' with ⟨front', back', others', second', third⟩
  simp only [entryFor, Option.map_some, Option.toList_some, List.append_assoc,
    List.singleton_append] at second second'
  have apart : ∀ entries back : List (Handle × LoadedModule), ∀ rest rest',
      (∀ entry ∈ entries ++ back, entry.1 ≠ handle) →
      (handle, module) :: rest = entries ++ (handle, module) :: rest' → entries = [] := by
    intro entries back rest rest' others split
    cases entries with
    | nil => rfl
    | cons entry entries =>
        have head := (List.cons.inj split).1
        exact absurd (congrArg Prod.fst head.symm) (others entry List.mem_cons_self)
  have same : front = front' ∧ back = back' := by
    rcases List.append_eq_append_iff.mp (second.symm.trans second') with
      ⟨between, longer, rest⟩ | ⟨between, longer, rest⟩
    · have nothing := apart between back' back back'
        (fun entry member => others' entry (by rw [longer]; simp at member ⊢; tauto)) rest
      subst nothing
      exact ⟨by simpa using longer.symm, (List.cons.inj rest).2⟩
    · have nothing := apart between back back' back
        (fun entry member => others entry (by rw [longer]; simp at member ⊢; tauto)) rest
      subst nothing
      exact ⟨by simpa using longer, (List.cons.inj rest).2.symm⟩
  rcases same with ⟨rfl, rfl⟩
  exact ⟨front, back, others, first, third⟩

/-- A replacement that keeps what a function of the module tells keeps the list of what
it tells of the entries. -/
theorem map_entries {β : Type} {module module' : LoadedModule} (view : Handle × LoadedModule → β)
    (changes : Changes before after handle (some module) (some module'))
    (same : view (handle, module) = view (handle, module')) :
    after.entries.map view = before.entries.map view := by
  rcases changes with ⟨front, back, _, first, second⟩
  rw [first, second]
  simp [entryFor, same]

end Changes

end Registry
end ModuleHost
