import ModuleHost.Proofs.Registry.Operations

namespace ModuleHost
namespace Registry

/-!
# Runs of a registry

Whatever is asked of a registry, and however often a slot is used again, it behaves as a
finite map from handles to modules with distinct names.  A handle that was given out
stands for its module until that module is taken out, and for nothing from then on.

The generation of a slot tells how many modules have been taken out of it.  It is a machine
word, so a handle would come back after `2 ^ 32` removals from one slot; runs with fewer
are considered.
-/

/-- What may be asked of a registry. -/
inductive Request
  | add (module : LoadedModule)
  | remove (handle : Handle)
  | acquire (handle : Handle)
  | release (handle : Handle)
  | setPhase (handle : Handle) (phase : Phase)

/-- The registry after a request that is granted. -/
def attempt (registry : Registry) : Request → Except ModuleError Registry
  | .add module => (registry.add module).map Prod.fst
  | .remove handle => (registry.remove handle).map Prod.fst
  | .acquire handle => (registry.acquire handle).map Prod.fst
  | .release handle => (registry.release handle).map Prod.fst
  | .setPhase handle phase => .ok (registry.setPhase handle phase)

/-- A request that is refused changes nothing. -/
def perform (registry : Registry) (request : Request) : Registry :=
  match registry.attempt request with
  | .ok after => after
  | .error _ => registry

def performAll (registry : Registry) (requests : List Request) : Registry :=
  requests.foldl perform registry

/-- The request takes a module out of the slot with an index. -/
def vacates (registry : Registry) (index : Nat) : Request → Bool
  | .remove handle => handle.index = index && (registry.remove handle).toOption.isSome
  | _ => false

/-- How many modules a run takes out of the slot with an index. -/
def removals (index : Nat) (registry : Registry) : List Request → Nat
  | [] => 0
  | request :: rest =>
    (if registry.vacates index request then 1 else 0) +
      removals index (registry.perform request) rest

/-- What becomes of the module of a handle in a request.  Requests for other handles, and
new modules, do not concern it. -/
def follow (handle : Handle) (module? : Option LoadedModule) : Request → Option LoadedModule
  | .add _ => module?
  | .remove other =>
    if other = handle then module?.filter fun module => module.references ≠ 0 else module?
  | .acquire other =>
    if other = handle then
      module?.map fun module =>
        if module.phase.isOpen then { module with references := module.references + 1 }
        else module
    else module?
  | .release other =>
    if other = handle then
      module?.map fun module => { module with references := module.references - 1 }
    else module?
  | .setPhase other phase =>
    if other = handle then module?.map fun module => { module with phase } else module?

/-- A handle that stands for nothing is not revived. -/
theorem foldl_follow_none (handle : Handle) (requests : List Request) :
    requests.foldl (follow handle) none = none := by
  induction requests with
  | nil => rfl
  | cons request rest ih =>
      have step : follow handle none request = none := by
        cases request <;> simp [follow]
      rw [List.foldl_cons, step, ih]

variable {registry after : Registry} {handle : Handle} {module : LoadedModule}

/-! ## What a request does -/

/-- A request is refused, replaces the module of one handle, puts a module in or takes one
out. -/
inductive Served (registry : Registry) : Request → Registry → Prop
  | kept (request : Request)
      (unmoved : ∀ handle, follow handle (registry.get? handle) request = registry.get? handle)
      (calm : ∀ index, registry.vacates index request = false) : Served registry request registry
  | updated (request : Request) (handle : Handle) (module new : LoadedModule)
      (found : registry.get? handle = some module) (named : new.name = module.name)
      (turned : follow handle (some module) request = some new)
      (others : ∀ other, other ≠ handle → ∀ module?, follow other module? request = module?)
      (calm : ∀ index, registry.vacates index request = false) :
      Served registry request (registry.update handle new)
  | added (module : LoadedModule) (after : Registry) (handle : Handle)
      (added : registry.add module = .ok (after, handle)) : Served registry (.add module) after
  | removed (handle : Handle) (after : Registry) (module : LoadedModule)
      (removed : registry.remove handle = .ok (after, module)) :
      Served registry (.remove handle) after

/-- A request for one handle that leaves its module as it is. -/
theorem unmoved_of_others {request : Request} (handle : Handle)
    (others : ∀ other, other ≠ handle → ∀ module?, follow other module? request = module?)
    (here : follow handle (registry.get? handle) request = registry.get? handle) :
    ∀ other, follow other (registry.get? other) request = registry.get? other := by
  intro other
  by_cases same : other = handle
  · subst same
    exact here
  · exact others other same _

theorem served_add (registry : Registry) (module : LoadedModule) :
    Served registry (.add module) (registry.perform (.add module)) := by
  cases result : registry.add module with
  | error error =>
      simp only [perform, attempt, result, Except.map]
      exact .kept _ (fun _ => rfl) fun _ => rfl
  | ok answer =>
      simp only [perform, attempt, result, Except.map]
      exact .added module answer.1 answer.2 result

theorem served_remove (registry : Registry) (handle : Handle) :
    Served registry (.remove handle) (registry.perform (.remove handle)) := by
  cases result : registry.remove handle with
  | error error =>
      simp only [perform, attempt, result, Except.map]
      refine .kept _ (unmoved_of_others handle
        (fun _ different _ => if_neg (Ne.symm different)) ?_)
        fun index => by simp [vacates, result, Except.toOption]
      cases found : registry.get? handle with
      | none => simp [follow]
      | some module =>
          have used : module.references ≠ 0 := by
            intro unused
            rcases remove_of_unused found unused with ⟨after, removed⟩
            rw [result] at removed
            cases removed
          simp [follow, used]
  | ok answer =>
      simp only [perform, attempt, result, Except.map]
      exact .removed handle answer.1 answer.2 result

theorem served_acquire (registry : Registry) (handle : Handle) :
    Served registry (.acquire handle) (registry.perform (.acquire handle)) := by
  cases result : registry.acquire handle with
  | error error =>
      simp only [perform, attempt, result, Except.map]
      refine .kept _ (unmoved_of_others handle
        (fun _ different _ => if_neg (Ne.symm different)) ?_) fun _ => rfl
      cases found : registry.get? handle with
      | none => simp [follow]
      | some module =>
          have closed : module.phase.isOpen = false := by
            cases opened : module.phase.isOpen with
            | false => rfl
            | true =>
                rw [acquire_of_open found opened] at result
                cases result
          simp [follow, closed]
  | ok answer =>
      rcases acquire_eq_ok result with ⟨module, found, opened, after⟩
      simp only [perform, attempt, result, Except.map, after]
      exact .updated _ handle module _ found rfl (by simp [follow, opened])
        (fun _ different _ => if_neg (Ne.symm different)) fun _ => rfl

theorem served_release (registry : Registry) (handle : Handle) :
    Served registry (.release handle) (registry.perform (.release handle)) := by
  cases found : registry.get? handle with
  | none =>
      simp only [perform, attempt, release, found, Except.map]
      exact .kept _ (unmoved_of_others handle (fun _ different _ => if_neg (Ne.symm different))
        (by simp [follow, found])) fun _ => rfl
  | some module =>
      cases held : module.references with
      | zero =>
          simp only [perform, attempt, release, found, held, Except.map]
          refine .kept _ (unmoved_of_others handle
            (fun _ different _ => if_neg (Ne.symm different)) ?_) fun _ => rfl
          cases module
          cases held
          simp [follow, found]
      | succ references =>
          simp only [perform, attempt, release_of_held found held, Except.map]
          exact .updated _ handle module _ found rfl (by simp [follow, held])
            (fun _ different _ => if_neg (Ne.symm different)) fun _ => rfl

theorem served_setPhase (registry : Registry) (handle : Handle) (phase : Phase) :
    Served registry (.setPhase handle phase) (registry.perform (.setPhase handle phase)) := by
  cases found : registry.get? handle with
  | none =>
      simp only [perform, attempt, setPhase, found]
      exact .kept _ (unmoved_of_others handle (fun _ different _ => if_neg (Ne.symm different))
        (by simp [follow, found])) fun _ => rfl
  | some module =>
      simp only [perform, attempt, setPhase_eq_update found]
      exact .updated _ handle module _ found rfl (by simp [follow])
        (fun _ different _ => if_neg (Ne.symm different)) fun _ => rfl

theorem served (registry : Registry) (request : Request) :
    Served registry request (registry.perform request) := by
  cases request with
  | add module => exact served_add registry module
  | remove handle => exact served_remove registry handle
  | acquire handle => exact served_acquire registry handle
  | release handle => exact served_release registry handle
  | setPhase handle phase => exact served_setPhase registry handle phase

theorem Consistent.perform (consistent : registry.Consistent) (request : Request) :
    (registry.perform request).Consistent := by
  have step := served registry request
  generalize registry.perform request = after at step
  cases step with
  | kept => exact consistent
  | updated _ handle module new found named => exact consistent.update found named
  | added module _ handle added => exact (add_eq_ok consistent added).2.2
  | removed handle _ module removed => exact consistent.remove removed

theorem Consistent.performAll (consistent : registry.Consistent) (requests : List Request) :
    (registry.performAll requests).Consistent :=
  List.foldlRecOn _ Registry.perform consistent fun _ here request _ => here.perform request

/-! ## Generations -/

/-- The generation of a slot; a slot that is not there yet is of the first. -/
def generationAt (registry : Registry) (index : Nat) : Nat :=
  (registry.slots[index]?.map fun slot => slot.generation.toNat).getD 0

theorem generationAt_of_get? (found : registry.get? handle = some module) :
    registry.generationAt handle.index = handle.generation.toNat := by
  rw [generationAt, slot_of_get? found, Option.map_some, Option.getD_some]

theorem generationAt_setSlot (registry : Registry) {index : Nat} {old : Slot}
    (found : registry.slots[index]? = some old) (new : Slot) (other : Nat) :
    (registry.setSlot index new).generationAt other =
      if other = index then new.generation.toNat else registry.generationAt other := by
  have bounded : index < registry.slots.length := (List.getElem?_eq_some_iff.mp found).1
  simp only [generationAt, setSlot, List.getElem?_set]
  by_cases same : other = index
  · subst same
    simp [bounded]
  · simp [same, Ne.symm same]

theorem generationAt_update (found : registry.get? handle = some module) (new : LoadedModule)
    (index : Nat) :
    (registry.update handle new).generationAt index = registry.generationAt index := by
  rw [update_eq_setSlot found, registry.generationAt_setSlot (slot_of_get? found)]
  split
  · next same => rw [same, generationAt_of_get? found]
  · rfl

/-- A new module takes its slot at the generation that the slot has. -/
theorem generationAt_add (consistent : registry.Consistent)
    (added : registry.add module = .ok (after, handle)) :
    handle.generation.toNat = registry.generationAt handle.index ∧
      ∀ index, after.generationAt index = registry.generationAt index := by
  unfold add at added
  split at added
  · cases added
  · split at added
    · next index vacant stack =>
        rcases (consistent.vacant_iff index).mp (stack ▸ List.mem_cons_self) with
          ⟨generation, empty⟩
        simp only [empty, Option.map_some, Option.getD_some, Except.ok.injEq,
          Prod.mk.injEq] at added
        rcases added with ⟨rfl, rfl⟩
        have here : generation.toNat = registry.generationAt index := by
          rw [generationAt, empty, Option.map_some, Option.getD_some]
        refine ⟨here, fun other => ?_⟩
        have filled := registry.generationAt_setSlot empty ⟨generation, some module⟩ other
        refine Eq.trans filled ?_
        split
        · next same => rw [same, here]
        · rfl
    · simp only [Except.ok.injEq, Prod.mk.injEq] at added
      rcases added with ⟨rfl, rfl⟩
      refine ⟨by simp [generationAt], fun other => ?_⟩
      simp only [generationAt, List.getElem?_append]
      split
      · rfl
      · next beyond =>
          rw [List.getElem?_eq_none (Nat.le_of_not_lt beyond)]
          cases other - registry.slots.length <;> simp

theorem generationAt_remove (removed : registry.remove handle = .ok (after, module))
    (index : Nat) : after.generationAt index =
      if index = handle.index then (handle.generation + 1).toNat
      else registry.generationAt index := by
  rcases remove_eq_ok removed with ⟨found, unused, _⟩
  simp only [Registry.remove, found, unused, ne_eq, not_true_eq_false, if_false,
    Except.ok.injEq, Prod.mk.injEq, and_true] at removed
  subst removed
  exact registry.generationAt_setSlot (slot_of_get? found) ⟨handle.generation + 1, none⟩ index

/-- Each removal from a slot raises its generation by one, as long as the word has room. -/
theorem generationAt_perform (consistent : registry.Consistent) (request : Request) (index : Nat)
    (room : registry.generationAt index + (if registry.vacates index request then 1 else 0) <
      2 ^ 32) :
    (registry.perform request).generationAt index =
      registry.generationAt index + if registry.vacates index request then 1 else 0 := by
  have step := served registry request
  generalize registry.perform request = after at step
  cases step with
  | kept _ _ calm => rw [calm index]; rfl
  | updated _ handle module new found _ _ _ calm =>
      rw [generationAt_update found, calm index]
      rfl
  | added module _ handle added => exact (generationAt_add consistent added).2 index
  | removed handle _ module removed =>
      rw [generationAt_remove removed]
      have here := generationAt_of_get? (remove_eq_ok removed).1
      by_cases same : index = handle.index
      · subst same
        have counts : registry.vacates handle.index (.remove handle) = true := by
          simp [vacates, removed, Except.toOption]
        rw [counts, if_pos rfl, here] at room
        rw [counts, if_pos rfl, if_pos rfl, here, UInt32.toNat_add]
        exact Nat.mod_eq_of_lt room
      · have calm : registry.vacates index (.remove handle) = false := by
          simp [vacates, Ne.symm same]
        rw [if_neg same, calm]
        rfl

/-! ## Handles that have been given out -/

/-- The handle stands for a module, or its slot has moved on. -/
def Issued (registry : Registry) (handle : Handle) : Prop :=
  (registry.get? handle).isSome ∨ handle.generation.toNat < registry.generationAt handle.index

/-- The generations of the slots have room for a run. -/
def Outlasts (registry : Registry) (requests : List Request) : Prop :=
  ∀ index, registry.generationAt index + removals index registry requests < 2 ^ 32

theorem Outlasts.generationAt_perform {request : Request} {rest : List Request}
    (outlasts : registry.Outlasts (request :: rest)) (consistent : registry.Consistent)
    (index : Nat) : (registry.perform request).generationAt index =
      registry.generationAt index + if registry.vacates index request then 1 else 0 :=
  Registry.generationAt_perform consistent request index <| Nat.lt_of_le_of_lt
    (Nat.add_le_add_left (Nat.le_add_right _ _) _) (outlasts index)

theorem Outlasts.tail {request : Request} {rest : List Request}
    (outlasts : registry.Outlasts (request :: rest)) (consistent : registry.Consistent) :
    (registry.perform request).Outlasts rest := by
  intro index
  have whole := outlasts index
  rw [removals, ← Nat.add_assoc] at whole
  rw [outlasts.generationAt_perform consistent]
  exact whole

theorem Outlasts.drop {front back : List Request} (outlasts : registry.Outlasts (front ++ back))
    (consistent : registry.Consistent) : (registry.performAll front).Outlasts back := by
  induction front generalizing registry with
  | nil => exact outlasts
  | cons request rest ih => exact ih (outlasts.tail consistent) (consistent.perform request)

/-- A new module's handle has not been given out before. -/
theorem not_issued_of_add (consistent : registry.Consistent)
    (added : registry.add module = .ok (after, handle)) : ¬registry.Issued handle := by
  rintro (present | passed)
  · rw [(add_eq_ok consistent added).2.1.get?_old] at present
    cases present
  · exact Nat.lt_irrefl _ ((generationAt_add consistent added).1 ▸ passed)

/-- A handle that has been given out is followed by each request. -/
theorem get?_perform (consistent : registry.Consistent) (issued : registry.Issued handle)
    (request : Request) :
    (registry.perform request).get? handle = follow handle (registry.get? handle) request := by
  have step := served registry request
  generalize registry.perform request = after at step
  cases step with
  | kept _ unmoved => exact (unmoved handle).symm
  | updated _ other module new found _ turned others =>
      have changes := changes_update found new
      by_cases same : handle = other
      · subst same
        rw [changes.get?_new, found, turned]
      · rw [changes.get?_other same, others handle same]
  | added module _ new added =>
      have different : handle ≠ new := fun same =>
        not_issued_of_add consistent added (same ▸ issued)
      exact (add_eq_ok consistent added).2.1.get?_other different
  | removed other _ module removed =>
      rcases remove_eq_ok removed with ⟨found, unused, changes⟩
      by_cases same : handle = other
      · subst same
        simp [changes.get?_new, follow, found, Option.filter, unused]
      · rw [changes.get?_other same]
        exact (if_neg (Ne.symm same)).symm

/-- A module stays under its handle unless its slot is vacated. -/
theorem isSome_follow (found : registry.get? handle = some module) {request : Request}
    (left : registry.vacates handle.index request = false) :
    (follow handle (registry.get? handle) request).isSome = true := by
  rw [found]
  cases request with
  | add => rfl
  | remove other =>
      by_cases same : other = handle
      · subst same
        have used : module.references ≠ 0 := by
          intro unused
          rcases remove_of_unused found unused with ⟨after, removed⟩
          simp [vacates, removed, Except.toOption] at left
        simp [follow, Option.filter, used]
      · simp [follow, same]
  | acquire other => by_cases same : other = handle <;> simp [follow, same]
  | release other => by_cases same : other = handle <;> simp [follow, same]
  | setPhase other phase => by_cases same : other = handle <;> simp [follow, same]

theorem Issued.perform (issued : registry.Issued handle) (consistent : registry.Consistent)
    {request : Request} {rest : List Request} (outlasts : registry.Outlasts (request :: rest)) :
    (registry.perform request).Issued handle := by
  have raised := outlasts.generationAt_perform consistent handle.index
  rcases issued with present | passed
  · rcases Option.isSome_iff_exists.mp present with ⟨module, found⟩
    rw [generationAt_of_get? found] at raised
    cases left : registry.vacates handle.index request with
    | true => exact .inr (by rw [raised, left]; exact Nat.lt_succ_self _)
    | false =>
        refine .inl ?_
        rw [get?_perform consistent (.inl present)]
        exact isSome_follow found left
  · exact .inr (raised ▸ Nat.lt_of_lt_of_le passed (Nat.le_add_right _ _))

/-- A run does to the module of a handle what its requests do to it one by one. -/
theorem get?_performAll (consistent : registry.Consistent) (issued : registry.Issued handle)
    {requests : List Request} (outlasts : registry.Outlasts requests) :
    (registry.performAll requests).get? handle =
      requests.foldl (follow handle) (registry.get? handle) := by
  induction requests generalizing registry with
  | nil => rfl
  | cons request rest ih =>
      have here := ih (consistent.perform request) (issued.perform consistent outlasts)
        (outlasts.tail consistent)
      rw [get?_perform consistent issued] at here
      exact here

/-! ## The map that a registry stores -/

/-- A registry refuses a second module of a name, what is asked of handles that stand for
nothing, to give up a module in use and to give references on one that failed or leaves. -/
def Refuses (registry : Registry) : Request → Prop
  | .add module => ∃ handle other, registry.get? handle = some other ∧ other.name = module.name
  | .remove handle => registry.get? handle = none ∨
      ∃ module, registry.get? handle = some module ∧ module.references ≠ 0
  | .acquire handle => registry.get? handle = none ∨
      ∃ module, registry.get? handle = some module ∧
        (module.phase = .initFailed ∨ module.phase = .finalizing)
  | .release handle => registry.get? handle = none
  | .setPhase _ _ => False

theorem isOpen_eq_false_iff (phase : Phase) :
    phase.isOpen = false ↔ phase = .initFailed ∨ phase = .finalizing := by
  cases phase <;> simp [Phase.isOpen]

theorem add_eq_error_iff (consistent : registry.Consistent) (module : LoadedModule) :
    (∃ error, registry.add module = .error error) ↔ registry.Refuses (.add module) := by
  have finds := consistent.find?_eq_some_iff module.name
  cases known : registry.find? module.name with
  | some handle =>
      refine iff_of_true ⟨.duplicateName module.name, by simp [add, known]⟩ ?_
      exact ⟨handle, (finds handle).mp known⟩
  | none =>
      refine iff_of_false ?_ fun ⟨handle, taken⟩ => ?_
      · rintro ⟨error, refused⟩
        unfold add at refused
        rw [known] at refused
        simp only [Option.isSome_none, Bool.false_eq_true, if_false] at refused
        split at refused <;> cases refused
      · rw [(finds handle).mpr taken] at known
        cases known

theorem attempt_eq_error_iff (consistent : registry.Consistent) (request : Request) :
    (∃ error, registry.attempt request = .error error) ↔ registry.Refuses request := by
  have mapped {α β : Type} (answer : Except ModuleError α) (view : α → β) :
      (∃ error, answer.map view = .error error) ↔ ∃ error, answer = .error error := by
    cases answer <;> simp [Except.map]
  cases request with
  | add module => exact (mapped _ _).trans (add_eq_error_iff consistent module)
  | remove handle =>
      refine (mapped _ _).trans ?_
      cases found : registry.get? handle with
      | none => simp [Registry.remove, Refuses, found]
      | some module => by_cases used : module.references = 0 <;>
          simp [Registry.remove, Refuses, found, used]
  | acquire handle =>
      refine (mapped _ _).trans ?_
      cases found : registry.get? handle with
      | none => simp [acquire, Refuses, found]
      | some module =>
          simp only [Refuses, found, Option.some.injEq, exists_eq_left', reduceCtorEq, false_or,
            ← isOpen_eq_false_iff]
          cases opened : module.phase.isOpen <;> simp [acquire, found, opened]
  | release handle =>
      refine (mapped _ _).trans ?_
      cases found : registry.get? handle with
      | none => simp [release, Refuses, found]
      | some module => cases held : module.references <;> simp [release, Refuses, found, held]
  | setPhase handle phase => simp [attempt, Refuses]

/-- A registry as a finite map from handles to modules with distinct names. -/
structure StoresMap (registry : Registry) : Prop where
  names_nodup : (registry.entries.map fun entry => entry.2.name).Nodup
  /-- The count is that of the occupied slots. -/
  count_eq : registry.count = registry.slots.countP fun slot => slot.module.isSome
  vacant_nodup : registry.vacant.Nodup
  vacant_iff : ∀ index, index ∈ registry.vacant ↔
    ∃ generation, registry.slots[index]? = some ⟨generation, none⟩
  /-- A name finds the handle of the one module that has it. -/
  find?_iff : ∀ name handle, registry.find? name = some handle ↔
    ∃ module, registry.get? handle = some module ∧ module.name = name
  /-- The entries are what the handles stand for, each once, in the order of the slots. -/
  entries_iff : ∀ handle module,
    (handle, module) ∈ registry.entries ↔ registry.get? handle = some module
  entries_sorted : registry.entries.Pairwise fun first second => first.1.index < second.1.index
  refuses_iff : ∀ request,
    (∃ error, registry.attempt request = .error error) ↔ registry.Refuses request
  refused : ∀ request, registry.Refuses request → registry.perform request = registry

theorem Consistent.storesMap (consistent : registry.Consistent) : registry.StoresMap where
  names_nodup := consistent.names_nodup
  count_eq := consistent.count_eq.trans registry.length_entries
  vacant_nodup := consistent.vacant_nodup
  vacant_iff := consistent.vacant_iff
  find?_iff := consistent.find?_eq_some_iff
  entries_iff handle module := (get?_eq_some_iff registry handle module).symm
  entries_sorted := registry.entries_sorted
  refuses_iff := attempt_eq_error_iff consistent
  refused request refuses := by
    rcases (attempt_eq_error_iff consistent request).mpr refuses with ⟨error, refused⟩
    rw [Registry.perform, refused]

theorem removals_le_length (index : Nat) (registry : Registry) (requests : List Request) :
    removals index registry requests ≤ requests.length := by
  induction requests generalizing registry with
  | nil => exact Nat.le_refl 0
  | cons request rest ih =>
      have here := ih (registry.perform request)
      simp only [removals, List.length_cons]
      split <;> omega

/-- The requests before a point of a run, then those from it. -/
theorem performAll_append (registry : Registry) (front back : List Request) :
    registry.performAll (front ++ back) = (registry.performAll front).performAll back :=
  List.foldl_append

/-- After any run a registry stores a map.  A handle that adding a module gave stands for
what the later requests made of that module, and for nothing once it has been removed. -/
theorem run_stores_map (requests : List Request)
    (few : ∀ index, removals index {} requests < 2 ^ 32) :
    (performAll {} requests).StoresMap ∧
      (∀ front module back after handle, requests = front ++ .add module :: back →
        (performAll {} front).add module = .ok (after, handle) →
        (performAll {} requests).get? handle = back.foldl (follow handle) (some module)) ∧
      (∀ front handle back after module, requests = front ++ .remove handle :: back →
        (performAll {} front).remove handle = .ok (after, module) →
        (performAll {} requests).get? handle = none) := by
  have outlasts : Outlasts {} requests := fun index => by
    rw [show generationAt {} index = 0 from rfl, Nat.zero_add]
    exact few index
  refine ⟨(consistent_empty.performAll requests).storesMap, ?_, ?_⟩
  · rintro front module back after handle rfl added
    have consistent := consistent_empty.performAll front
    have room := outlasts.drop consistent_empty
    have step : (performAll {} front).perform (.add module) = after := by
      simp only [perform, attempt, added, Except.map]
    have found : after.get? handle = some module := (add_eq_ok consistent added).2.1.get?_new
    have issued : after.Issued handle := .inl (by rw [found]; rfl)
    rw [← step] at found issued
    have rest := get?_performAll (consistent.perform (.add module)) issued (room.tail consistent)
    rw [found] at rest
    rw [performAll_append]
    exact rest
  · rintro front handle back after module rfl removed
    have consistent := consistent_empty.performAll front
    rcases remove_eq_ok removed with ⟨found, unused, _⟩
    have issued : (performAll {} front).Issued handle := .inl (by rw [found]; rfl)
    rw [performAll_append, get?_performAll consistent issued (outlasts.drop consistent_empty),
      List.foldl_cons]
    have gone : follow handle ((performAll {} front).get? handle) (.remove handle) = none := by
      simp [follow, Option.filter, found, unused]
    rw [gone, foldl_follow_none]

/-- A module takes the slot of one that was removed, whose handle stays without meaning. -/
def reuse : List Request :=
  [.add { name := "alpha" }, .remove ⟨0, 0⟩, .add { name := "beta" }, .acquire ⟨0, 1⟩]

/-- The first handle stays without meaning, and the second stands for the module that was
added last. -/
theorem run_stores_map_reuse : (∀ index, removals index {} reuse < 2 ^ 32) ∧
    (performAll {} reuse).StoresMap ∧ (performAll {} reuse).get? ⟨0, 0⟩ = none ∧
    (performAll {} reuse).get? ⟨0, 1⟩ = some { name := "beta", references := 1 } := by
  have few : ∀ index, removals index {} reuse < 2 ^ 32 := fun index =>
    Nat.lt_of_le_of_lt (removals_le_length index {} reuse) (by decide)
  rcases run_stores_map reuse few with ⟨stores, added, removed⟩
  refine ⟨few, stores, ?_, ?_⟩
  · exact removed [.add { name := "alpha" }] ⟨0, 0⟩ _ _ _ rfl rfl
  · exact added [.add { name := "alpha" }, .remove ⟨0, 0⟩] _ _ _ ⟨0, 1⟩ rfl rfl

end Registry
end ModuleHost
