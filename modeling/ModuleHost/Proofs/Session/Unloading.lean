import ModuleHost.Proofs.Registry.Layers
import ModuleHost.Proofs.Session.FailedLoad
import ModuleHost.Proofs.Session.Isolation

namespace ModuleHost

/-!
# Everything can be unloaded

The modules of a session are at all times in an order of dependence.  Once nothing is in
progress and nobody outside holds a reference, the module in front of that order has no
references, and unloading it leaves the others in their order.  So they can all be unloaded
one after the other.

An exit function that does not use the host cannot get in the way of this, whatever it
writes into memory.
-/

namespace Registry

/-- The names of the modules that handles stand for. -/
def namesOf (registry : Registry) (handles : List Handle) : List String :=
  handles.filterMap fun handle => (registry.get? handle).map (·.name)

theorem namesOf_congr {first second : Registry} {handles : List Handle}
    (same : ∀ handle ∈ handles, (first.get? handle).map LoadedModule.uncounted =
      (second.get? handle).map LoadedModule.uncounted) :
    first.namesOf handles = second.namesOf handles := by
  refine List.filterMap_congr fun handle listed => ?_
  have names := congrArg (Option.map LoadedModule.name) (same handle listed)
  rw [Option.map_map, Option.map_map] at names
  exact names

/-- An order of all modules gives the name of each of them once. -/
theorem Layered.namesOf_perm {registry : Registry} {order : List Handle}
    (layered : registry.Layered order) :
    (registry.namesOf order).Perm (registry.entries.map fun entry => entry.2.name) := by
  have handles : order.Perm (registry.entries.map Prod.fst) := by
    have distinct : (registry.entries.map Prod.fst).Nodup := by
      refine List.pairwise_map.mpr (registry.entries_sorted.imp fun {first second} less same => ?_)
      exact Nat.ne_of_lt less (congrArg Handle.index same)
    refine (List.perm_ext_iff_of_nodup layered.nodup distinct).mpr fun handle => ?_
    rw [layered.mem_iff, Option.isSome_iff_exists]
    simp only [get?_eq_some_iff, List.mem_map, Prod.exists, exists_and_right, exists_eq_right]
  have names : registry.namesOf (registry.entries.map Prod.fst) =
      registry.entries.map fun entry => entry.2.name := by
    rw [namesOf, List.filterMap_map, ← List.filterMap_eq_map]
    refine List.filterMap_congr fun entry listed => ?_
    simp only [Function.comp_apply, (get?_eq_some_iff registry entry.1 entry.2).mpr listed,
      Option.map_some]
  exact names ▸ handles.filterMap _

end Registry

namespace Session

variable {session : Session}

/-! ## The order of the modules of a session -/

theorem Sound.layered_beginLoad (sound : session.Sound) {order : List Handle}
    (layered : session.host.registry.Layered order) (name : String) (image : List UInt8) :
    ∃ order', (session.advance (.beginLoad name image)).host.registry.Layered order' := by
  unfold Session.advance
  simp only
  cases began : session.host.beginLoad name image with
  | mk host result =>
      cases result with
      | error error =>
          exact ⟨_, layered.persists (sound.accounted.beginLoad_error began).2.alike.persists⟩
      | ok pending =>
          rcases sound.accounted.beginLoad_ok began with
            ⟨accounted, fresh, turns, module, found, single, _⟩
          -- The only reference on the new module is the one that its load holds.
          have unbound : host.registry.bound pending.handle = 0 := by
            have counts := accounted.balanced pending.handle
            rw [Registry.counted_of_get? found, single, List.count_cons_self] at counts
            omega
          exact ⟨_, layered.cons fresh turns.others (Option.isSome_of_eq_some found) unbound⟩

/-- Every half keeps an order of dependence: only loads put a module in front of it. -/
theorem Sound.layered (sound : session.Sound) {order : List Handle}
    (layered : session.host.registry.Layered order) (half : Half) :
    ∃ order', (session.advance half).host.registry.Layered order' := by
  by_cases loading : ∃ name image, half = .beginLoad name image
  · rcases loading with ⟨name, image, rfl⟩
    exact sound.layered_beginLoad layered name image
  · exact ⟨_, layered.persists
      (session.persists_advance fun name image same => loading ⟨name, image, same⟩)⟩

theorem Reachable.layered (reachable : session.Reachable) :
    ∃ order, session.host.registry.Layered order := by
  refine (reachable.keeps (motive := fun session =>
    session.Sound ∧ ∃ order, session.host.registry.Layered order) ?_ ?_).2
  · intro settings exports memory zeroPage host created
    refine ⟨sound_start created, [], ?_⟩
    rw [(Host.create_eq_ok created).1]
    exact Registry.Layered.empty
  · rintro session half ⟨sound, order, layered⟩
    exact ⟨(sound.advance half).1, sound.layered layered half⟩

/-! ## Idle sessions -/

/-- Nothing is in progress, and nobody outside holds a reference. -/
structure Idle (session : Session) : Prop where
  calls_eq : session.calls = []
  guards_eq : ∀ guard ∈ session.guards, guard = none

theorem Idle.holders_eq (idle : session.Idle) : session.holders = [] := by
  rw [holders, idle.calls_eq, List.filterMap_nil, List.nil_append, List.filterMap_eq_nil_iff]
  intro guard listed
  rw [idle.guards_eq guard listed]
  rfl

theorem Sound.settled_of_idle (sound : session.Sound) (idle : session.Idle) {handle : Handle}
    {phase : Phase} (found : session.host.registry.phase? handle = some phase) :
    phase = .live ∨ phase = .initFailed := by
  have busy (unsettled : phase = .registered ∨ phase = .finalizing) : False := by
    rcases sound.call_of_phase handle phase found unsettled with ⟨call, listed, _⟩
    rw [idle.calls_eq] at listed
    exact List.not_mem_nil listed
  cases phase with
  | registered => exact (busy (Or.inl rfl)).elim
  | live => exact Or.inl rfl
  | initFailed => exact Or.inr rfl
  | finalizing => exact (busy (Or.inr rfl)).elim

/-! ## Unloading to the end -/

/-- Unload a module, with a function that tells what its exit function does, given the
address of that function and the session that it is called in. -/
def unloadWith (exit : Address → Session → List Operation) (session : Session) (name : String) :
    Session × Outcome :=
  match session.unload name with
  | (called, .calling entry) =>
    ((called.performAll (exit entry called)).return? 0).getD (called, .calling entry)
  | done => done

/-- Unload modules one after the other. -/
def unloadAll (exit : Address → Session → List Operation) :
    Session → List String → Session × List Outcome
  | session, [] => (session, [])
  | session, name :: rest =>
    let (next, outcome) := session.unloadWith exit name
    let (after, outcomes) := unloadAll exit next rest
    (after, outcome :: outcomes)

end Session

namespace Host

variable {host : Host} {holders : List Handle} {handle : Handle} {module : LoadedModule}

theorem beginUnload_of_unused (accounted : host.Accounted holders [])
    (found : host.registry.get? handle = some module) (unused : module.references = 0)
    (staying : module.phase ≠ .finalizing) :
    ∃ middle pending, host.beginUnload module.name = (middle, .ok pending) ∧
      pending.handle = handle := by
  have named : host.registry.find? module.name = some handle :=
    (accounted.consistent.find?_eq_some_iff module.name handle).mpr ⟨module, found, rfl⟩
  unfold beginUnload
  simp only [named, found, unused, if_neg staying, ne_eq, not_true_eq_false, if_false]
  exact ⟨_, _, rfl, rfl⟩

/-- An unload whose exit function leaves modules and arena alone takes its module out. -/
theorem Accounted.unloaded {middle : Host} {name : String} {pending : PendingUnload}
    (accounted : host.Accounted holders [])
    (began : host.beginUnload name = (middle, .ok pending)) (memory : Memory)
    (journal : List Notice) :
    ∃ after, Host.finishUnload { middle with memory, journal } pending = (after, .ok ()) ∧
      after.Accounted holders [] ∧ Turns host after pending.handle none := by
  rcases accounted.beginUnload_ok began with ⟨accounted', turns, _, _, _, _, unused, _⟩
  rcases Option.map_eq_some_iff.mp turns.phase_eq with ⟨module, found, _⟩
  have unused' : module.references = 0 := (Registry.counted_of_get? found).symm.trans unused
  rcases (accounted'.aside memory journal).finishUnload found unused' with ⟨ended, turns', done⟩
  have gone := (turns.continues (Continues.aside middle memory journal)).trans turns'
  exact ⟨_, Prod.ext rfl done, ended, gone⟩

end Host

namespace Session

variable {session : Session} {exit : Address → Session → List Operation}

/-- A module without references is unloaded, and nothing else changes. -/
theorem unloadWith_of_unused
    (quiet : ∀ entry session, ∀ operation ∈ exit entry session, operation.IsQuiet)
    {holders : List Handle} (accounted : session.host.Accounted holders []) {handle : Handle}
    {module : LoadedModule} (found : session.host.registry.get? handle = some module)
    (unused : module.references = 0) (staying : module.phase ≠ .finalizing) :
    ∃ host, session.unloadWith exit module.name = ({ session with host }, .unloaded) ∧
      host.Accounted holders [] ∧ session.host.Turns host handle none := by
  rcases Host.beginUnload_of_unused accounted found unused staying with
    ⟨middle, pending, began, rfl⟩
  cases entry : pending.exitEntry with
  | none =>
      rcases accounted.unloaded began middle.memory middle.journal with
        ⟨host, ended, accounted', turns⟩
      refine ⟨host, ?_, accounted', turns⟩
      have settled := settleUnload_of_ok { session with host := middle } ended
      simp only [unloadWith, unload, began, entry, settled]
  | some address =>
      have called : session.unload module.name =
          ({ session with host := middle, calls := .exit pending :: session.calls },
            .calling address) := by
        simp only [unload, began, entry]
      rcases performAll_quiet (quiet address _) with ⟨memory, journal, performed⟩
      rcases accounted.unloaded began memory journal with ⟨host, ended, accounted', turns⟩
      have settled := settleUnload_of_ok
        { session with host := { middle with memory, journal } } ended
      refine ⟨host, ?_, accounted', turns⟩
      simp only [unloadWith, called]
      rw [performed]
      simp only [return?, settled, Option.getD_some]

/-- Modules in an order of dependence are unloaded in that order. -/
theorem unloadAll_of_layered
    (quiet : ∀ entry session, ∀ operation ∈ exit entry session, operation.IsQuiet)
    {order : List Handle} (layered : session.host.registry.Layered order)
    (accounted : session.host.Accounted [] [])
    (staying : ∀ handle, session.host.registry.phase? handle ≠ some .finalizing) :
    ∃ after, session.unloadAll exit (session.host.registry.namesOf order) =
        (after, (session.host.registry.namesOf order).map fun _ => .unloaded) ∧
      after.host.registry.Layered [] := by
  induction order generalizing session with
  | nil => exact ⟨session, rfl, layered⟩
  | cons handle rest later =>
      rcases Option.isSome_iff_exists.mp ((layered.mem_iff handle).mp List.mem_cons_self) with
        ⟨module, found⟩
      -- Nobody outside holds a reference, and none of the others comes before this module.
      have unused : module.references = 0 := by
        rw [← Registry.counted_of_get? found, accounted.balanced handle, layered.bound_head,
          List.count_nil]
      have remains : module.phase ≠ .finalizing := by
        intro leaving
        refine staying handle ?_
        rw [Registry.phase?, found, Option.map_some, leaving]
      rcases unloadWith_of_unused quiet accounted found unused remains with
        ⟨host, unloaded, accounted', turns⟩
      have layered' := layered.tail turns.others (Option.map_eq_none_iff.mp turns.phase_eq)
      have staying' (other : Handle) : host.registry.phase? other ≠ some .finalizing := by
        by_cases same : other = handle
        · rw [same, turns.phase_eq]
          exact (Option.some_ne_none _).symm
        · rw [Registry.phase?_of_uncounted (turns.others other same)]
          exact staying other
      rcases @later { session with host } layered' accounted' staying' with
        ⟨after, ended, empty⟩
      refine ⟨after, ?_, empty⟩
      have names : session.host.registry.namesOf (handle :: rest) =
          module.name :: host.registry.namesOf rest := by
        have others : session.host.registry.namesOf rest = host.registry.namesOf rest := by
          refine Registry.namesOf_congr fun other listed => turns.others other ?_
          rintro rfl
          exact (List.nodup_cons.mp layered.nodup).1 listed
        rw [← others, Registry.namesOf, List.filterMap_cons, found]
        rfl
      simp only [names, unloadAll, unloaded, ended, List.map_cons]

/-- When nothing is in progress and nobody outside holds a reference, no module depends on
itself, however indirectly; every module is live or has failed; and unless there is none,
some module has no references.  There is an order of their names in which all modules can
be unloaded, whatever their exit functions do without using the host. -/
theorem everything_unloads (reachable : session.Reachable) (idle : session.Idle) :
    (∀ handle, ¬Relation.TransGen session.host.registry.DependsOn handle handle) ∧
    (∀ entry ∈ session.host.registry.entries,
      entry.2.phase = .live ∨ entry.2.phase = .initFailed) ∧
    (session.host.registry.isEmpty = false →
      ∃ entry ∈ session.host.registry.entries, entry.2.references = 0) ∧
    ∃ names : List String,
      names.Perm (session.host.registry.entries.map fun entry => entry.2.name) ∧
      ∀ exit : Address → Session → List Operation,
        (∀ entry session, ∀ operation ∈ exit entry session, operation.IsQuiet) →
        ∃ after, session.unloadAll exit names = (after, names.map fun _ => .unloaded) ∧
          after.host.registry.entries = [] := by
  have sound := reachable.sound
  have accounted := sound.accounted
  rw [idle.holders_eq] at accounted
  have settled {handle : Handle} {module : LoadedModule}
      (listed : (handle, module) ∈ session.host.registry.entries) :
      module.phase = .live ∨ module.phase = .initFailed := by
    have found := (Registry.get?_eq_some_iff _ handle module).mpr listed
    exact sound.settled_of_idle idle (by rw [Registry.phase?, found, Option.map_some])
  rcases reachable.layered with ⟨order, layered⟩
  refine ⟨layered.acyclic accounted.balanced, fun entry listed => settled listed, ?_,
    _, layered.namesOf_perm, fun exit quiet => ?_⟩
  · intro occupied
    cases order with
    | nil =>
        rw [Registry.isEmpty, accounted.consistent.count_eq, layered.entries_eq_nil] at occupied
        cases occupied
    | cons handle rest =>
        rcases Option.isSome_iff_exists.mp ((layered.mem_iff handle).mp List.mem_cons_self) with
          ⟨module, found⟩
        refine ⟨(handle, module), (Registry.get?_eq_some_iff _ _ _).mp found, ?_⟩
        rw [← Registry.counted_of_get? found, accounted.balanced handle, layered.bound_head,
          List.count_nil]
  · have staying (handle : Handle) : session.host.registry.phase? handle ≠ some .finalizing := by
      intro leaving
      rcases sound.settled_of_idle idle leaving with impossible | impossible <;> cases impossible
    rcases unloadAll_of_layered quiet layered accounted staying with ⟨after, ended, empty⟩
    exact ⟨after, ended, empty.entries_eq_nil⟩

set_option maxRecDepth 4096 in
/-- A module and another one that is bound to it. -/
theorem everything_unloads_bound :
    ∃ host, Host.create {} ⟨[]⟩ (.filled 0) 0 = .ok host ∧
      let session := performAll { host }
        [.load "shares" (Object.sharing 3 2), .load "asks" (Object.sharing 3 0)]
      (session.host.registry.entries.map fun entry => entry.2.references) = [1, 0] ∧
      ∃ names : List String, names.Perm ["shares", "asks"] ∧
        ∀ exit : Address → Session → List Operation,
          (∀ entry session, ∀ operation ∈ exit entry session, operation.IsQuiet) →
          ∃ after, session.unloadAll exit names = (after, names.map fun _ => .unloaded) ∧
            after.host.registry.entries = [] := by
  have ran : (Host.create {} ⟨[]⟩ (.filled 0) 0).toOption.map (fun host =>
      let session := performAll { host }
        [.load "shares" (Object.sharing 3 2), .load "asks" (Object.sharing 3 0)]
      (session.calls, session.guards,
        session.host.registry.entries.map fun entry => (entry.2.name, entry.2.references))) =
          some ([], [], [("shares", 1), ("asks", 0)]) := by
    decide +kernel
  rcases Option.map_eq_some_iff.mp ran with ⟨host, found, outcome⟩
  have created := Host.create_of_toOption found
  rcases Prod.mk.inj outcome with ⟨calls, rest⟩
  rcases Prod.mk.inj rest with ⟨guards, entries⟩
  have reachable : Reachable _ :=
    .step (.step (.start created) (.load "shares" (Object.sharing 3 2)))
      (.load "asks" (Object.sharing 3 0))
  have idle : Idle _ := ⟨calls, fun guard listed => by
    rw [guards] at listed
    exact absurd listed List.not_mem_nil⟩
  have counts := congrArg (List.map Prod.snd) entries
  have names := congrArg (List.map Prod.fst) entries
  rw [List.map_map] at counts names
  rcases (everything_unloads reachable idle).2.2.2 with ⟨order, perm, unloads⟩
  exact ⟨host, created, counts, order, perm.trans (.of_eq names), unloads⟩

end Session
end ModuleHost
