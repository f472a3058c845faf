import ModuleHost.Host.Unload
import ModuleHost.Proofs.Host.Assembling

namespace ModuleHost
namespace Host

/-!
# The halves of loads and unloads

Each half moves at most one module from one phase to another and leaves all others as
they are, up to reference counts; `Turns` says to which phase.  What a half takes and
gives back is accounted for: between the halves of a load the load itself holds one
reference on its module.
-/

/-- The module of one handle comes to a phase, or goes; all else goes on. -/
structure Turns (before after : Host) (handle : Handle) (phase? : Option Phase) : Prop where
  settings_eq : after.settings = before.settings
  exports_eq : after.exports = before.exports
  zeroPage_eq : after.zeroPage = before.zeroPage
  grows : before.arena.Grows after.arena
  returns : before.returns <:+ after.returns
  others : Registry.AlikeExcept handle before.registry after.registry
  closed : ∀ other, other ≠ handle → before.registry.ClosedLe after.registry other
  phase_eq : after.registry.phase? handle = phase?

variable {host middle after : Host} {holders : List Handle} {handle : Handle}
variable {module : LoadedModule} {phase? : Option Phase}

theorem Continues.turns (continues : Continues host middle)
    (turns : Turns middle after handle phase?) :
    Turns host after handle phase? where
  settings_eq := turns.settings_eq.trans continues.settings_eq
  exports_eq := turns.exports_eq.trans continues.exports_eq
  zeroPage_eq := turns.zeroPage_eq.trans continues.zeroPage_eq
  grows := continues.grows.trans turns.grows
  returns := continues.returns.trans turns.returns
  others := (continues.alike.except handle).trans turns.others
  closed other different := (continues.closed other).trans (turns.closed other different)
    (Registry.phase?_of_uncounted (continues.alike other))
  phase_eq := turns.phase_eq

theorem Turns.continues (turns : Turns host middle handle phase?)
    (continues : Continues middle after) :
    Turns host after handle phase? where
  settings_eq := continues.settings_eq.trans turns.settings_eq
  exports_eq := continues.exports_eq.trans turns.exports_eq
  zeroPage_eq := continues.zeroPage_eq.trans turns.zeroPage_eq
  grows := turns.grows.trans continues.grows
  returns := turns.returns.trans continues.returns
  others := turns.others.trans (continues.alike.except handle)
  closed other different := (turns.closed other different).trans (continues.closed other)
    (Registry.phase?_of_uncounted (turns.others other different))
  phase_eq := (Registry.phase?_of_uncounted (continues.alike handle)).trans turns.phase_eq

/-- The second of two turns of one module decides. -/
theorem Turns.trans {phase' : Option Phase} (turns : Turns host middle handle phase?)
    (turns' : Turns middle after handle phase') : Turns host after handle phase' where
  settings_eq := turns'.settings_eq.trans turns.settings_eq
  exports_eq := turns'.exports_eq.trans turns.exports_eq
  zeroPage_eq := turns'.zeroPage_eq.trans turns.zeroPage_eq
  grows := turns.grows.trans turns'.grows
  returns := turns.returns.trans turns'.returns
  others := turns.others.trans turns'.others
  closed other different := (turns.closed other different).trans (turns'.closed other different)
    (Registry.phase?_of_uncounted (turns.others other different))
  phase_eq := turns'.phase_eq

/-- A change of one entry of the registry turns its module. -/
theorem turns_of_changes {registry : Registry} {old new : Option LoadedModule}
    (changes : Registry.Changes host.registry registry handle old new) :
    Turns host { host with registry } handle (new.map (·.phase)) :=
  ⟨rfl, rfl, rfl, Arena.Grows.refl _, List.suffix_rfl, changes.alikeExcept,
    fun _ different => .of_get?_eq (changes.get?_other different), by
      rw [Registry.phase?, changes.get?_new]⟩

/-! ## Setting a phase and taking a module out -/

theorem Accounted.setPhase {loose : List Lease} (accounted : host.Accounted holders loose)
    (found : host.registry.get? handle = some module) (phase : Phase) :
    Accounted { host with registry := host.registry.setPhase handle phase } holders loose ∧
      Turns host { host with registry := host.registry.setPhase handle phase } handle
        (some phase) := by
  have changes := Registry.changes_update found { module with phase }
  have leases := Registry.leases_of_views (changes.map_entries (fun entry => entry.2.leases) rfl)
  have balanced := accounted.balanced.setPhase found phase
  rw [Registry.setPhase_eq_update found] at balanced ⊢
  refine ⟨⟨accounted.consistent.update found rfl, balanced, ?_, accounted.recorded⟩,
    turns_of_changes changes⟩
  show host.arena.Leased (loose ++ (host.registry.update handle { module with phase }).leases)
  rw [leases]
  exact accounted.leased

/-- What a module had when it was taken out is then held outside. -/
theorem Accounted.takeOut {registry : Registry} (accounted : host.Accounted holders [])
    (removed : host.registry.remove handle = .ok (registry, module)) :
    Accounted { host with registry } (module.dependencies ++ holders) (module.leases ++ []) := by
  rcases Registry.remove_eq_ok removed with ⟨_, _, changes⟩
  refine ⟨accounted.consistent.remove removed, accounted.balanced.remove removed, ?_,
    accounted.recorded⟩
  rw [List.append_nil]
  exact accounted.leased.perm changes.leases_perm

/-- The resources of a module without references are returned when it is taken out. -/
theorem Accounted.remove {registry : Registry} (accounted : host.Accounted holders [])
    (removed : host.registry.remove handle = .ok (registry, module)) :
    (returnResources { host with registry } module).Accounted holders [] ∧
      Turns host (returnResources { host with registry } module) handle none ∧
      (returnResources { host with registry } module).memory = host.memory := by
  rcases Registry.remove_eq_ok removed with ⟨_, _, changes⟩
  unfold returnResources
  simp only [module.ranges_eq]
  rcases (accounted.takeOut removed).returnAllPages with ⟨accounted', continues, _, memory⟩
  rcases accounted'.returnAllReferences with ⟨accounted'', continues', _, memory'⟩
  exact ⟨accounted'', (turns_of_changes changes).continues (continues.trans continues'),
    memory'.trans memory⟩

/-! ## The first half of a load -/

/-- The examination writes to the journal at most. -/
theorem examine_keeps (host : Host) (name : String) (image : List UInt8) :
    ∃ journal, (host.examine name image).1 = { host with journal } := by
  unfold examine
  cases Object.ofImage image with
  | error error => exact ⟨_, rfl⟩
  | ok object =>
      simp only
      split
      · exact ⟨_, rfl⟩
      · split
        · exact ⟨_, rfl⟩
        · split <;> exact ⟨_, rfl⟩

theorem examine_eq_ok {name : String} {image : List UInt8} {object : Object}
    (admitted : host.examine name image = (after, .ok object)) :
    after = host ∧ Object.ofImage image = .ok object ∧
      object.machine = host.settings.machine ∧ host.registry.find? name = none := by
  unfold examine at admitted
  cases parsed : Object.ofImage image with
  | error error => simp [parsed] at admitted
  | ok found =>
      rw [parsed] at admitted
      simp only at admitted
      split at admitted
      · simp at admitted
      · next machine =>
          split at admitted
          · simp at admitted
          · split at admitted
            · simp at admitted
            · next unknown =>
                simp only [Prod.mk.injEq, Except.ok.injEq] at admitted
                rcases admitted with ⟨rfl, rfl⟩
                exact ⟨rfl, rfl, Decidable.not_not.mp machine, by simpa using unknown⟩

/-- A module that is registered is new, holds what its staging held and has the one
reference of its load. -/
theorem register_eq_ok {staging : Staging} {assembly : Assembly} {name : String}
    {object : Object} {pending : PendingLoad} (consistent : staging.host.registry.Consistent)
    (registered : register staging assembly name object = (after, .ok pending)) :
    ∃ registry : Registry,
      Registry.Changes staging.host.registry registry pending.handle none
        (some { assembly.module name object staging.held with references := 1 }) ∧
      registry.Consistent ∧ after = { staging.host with registry } ∧
      pending = ⟨name, pending.handle, assembly.entry? object Assembly.initSymbol⟩ := by
  unfold register at registered
  cases added : staging.host.registry.add (assembly.module name object staging.held) with
  | error error => simp [added] at registered
  | ok result =>
      rcases result with ⟨registry, handle⟩
      rcases Registry.add_eq_ok consistent added with ⟨_, changes, consistent'⟩
      have taken := Registry.acquire_of_open changes.get?_new rfl
      simp only [added, taken, Prod.mk.injEq, Except.ok.injEq] at registered
      rcases registered with ⟨rfl, rfl⟩
      exact ⟨_, changes.trans (Registry.changes_update changes.get?_new _),
        consistent'.update changes.get?_new rfl, rfl, rfl⟩

/-- A refusal to register rolls the staging back. -/
theorem register_eq_error {staging : Staging} {assembly : Assembly} {name : String}
    {object : Object} {error : ModuleError} (consistent : staging.host.registry.Consistent)
    (refused : register staging assembly name object = (after, .error error)) :
    after = staging.rollBack .relocated := by
  unfold register at refused
  cases added : staging.host.registry.add (assembly.module name object staging.held) with
  | error error =>
      simp only [added, Prod.mk.injEq] at refused
      exact refused.1.symm
  | ok result =>
      rcases result with ⟨registry, handle⟩
      rcases Registry.add_eq_ok consistent added with ⟨_, changes, _⟩
      have taken := Registry.acquire_of_open changes.get?_new rfl
      simp [added, taken] at refused

/-- The three stages of a first half that succeeds. -/
theorem beginLoad_eq_ok {name : String} {image : List UInt8} {pending : PendingLoad}
    (began : host.beginLoad name image = (after, .ok pending)) :
    ∃ journal object staging assembly,
      Object.ofImage image = .ok object ∧ object.machine = host.settings.machine ∧
      host.registry.find? name = none ∧
      Staging.assemble object { host := { host with journal } } = (staging, .ok assembly) ∧
      register staging assembly name object = (after, .ok pending) := by
  unfold beginLoad at began
  simp only at began
  split at began
  · simp at began
  · next admitted object examined =>
      rcases examine_eq_ok examined with ⟨rfl, parsed, machine, unknown⟩
      split at began
      · simp at began
      · next staging assembly assembled =>
          exact ⟨_, object, staging, assembly, parsed, machine, unknown, assembled, began⟩

/-- A load that comes to its module's init function has registered a new module, on which
it alone holds a reference. -/
theorem Accounted.beginLoad_ok (accounted : host.Accounted holders []) {name : String}
    {image : List UInt8} {pending : PendingLoad}
    (began : host.beginLoad name image = (after, .ok pending)) :
    after.Accounted (pending.handle :: holders) [] ∧
      host.registry.get? pending.handle = none ∧
      Turns host after pending.handle (some .registered) ∧
      ∃ module, after.registry.get? pending.handle = some module ∧ module.references = 1 ∧
        module.initEntry = pending.initEntry := by
  rcases beginLoad_eq_ok began with
    ⟨journal, object, staging, assembly, _, _, _, assembled, registered⟩
  have start : Accounted { host with journal } holders [] := accounted.aside _ _
  have sound := (Staging.sound_start start).assemble assembled
  rcases register_eq_ok sound.accounted.consistent registered with
    ⟨registry, changes, consistent, rfl, known⟩
  have announced : Continues host { host with journal } := Continues.aside _ _ _
  have continues := announced.trans sound.continues
  have turns := continues.turns (turns_of_changes changes)
  refine ⟨⟨consistent, ?_, ?_, sound.accounted.recorded⟩, ?_, turns, _, changes.get?_new, rfl,
    ?_⟩
  · exact Registry.Balanced.add sound.accounted.balanced rfl changes
  · have moved := sound.accounted.leased.perm changes.leases_perm
    exact moved
  · have missing := continues.alike pending.handle
    rw [changes.get?_old, Option.map_none, Option.map_eq_none_iff] at missing
    exact missing
  · rw [known]
    rfl

/-- A load that fails before that leaves nothing behind. -/
theorem Accounted.beginLoad_error (accounted : host.Accounted holders []) {name : String}
    {image : List UInt8} {error : ModuleError}
    (failed : host.beginLoad name image = (after, .error error)) :
    after.Accounted holders [] ∧ Continues host after := by
  unfold beginLoad at failed
  simp only at failed
  have examined := examine_keeps
    (host.say .info s!"[module] Loading relocatable object: {name} ({image.length} bytes)")
    name image
  split at failed
  · next examination =>
      rw [examination] at examined
      rcases examined with ⟨journal, rfl⟩
      simp only [Prod.mk.injEq] at failed
      rcases failed with ⟨rfl, _⟩
      exact ⟨accounted.aside _ _, Continues.aside _ _ _⟩
  · next admitted object examination =>
      rw [examination] at examined
      rcases examined with ⟨journal, rfl⟩
      have start : Accounted { host with journal } holders [] := accounted.aside _ _
      have announced : Continues host { host with journal } :=
        Continues.aside _ _ _
      have rolledBack {staging : Staging} {loose : List Lease} (stage : StagingStep)
          (sound : Staging.Sound { host with journal } holders staging loose) :
          (staging.rollBack stage).Accounted holders [] ∧
            Continues host (staging.rollBack stage) :=
        ⟨(sound.rollBack stage).1, announced.trans (sound.rollBack stage).2.1⟩
      split at failed
      · next staging stage cause assembled =>
          rcases (Staging.sound_start start).assemble_error assembled with ⟨loose, sound⟩
          simp only [Prod.mk.injEq] at failed
          exact failed.1 ▸ rolledBack stage sound
      · next staging assembly assembled =>
          have sound := (Staging.sound_start start).assemble assembled
          rw [register_eq_error sound.accounted.consistent failed]
          exact rolledBack .relocated sound

/-! ## The second half of a load -/

/-- A load whose init function succeeds leaves its module live and lets it go. -/
theorem Accounted.finishLoad_eq_ok {pending : PendingLoad}
    (accounted : host.Accounted (pending.handle :: holders) []) :
    ∃ module registry references journal returns,
      host.registry.get? pending.handle = some module ∧
      host.finishLoad pending 0 =
        ({ host with registry, journal, returns }, .ok pending.handle) ∧
      registry.get? pending.handle = some { module with phase := .live, references } ∧
      Accounted { host with registry, journal, returns } holders [] ∧
      Turns host { host with registry, journal, returns } pending.handle (some .live) := by
  rcases accounted.balanced.exists_of_held List.mem_cons_self with ⟨module, found, _⟩
  rcases accounted.setPhase found .live with ⟨accounted', turns⟩
  rcases accounted'.release s!"{pending.name}: " with
    ⟨module', registry, references, found', _, found'', released, accounted'', continues⟩
  have live : module' = { module with phase := .live } := by
    rw [Registry.setPhase_eq_update found,
      (Registry.changes_update found { module with phase := .live }).get?_new] at found'
    exact (Option.some.inj found').symm
  rw [live] at found''
  have result : host.finishLoad pending 0 = ((Host.release { host with
      registry := host.registry.setPhase pending.handle .live } pending.handle
        s!"{pending.name}: ").say .info s!"[module] Module '{pending.name}' loaded",
      .ok pending.handle) := by
    rw [finishLoad, if_neg (by simp)]
  rw [released] at accounted'' continues result
  exact ⟨module, registry, references, _, _, found, result, found'', accounted''.aside _ _,
    turns.continues (continues.trans (Continues.aside _ _ _))⟩

theorem Accounted.finishLoad_zero {pending : PendingLoad}
    (accounted : host.Accounted (pending.handle :: holders) []) :
    (host.finishLoad pending 0).1.Accounted holders [] ∧
      Turns host (host.finishLoad pending 0).1 pending.handle (some .live) ∧
      (host.finishLoad pending 0).1.memory = host.memory ∧
      (host.finishLoad pending 0).2 = .ok pending.handle := by
  rcases accounted.finishLoad_eq_ok with
    ⟨_, registry, _, journal, returns, _, result, _, accounted', turns⟩
  rw [result]
  exact ⟨accounted', turns, rfl, rfl⟩

/-- What becomes of a module whose init function failed: it goes, unless others hold
references on it. -/
theorem Accounted.discard (accounted : host.Accounted (handle :: holders) []) :
    (host.discard handle).Accounted holders [] ∧
      ∃ module, host.registry.get? handle = some module ∧
        Turns host (host.discard handle) handle
          (if module.references = 1 then none else some .initFailed) := by
  rcases accounted.release "" with
    ⟨module, registry, references, found, held, found', released, accounted', continues⟩
  have registry_eq : (host.returnReference handle).registry = registry := by
    rw [Host.returnReference, released]
  rw [← registry_eq] at found'
  unfold Host.discard
  simp only
  by_cases unused : references = 0
  · rcases Registry.remove_of_unused found' unused with ⟨registry', removed⟩
    rcases Accounted.remove accounted' removed with ⟨accountedAfter, turns, _⟩
    rw [removed]
    refine ⟨accountedAfter, module, found, ?_⟩
    rw [if_pos (by omega)]
    exact continues.turns turns
  · have refused := Registry.remove_of_used found' unused
    rcases Accounted.setPhase accounted' found' .initFailed with ⟨accountedAfter, turns⟩
    rw [refused]
    refine ⟨accountedAfter.aside _ _, module, found, ?_⟩
    rw [if_neg (by omega)]
    exact (continues.turns turns).continues (Continues.aside _ _ _)

theorem Accounted.finishLoad_nonzero {pending : PendingLoad} {code : Int}
    (accounted : host.Accounted (pending.handle :: holders) []) (failed : code ≠ 0) :
    (host.finishLoad pending code).1.Accounted holders [] ∧
      (host.finishLoad pending code).2 = .error (.initFailed code) ∧
      ∃ module, host.registry.get? pending.handle = some module ∧
        Turns host (host.finishLoad pending code).1 pending.handle
          (if module.references = 1 then none else some .initFailed) := by
  have said : Continues host
      (host.say .warn s!"[module] {pending.name}: module_init failed ({code})") :=
    Continues.aside _ _ _
  have accounted' : (host.say .warn
      s!"[module] {pending.name}: module_init failed ({code})").Accounted
        (pending.handle :: holders) [] := accounted.aside _ _
  rcases accounted'.discard with ⟨accounted'', module, found, turns⟩
  unfold finishLoad
  rw [if_pos failed]
  exact ⟨accounted'', rfl, module, found, said.turns turns⟩

/-! ## The halves of an unload -/

/-- An unload begins on a module without references that is not leaving yet; only a live
module's exit function is to run. -/
theorem Accounted.beginUnload_ok (accounted : host.Accounted holders []) {name : String}
    {pending : PendingUnload} (began : host.beginUnload name = (after, .ok pending)) :
    after.Accounted holders [] ∧ Turns host after pending.handle (some .finalizing) ∧
      ∃ module, host.registry.get? pending.handle = some module ∧ module.references = 0 ∧
        module.phase ≠ .finalizing ∧ after.registry.counted pending.handle = 0 ∧
        pending.exitEntry = if module.phase = .live then module.exitEntry else none := by
  unfold beginUnload at began
  split at began
  · simp at began
  · next handle named =>
      split at began
      · simp at began
      · next module found =>
          split at began
          · simp at began
          · next staying =>
              split at began
              · simp at began
              · next unused =>
                  simp only [Prod.mk.injEq, Except.ok.injEq] at began
                  rcases began with ⟨rfl, rfl⟩
                  rcases accounted.setPhase found .finalizing with ⟨accounted', turns⟩
                  have unused' := Decidable.not_not.mp unused
                  refine ⟨accounted', turns, module, found, unused', staying, ?_, rfl⟩
                  have changes := Registry.changes_update found
                    { module with phase := .finalizing }
                  rw [← Registry.setPhase_eq_update found] at changes
                  exact (Registry.counted_of_get? changes.get?_new).trans unused'

theorem beginUnload_error {name : String} {error : ModuleError}
    (failed : host.beginUnload name = (after, .error error)) : after = host := by
  unfold beginUnload at failed
  split at failed
  · simp only [Prod.mk.injEq] at failed
    exact failed.1.symm
  · split at failed
    · simp only [Prod.mk.injEq] at failed
      exact failed.1.symm
    · split at failed
      · simp only [Prod.mk.injEq] at failed
        exact failed.1.symm
      · split at failed
        · simp only [Prod.mk.injEq] at failed
          exact failed.1.symm
        · simp at failed

theorem Accounted.finishUnload {pending : PendingUnload} (accounted : host.Accounted holders [])
    (found : host.registry.get? pending.handle = some module) (unused : module.references = 0) :
    (host.finishUnload pending).1.Accounted holders [] ∧
      Turns host (host.finishUnload pending).1 pending.handle none ∧
      (host.finishUnload pending).2 = .ok () := by
  rcases Registry.remove_of_unused found unused with ⟨registry, removed⟩
  rcases accounted.remove removed with ⟨accounted', turns, _⟩
  have result : host.finishUnload pending =
      ((returnResources { host with registry } module).say .info
        s!"[module] Module '{pending.name}' unloaded", .ok ()) := by
    simp only [Host.finishUnload, removed]
  rw [result]
  exact ⟨accounted'.aside _ _,
    turns.continues (Continues.aside _ _ _), rfl⟩

/-! ## References from outside -/

theorem Accounted.acquire (accounted : host.Accounted holders []) {name : String}
    {reference : Reference} (acquired : host.acquire name = .ok (after, reference)) :
    after.Accounted (reference.handle :: holders) [] ∧ Continues host after := by
  unfold Host.acquire at acquired
  split at acquired
  · cases acquired
  · next handle named =>
      split at acquired
      · cases acquired
      · next registry count taken =>
          simp only [Except.ok.injEq, Prod.mk.injEq] at acquired
          rcases acquired with ⟨rfl, rfl⟩
          exact accounted.takeReference taken

theorem Accounted.dropReference {reference : Reference}
    (accounted : host.Accounted (reference.handle :: holders) []) :
    (host.dropReference reference).Accounted holders [] ∧
      Continues host (host.dropReference reference) := by
  rcases accounted.release s!"releasing reference to '{reference.name}': " with
    ⟨_, _, _, _, _, _, _, accounted', continues⟩
  exact ⟨accounted', continues⟩

end Host
end ModuleHost
