import ModuleHost.Proofs.Object
import ModuleHost.Proofs.Session.Soundness

namespace ModuleHost

/-!
# A failed load leaves no trace

A load can fail before it registers its module, and everything that staging took is then
returned; or its init function can fail, and the module is then taken out again.  If the
init function does not use the host, nobody has come to depend on the module meanwhile.
Either way the registry is what it was, and the pages that the load took count as
released.
-/

/-- How many bytes of a window are handed out and have not come back. -/
def Window.inUse (window : Window) : Nat :=
  window.cursor - window.releasedBytes

/-- What module code does without using the host. -/
def Operation.IsQuiet : Operation → Prop
  | .collect | .write _ _ => True
  | _ => False

namespace Host

/-- The same modules with the same counts, and as many pages in use. -/
structure Untouched (before after : Host) : Prop where
  entries_eq : after.registry.entries = before.registry.entries
  inUse_eq : ∀ kind, (after.arena.window kind).inUse = (before.arena.window kind).inUse
  cursor_le : ∀ kind, (before.arena.window kind).cursor ≤ (after.arena.window kind).cursor

variable {host middle after : Host} {holders : List Handle}

theorem Accounted.inUse_eq (accounted : host.Accounted holders []) (kind : WindowKind) :
    (host.arena.window kind).inUse = Arena.leasedBytes host.registry.leases kind := by
  have total := accounted.leased.total kind
  rw [List.nil_append] at total
  rw [Window.inUse, total, Nat.add_sub_cancel_left]

/-- If the same holders account for both hosts, nothing is in use that was not. -/
theorem Continues.untouched (continues : Continues host after)
    (accounted : host.Accounted holders []) (accounted' : after.Accounted holders []) :
    Untouched host after where
  entries_eq := (continues.alike.entries_eq accounted.balanced accounted'.balanced).symm
  inUse_eq kind := by
    rw [accounted.inUse_eq, accounted'.inUse_eq, continues.alike.leases_eq]
  cursor_le := continues.grows.cursor_le

/-- A module that comes and goes leaves the others behind. -/
theorem Turns.gone {handle : Handle} (turns : Turns host after handle none)
    (fresh : host.registry.get? handle = none) : Continues host after where
  settings_eq := turns.settings_eq
  exports_eq := turns.exports_eq
  zeroPage_eq := turns.zeroPage_eq
  alike := by
    apply turns.others.alike
    rw [fresh, Option.map_eq_none_iff.mp turns.phase_eq]
  closed other := by
    by_cases same : other = handle
    · intro phase here
      rw [same, Registry.phase?, fresh] at here
      cases here
    · exact turns.closed other same
  grows := turns.grows
  returns := turns.returns

/-- An init function that leaves modules and arena alone, and fails, undoes its load. -/
theorem Accounted.loaded_then_failed (accounted : host.Accounted holders []) {name : String}
    {image : List UInt8} {pending : PendingLoad} {code : Int}
    (began : host.beginLoad name image = (middle, .ok pending)) (memory : Memory)
    (journal : List Notice) (failed : code ≠ 0) :
    Untouched host (Host.finishLoad { middle with memory, journal } pending code).1 := by
  rcases accounted.beginLoad_ok began with
    ⟨accounted', fresh, turns, module, found, alone, _⟩
  have continues := Continues.aside middle memory journal
  have accounted'' := accounted'.aside memory journal
  rcases accounted''.finishLoad_nonzero failed with ⟨ended, _, module', found', turns'⟩
  rw [found, Option.some.injEq] at found'
  rw [← found', if_pos alone] at turns'
  have gone := ((turns.continues continues).trans turns').gone fresh
  exact gone.untouched accounted ended

end Host

namespace Session

variable {session after : Session}

/-- The modules, the pages in use, the references from outside and the calls in progress
are what they were. -/
structure Untouched (before after : Session) : Prop where
  host : before.host.Untouched after.host
  guards_eq : after.guards = before.guards
  calls_eq : after.calls = before.calls

/-- Quiet operations change memory and journal only. -/
theorem performAll_quiet {operations : List Operation}
    (quiet : ∀ operation ∈ operations, operation.IsQuiet) :
    ∃ memory journal, session.performAll operations =
      { session with host := { session.host with memory, journal } } := by
  induction operations generalizing session with
  | nil => exact ⟨_, _, rfl⟩
  | cons operation rest ih =>
      have first := quiet operation List.mem_cons_self
      have later : ∀ other ∈ rest, other.IsQuiet :=
        fun other member => quiet other (List.mem_cons_of_mem operation member)
      rcases @ih (session.perform operation) later with ⟨memory, journal, here⟩
      refine ⟨memory, journal, here.trans ?_⟩
      cases operation with
      | collect => rfl
      | write address bytes => rfl
      | load => cases first
      | unload => cases first
      | hookReturns => cases first
      | acquire => cases first
      | drop => cases first

/-- An init function that fails without having used the host undoes its load. -/
theorem untouched_of_settleLoad {host : Host} {name : String} {image : List UInt8}
    {pending : PendingLoad} (accounted : session.host.Accounted session.holders [])
    (began : session.host.beginLoad name image = (host, .ok pending)) {memory : Memory}
    {journal : List Notice} {back : Session}
    (state : back = { session with host := { host with memory, journal } }) {code : Int}
    {error : ModuleError} (ended : back.settleLoad pending code = (after, .failed error)) :
    error = .initFailed code ∧ session.Untouched after := by
  rcases accounted.beginLoad_ok began with ⟨accounted', _⟩
  have held : back.host.Accounted (pending.handle :: session.holders) [] := by
    rw [state]
    exact accounted'.aside _ _
  have outcome := congrArg Prod.snd ended
  by_cases succeeded : code = 0
  · subst succeeded
    rcases held.finishLoad_zero with ⟨_, _, _, done⟩
    rw [settleLoad_of_ok back done] at outcome
    cases outcome
  · rcases held.finishLoad_nonzero succeeded with ⟨_, failed, _⟩
    rw [settleLoad_of_error back failed] at outcome
    have reached : (back.settleLoad pending code).1 = after := congrArg Prod.fst ended
    rw [settleLoad_eq] at reached
    refine ⟨(Outcome.failed.inj outcome).symm, ?_⟩
    rw [← reached]
    subst state
    exact ⟨accounted.loaded_then_failed began memory journal succeeded, rfl, rfl⟩

/-- A load that returns an error leaves the session untouched and has called nothing.  A
load that comes to its init function has called only that; if the function does not use
the host and the load then returns an error, the error is that the function failed, and
the session before the load is untouched. -/
theorem failed_load_untouched (reachable : session.Reachable) (name : String)
    (image : List UInt8) :
    (∀ after error, session.load name image = (after, .failed error) → session.Untouched after) ∧
    ∀ middle entry, session.load name image = (middle, .calling entry) →
      ∃ pending : PendingLoad, middle.calls = .init pending :: session.calls ∧
        pending.initEntry = some entry ∧
        ∀ operations : List Operation, (∀ operation ∈ operations, operation.IsQuiet) →
          ∀ code after error,
            (middle.performAll operations).return? code = some (after, .failed error) →
              error = .initFailed code ∧ session.Untouched after := by
  have accounted := reachable.sound.accounted
  unfold load
  cases began : session.host.beginLoad name image with
  | mk host result =>
      cases result with
      | error error =>
          rcases accounted.beginLoad_error began with ⟨accounted', continues⟩
          refine ⟨?_, by simp⟩
          intro after error' failed
          simp only [Prod.mk.injEq] at failed
          rcases failed with ⟨rfl, _⟩
          exact ⟨continues.untouched accounted accounted', rfl, rfl⟩
      | ok pending =>
          cases entry : pending.initEntry with
          | none =>
              rcases accounted.beginLoad_ok began with ⟨accounted', _⟩
              rcases accounted'.finishLoad_zero with ⟨_, _, _, done⟩
              have outcome := settleLoad_of_ok { session with host } done
              simp [entry, Prod.ext_iff, outcome]
          | some address =>
              simp only [entry, Prod.mk.injEq, Outcome.calling.injEq]
              refine ⟨by simp, ?_⟩
              rintro middle _ ⟨rfl, rfl⟩
              refine ⟨pending, rfl, entry, ?_⟩
              intro operations quiet code after error returned
              rcases performAll_quiet quiet with ⟨memory, journal, here⟩
              rw [here] at returned
              exact untouched_of_settleLoad accounted began rfl (Option.some.inj returned)

set_option maxRecDepth 4096 in
/-- A word that is to be relocated by 32 bits to an address beyond 32 bits.  Its pages had
been taken when the relocation failed. -/
theorem failed_load_untouched_overflow :
    ∃ host after site, Host.create {} ⟨[]⟩ (.filled 0) 0 = .ok host ∧
      load { host } "self" (Object.selfPointing 10) =
        (after, .failed (.fixup (.overflow 10 site))) ∧
      Session.Untouched { host } after := by
  have ran : (Host.create {} ⟨[]⟩ (.filled 0) 0).toOption.map (fun host =>
      (load { host } "self" (Object.selfPointing 10)).2) =
        some (.failed (.fixup (.overflow 10 0xffffffffa8000004))) := by
    decide +kernel
  rcases Option.map_eq_some_iff.mp ran with ⟨host, found, outcome⟩
  have created := Host.create_of_toOption found
  have failed : load { host } "self" (Object.selfPointing 10) =
      ((load { host } "self" (Object.selfPointing 10)).1,
        .failed (.fixup (.overflow 10 0xffffffffa8000004))) := Prod.ext rfl outcome
  exact ⟨host, _, _, created, failed,
    (failed_load_untouched (.start created) "self" (Object.selfPointing 10)).1 _ _ failed⟩

end Session
end ModuleHost
