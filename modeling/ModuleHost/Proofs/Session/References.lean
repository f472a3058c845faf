import ModuleHost.Proofs.Object
import ModuleHost.Proofs.Session.Soundness

namespace ModuleHost

/-!
# References are counted exactly

At every point of a run the count of a module is the number of references that somebody
holds: registered modules by their dependencies, a load while the module's init function
runs, and whoever took a reference from outside and has not let it go.  Every reference
that was given back was held, and whatever a registered module depends on is registered.
-/

namespace Session

/-- The init function of a module is running. -/
def initRunning (session : Session) (handle : Handle) : Bool :=
  session.calls.any fun call => call.pin? = some handle

/-- How many references on a module are held from outside. -/
def guardsOn (session : Session) (handle : Handle) : Nat :=
  session.guards.countP fun guard => guard.map Reference.handle = some handle

variable {session : Session}

/-! ## The count of each module -/

/-- The loads under way hold at most one reference on a module. -/
theorem count_pins {calls : List Call} (distinct : (calls.map Call.handle).Nodup)
    (handle : Handle) :
    (calls.filterMap Call.pin?).count handle =
      if calls.any (fun call => call.pin? = some handle) then 1 else 0 := by
  induction calls with
  | nil => rfl
  | cons call rest ih =>
      rw [List.map_cons, List.nodup_cons] at distinct
      have later := ih distinct.2
      cases call with
      | exit pending =>
          rw [List.filterMap_cons_none rfl, List.any_cons, later]
          rfl
      | init pending =>
          by_cases same : pending.handle = handle
          · subst same
            have absent : pending.handle ∉ rest.filterMap Call.pin? := by
              intro member
              rcases List.mem_filterMap.mp member with ⟨other, listed, pinned⟩
              cases other with
              | exit _ => cases pinned
              | init other =>
                  exact distinct.1 (List.mem_map.mpr ⟨_, listed, Option.some.inj pinned⟩)
            simp [Call.pin?, List.count_eq_zero.mpr absent]
          · simpa [Call.pin?, same] using later

theorem Sound.count_holders (sound : session.Sound) (handle : Handle) :
    session.holders.count handle =
      (if session.initRunning handle then 1 else 0) + session.guardsOn handle := by
  rw [holders, List.count_append, count_pins sound.distinct, List.count_filterMap]
  congr 1
  apply List.countP_congr
  intro guard _
  simp

/-- At every point of every run, the count of each module is the number of references that
registered modules, the load of the module and outside holders have on it, and every module
that a registered module depends on is registered.  Every reference that was given back so
far was held: its handle was not stale and the count not zero.  Each operation adds the
references that it gives back to those before. -/
theorem references_exact (reachable : session.Reachable) :
    (∀ handle module, session.host.registry.get? handle = some module →
      module.references = session.host.registry.bound handle +
        (if session.initRunning handle then 1 else 0) + session.guardsOn handle) ∧
    (∀ handle module, session.host.registry.get? handle = some module →
      ∀ provider ∈ module.dependencies, (session.host.registry.get? provider).isSome) ∧
    (∀ handle answer, .reference handle answer ∈ session.host.returns →
      ∃ remaining, answer = .ok (.returned remaining)) ∧
    ∀ operation, session.host.returns <:+ (session.perform operation).host.returns := by
  have sound := reachable.sound
  refine ⟨?_, ?_, ?_, sound.returns_perform⟩
  · intro handle module found
    have equation := sound.accounted.balanced handle
    rw [Registry.counted_of_get? found, sound.count_holders, ← Nat.add_assoc] at equation
    exact equation
  · intro handle module found provider depends
    have listed := (Registry.get?_eq_some_iff _ _ _).mp found
    rcases sound.accounted.balanced.exists_of_bound listed depends with ⟨other, found', _⟩
    rw [found']
    rfl
  · intro handle answer noted
    exact sound.accounted.recorded.accepted _ noted

set_option maxRecDepth 4096 in
/-- A module on which a reference is taken and let go again.  Its load has given back one
reference and the holder gives back the second; both were held. -/
theorem references_exact_acquired :
    ∃ host held after module, Host.create {} ⟨[]⟩ (.filled 0) 0 = .ok host ∧
      performAll { host } [.load "self" (Object.selfPointing 1), .acquire "self"] = held ∧
      held.host.registry.get? ⟨0, 0⟩ = some module ∧ held.guardsOn ⟨0, 0⟩ = 1 ∧
      module.references = held.host.registry.bound ⟨0, 0⟩ +
        (if held.initRunning ⟨0, 0⟩ then 1 else 0) + held.guardsOn ⟨0, 0⟩ ∧
      held.host.returns.length = 1 ∧ held.perform (.drop 0) = after ∧
      after.host.returns.length = 2 ∧ held.host.returns <:+ after.host.returns ∧
      ∀ handle answer, .reference handle answer ∈ after.host.returns →
        ∃ remaining, answer = .ok (.returned remaining) := by
  have ran : (Host.create {} ⟨[]⟩ (.filled 0) 0).toOption.map (fun host =>
      let held := performAll { host } [.load "self" (Object.selfPointing 1), .acquire "self"]
      ((held.host.registry.get? ⟨0, 0⟩).isSome, held.guardsOn ⟨0, 0⟩,
        held.host.returns.length, (held.perform (.drop 0)).host.returns.length)) =
          some (true, 1, 1, 2) := by
    decide +kernel
  rcases Option.map_eq_some_iff.mp ran with ⟨host, found, outcome⟩
  have created := Host.create_of_toOption found
  rcases Prod.mk.inj outcome with ⟨registered, rest⟩
  rcases Prod.mk.inj rest with ⟨guarded, rest⟩
  rcases Prod.mk.inj rest with ⟨once, twice⟩
  rcases Option.isSome_iff_exists.mp registered with ⟨module, found⟩
  have reachable : Reachable _ :=
    .step (.step (.start created) (.load "self" (Object.selfPointing 1))) (.acquire "self")
  rcases references_exact reachable with ⟨counted, _, _, kept⟩
  exact ⟨host, _, _, module, created, rfl, found, guarded, counted _ _ found, once, rfl, twice,
    kept _, (references_exact (reachable.step (.drop 0))).2.2.1⟩

end Session
end ModuleHost
