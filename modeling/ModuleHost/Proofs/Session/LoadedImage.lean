import ModuleHost.Proofs.Host.Image
import ModuleHost.Proofs.Session.Soundness

namespace ModuleHost

/-!
# The image of a loaded module

Whenever a load returns a handle, or comes to the init function of its module, the module
is registered and its image lies in memory as its object prescribes.  The symbols of other
objects are those that the session offered before the load.
-/

namespace Host

variable {host after : Host} {holders : List Handle}

/-- The first half of a load leaves the image of the module that it registers. -/
theorem Accounted.beginLoad_image (accounted : host.Accounted holders []) {name : String}
    {image : List UInt8} {pending : PendingLoad}
    (began : host.beginLoad name image = (after, .ok pending)) :
    pending.name = name ∧ ∃ object module, Object.ofImage image = .ok object ∧
      after.registry.get? pending.handle = some module ∧ module.name = name ∧
      module.sections = object.sections ∧
      LinkedImage.Faithful ⟨host, object, module.placements, module.stubPage, after.memory⟩ := by
  rcases beginLoad_eq_ok began with
    ⟨journal, object, staging, assembly, parsed, _, _, assembled, registered⟩
  have start : Staging.Sound host holders { host := { host with journal } } [] :=
    ⟨accounted.aside _ _, rfl, Continues.aside _ _ _⟩
  have faithful := start.faithful parsed assembled
  rcases register_eq_ok (start.assemble assembled).accounted.consistent registered with
    ⟨registry, changes, _, rfl, known⟩
  refine ⟨?_, object, _, parsed, changes.get?_new, rfl, rfl, faithful⟩
  rw [known]

end Host

namespace Session

variable {session after : Session} {outcome : Outcome}

/-- Where a load stands that has not failed: it has returned the handle of its module, or
the init function of the module is about to run. -/
def Reached (session after : Session) (name : String) (handle : Handle) : Outcome → Prop
  | .loaded result => result = handle
  | .calling entry => after.calls = .init ⟨name, handle, some entry⟩ :: session.calls
  | .unloaded | .failed _ => False

/-- The image of a module that has been loaded, or whose init function is about to run,
lies in memory. -/
theorem loaded_image (reachable : session.Reachable) (name : String) (image : List UInt8)
    (loads : session.load name image = (after, outcome))
    (unfailing : ∀ error, outcome ≠ .failed error) :
    ∃ object handle module, Object.ofImage image = .ok object ∧
      Reached session after name handle outcome ∧
      after.host.registry.get? handle = some module ∧ module.name = name ∧
      module.sections = object.sections ∧
      LinkedImage.Faithful
        ⟨session.host, object, module.placements, module.stubPage, after.host.memory⟩ := by
  have accounted := reachable.sound.accounted
  unfold load at loads
  cases began : session.host.beginLoad name image with
  | mk host result =>
      cases result with
      | error error =>
          simp only [began, Prod.mk.injEq] at loads
          exact absurd loads.2.symm (unfailing error)
      | ok pending =>
          rcases accounted.beginLoad_image began with
            ⟨same, object, module, parsed, found, named, sections, faithful⟩
          rcases accounted.beginLoad_ok began with ⟨accounted', _⟩
          simp only [began] at loads
          cases entry : pending.initEntry with
          | none =>
              rcases accounted'.finishLoad_eq_ok with
                ⟨module', registry, references, journal, returns, found', result, live, _⟩
              rw [found] at found'
              rcases Option.some.inj found'
              simp only [entry, settleLoad, result, Prod.mk.injEq] at loads
              rcases loads with ⟨rfl, rfl⟩
              exact ⟨object, pending.handle, _, parsed, rfl, live, named, sections, faithful⟩
          | some address =>
              simp only [entry, Prod.mk.injEq] at loads
              rcases loads with ⟨rfl, rfl⟩
              refine ⟨object, pending.handle, module, parsed, ?_, found, named, sections, faithful⟩
              rw [Reached, ← same, ← entry]

set_option maxRecDepth 4096 in
/-- A word that is relocated to the address four bytes behind its start.  It is zero in the
file; in memory it holds that address. -/
theorem loaded_image_selfPointing :
    ∃ host after object module, Host.create {} ⟨[]⟩ (.filled 0) 0 = .ok host ∧
      load { host } "self" (Object.selfPointing 1) = (after, .loaded ⟨0, 0⟩) ∧
      Object.ofImage (Object.selfPointing 1) = .ok object ∧
      after.host.registry.get? ⟨0, 0⟩ = some module ∧
      LinkedImage.Faithful
        ⟨host, object, module.placements, module.stubPage, after.host.memory⟩ ∧
      after.host.memory.read 0xffffffffa8000000 8 = Endian.bytes 8 0xffffffffa8000004 := by
  have ran : (Host.create {} ⟨[]⟩ (.filled 0) 0).toOption.map (fun host =>
      let (after, outcome) := load { host } "self" (Object.selfPointing 1)
      (outcome, after.host.memory.read 0xffffffffa8000000 8)) =
        some (.loaded ⟨0, 0⟩, Endian.bytes 8 0xffffffffa8000004) := by
    decide +kernel
  rcases Option.map_eq_some_iff.mp ran with ⟨host, found, left⟩
  rcases Prod.mk.inj left with ⟨outcome, bytes⟩
  have created := Host.create_of_toOption found
  have loads : load { host } "self" (Object.selfPointing 1) =
      ((load { host } "self" (Object.selfPointing 1)).1, .loaded ⟨0, 0⟩) := Prod.ext rfl outcome
  rcases loaded_image (.start created) "self" (Object.selfPointing 1) loads nofun with
    ⟨object, handle, module, parsed, reached, found, _, _, faithful⟩
  cases reached
  exact ⟨host, _, object, module, created, loads, parsed, found, faithful, bytes⟩

end Session
end ModuleHost
