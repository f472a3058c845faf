import ModuleHost.Host.Unload
import ModuleHost.Proofs.Arena.Cursors
import ModuleHost.Proofs.Registry.Alike

namespace ModuleHost

/-!
# Operations that write nothing

Whatever the host does but staging and registering a module leaves memory as it is and
registers nothing new: every module that is registered afterwards was registered before, in
the same place, with the same sections and stubs.  This holds of every state of a host.
-/

/-- What stays of a module as long as it is registered. -/
def LoadedModule.lasting (module : LoadedModule) : LoadedModule :=
  { module with references := 0, phase := .registered }

namespace Registry

/-- Every module that is registered afterwards was registered before. -/
def Persists (before after : Registry) : Prop :=
  ∀ handle module, after.get? handle = some module →
    ∃ earlier, before.get? handle = some earlier ∧ module.lasting = earlier.lasting

namespace Persists

variable {registry middle after : Registry} {handle : Handle} {module : LoadedModule}

theorem refl (registry : Registry) : Persists registry registry :=
  fun _ module found => ⟨module, found, rfl⟩

theorem trans (persists : Persists registry middle) (persists' : Persists middle after) :
    Persists registry after := by
  intro handle module found
  rcases persists' handle module found with ⟨earlier, found', same⟩
  rcases persists handle earlier found' with ⟨first, found'', same'⟩
  exact ⟨first, found'', same.trans same'⟩

/-- One entry is replaced, by the same module in another state or by nothing. -/
theorem of_changes {new : Option LoadedModule}
    (changes : Changes registry after handle (some module) new)
    (same : ∀ module', new = some module' → module'.lasting = module.lasting) :
    Persists registry after := by
  intro other module' found
  by_cases here : other = handle
  · subst here
    rw [changes.get?_new] at found
    exact ⟨module, changes.get?_old, same module' found⟩
  · rw [changes.get?_other here] at found
    exact ⟨module', found, rfl⟩

theorem update (found : registry.get? handle = some module) {new : LoadedModule}
    (same : new.lasting = module.lasting) : Persists registry (registry.update handle new) :=
  of_changes (changes_update found new) fun _ listed => Option.some.inj listed ▸ same

theorem acquire {count : Nat} (taken : registry.acquire handle = .ok (after, count)) :
    Persists registry after := by
  rcases acquire_eq_ok taken with ⟨module, found, _, rfl⟩
  exact update found rfl

theorem release {given : Release} (released : registry.release handle = .ok (after, given)) :
    Persists registry after := by
  unfold Registry.release at released
  split at released
  · cases released
  · next module found =>
      split at released
      · cases released
        exact refl registry
      · cases released
        exact update found rfl

theorem setPhase (registry : Registry) (handle : Handle) (phase : Phase) :
    Persists registry (registry.setPhase handle phase) := by
  cases found : registry.get? handle with
  | none =>
      rw [Registry.setPhase, found]
      exact refl registry
  | some module =>
      rw [setPhase_eq_update found]
      exact update found rfl

theorem remove (removed : registry.remove handle = .ok (after, module)) :
    Persists registry after :=
  of_changes (remove_eq_ok removed).2.2 nofun

end Persists

/-- Registries that differ in counts have the same modules. -/
theorem Alike.persists {before after : Registry} (alike : Alike before after) :
    Persists before after := by
  intro handle module found
  have same := alike handle
  rw [found] at same
  rcases Option.map_eq_some_iff.mp same with ⟨earlier, found', uncounted⟩
  refine ⟨earlier, found', ?_⟩
  have lasting : module.uncounted.lasting = earlier.uncounted.lasting :=
    congrArg LoadedModule.lasting uncounted.symm
  exact lasting

end Registry

namespace Host

/-- Memory is as before, and no module is new. -/
structure Quiet (before after : Host) : Prop where
  memory_eq : after.memory = before.memory
  zeroPage_eq : after.zeroPage = before.zeroPage
  grows : before.arena.Grows after.arena
  persists : before.registry.Persists after.registry

namespace Quiet

variable {host middle after : Host}

theorem refl (host : Host) : Quiet host host :=
  ⟨rfl, rfl, Arena.Grows.refl _, Registry.Persists.refl _⟩

theorem trans (quiet : Quiet host middle) (quiet' : Quiet middle after) : Quiet host after :=
  ⟨quiet'.memory_eq.trans quiet.memory_eq, quiet'.zeroPage_eq.trans quiet.zeroPage_eq,
    quiet.grows.trans quiet'.grows, quiet.persists.trans quiet'.persists⟩

/-- Only the journal is written. -/
theorem aside (host : Host) (journal : List Notice) : Quiet host { host with journal } :=
  ⟨rfl, rfl, Arena.Grows.refl _, Registry.Persists.refl _⟩

theorem of_persists {registry : Registry} (persists : host.registry.Persists registry) :
    Quiet host { host with registry } :=
  ⟨rfl, rfl, Arena.Grows.refl _, persists⟩

theorem say (quiet : Quiet host after) (severity : Severity) (text : String) :
    Quiet host (after.say severity text) :=
  quiet.trans (aside after _)

/-! ## Taking and giving back -/

theorem takePages (host : Host) (size : Nat) (window : WindowKind) :
    Quiet host (host.takePages size window).1 := by
  unfold Host.takePages
  split
  · next address arena given =>
      exact ⟨rfl, rfl, (Arena.allocate_eq_ok given).1, Registry.Persists.refl _⟩
  · exact aside host _

theorem returnPages (host : Host) (range : Range) : Quiet host (host.returnPages range) := by
  unfold Host.returnPages
  simp only
  split
  · next arena freed => exact ⟨rfl, rfl, Arena.grows_free freed, Registry.Persists.refl _⟩
  · exact ⟨rfl, rfl, Arena.Grows.refl _, Registry.Persists.refl _⟩

theorem release (host : Host) (handle : Handle) (occasion : String) :
    Quiet host (host.release handle occasion) := by
  unfold Host.release
  simp only
  split
  · next registry release released =>
      exact ⟨rfl, rfl, Arena.Grows.refl _, .release released⟩
  · exact ⟨rfl, rfl, Arena.Grows.refl _, Registry.Persists.refl _⟩

theorem returnReference (host : Host) (handle : Handle) :
    Quiet host (host.returnReference handle) :=
  release host handle ""

theorem returnAllPages (host : Host) (ranges : List Range) :
    Quiet host (host.returnAllPages ranges) :=
  List.foldlRecOn ranges _ (refl host) fun state here range _ =>
    here.trans (returnPages state range)

theorem returnAllReferences (host : Host) (handles : List Handle) :
    Quiet host (host.returnAllReferences handles) :=
  List.foldlRecOn handles _ (refl host) fun state here handle _ =>
    here.trans (returnReference state handle)

theorem returnResources (host : Host) (module : LoadedModule) :
    Quiet host (host.returnResources module) :=
  (returnAllPages host _).trans (returnAllReferences _ _)

/-! ## The halves that stage nothing -/

theorem discard (host : Host) (handle : Handle) : Quiet host (host.discard handle) := by
  have given := returnReference host handle
  unfold Host.discard
  simp only
  split
  · next registry module removed =>
      exact given.trans ((of_persists (.remove removed)).trans (returnResources _ module))
  · have marked := given.trans (of_persists
      (.setPhase (host.returnReference handle).registry handle .initFailed))
    split <;> exact marked.say _ _

theorem finishLoad (host : Host) (pending : PendingLoad) (code : Int) :
    Quiet host (host.finishLoad pending code).1 := by
  unfold Host.finishLoad
  split
  · exact ((refl host).say _ _).trans (discard _ _)
  · have live := of_persists (.setPhase host.registry pending.handle .live)
    exact (live.trans (release _ _ _)).say _ _

theorem beginUnload (host : Host) (name : String) : Quiet host (host.beginUnload name).1 := by
  unfold Host.beginUnload
  split
  · exact refl host
  · split
    · exact refl host
    · split
      · exact refl host
      · split
        · exact refl host
        · exact of_persists (.setPhase _ _ _)

theorem finishUnload (host : Host) (pending : PendingUnload) :
    Quiet host (host.finishUnload pending).1 := by
  unfold Host.finishUnload
  split
  · exact refl host
  · next registry module removed =>
      exact ((of_persists (.remove removed)).trans (returnResources _ module)).say _ _

theorem acquire {name : String} {reference : Reference}
    (acquired : host.acquire name = .ok (after, reference)) : Quiet host after := by
  unfold Host.acquire at acquired
  split at acquired
  · cases acquired
  · split at acquired
    · cases acquired
    · next registry count taken =>
        simp only [Except.ok.injEq, Prod.mk.injEq] at acquired
        rw [← acquired.1]
        exact of_persists (.acquire taken)

theorem dropReference (host : Host) (reference : Reference) :
    Quiet host (host.dropReference reference) :=
  release host reference.handle _

end Quiet
end Host

end ModuleHost
