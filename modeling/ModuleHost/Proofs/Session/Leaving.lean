import ModuleHost.Proofs.Arena.Releases
import ModuleHost.Proofs.Session.Closing
import ModuleHost.Proofs.Session.Conservation
import ModuleHost.Proofs.Session.Unloading

namespace ModuleHost

/-!
# An unload does everything or nothing

An unload is refused before anything happens, or it runs to its end.  In between the exit
function may do whatever it likes, loads, unloads and references included, as long as what it
starts has returned when it returns.  The leaving module is closed all the while, so nobody
gets hold of it and nothing stands in the way of its removal.
-/

namespace Registry

/-- The registry stands in the way of an unload, for the reason that the error tells. -/
inductive BarsUnload (registry : Registry) (name : String) : ModuleError → Prop
  | unknown (unknown : registry.find? name = none) : BarsUnload registry name (.notFound name)
  | leaving (handle : Handle) (module : LoadedModule) (named : registry.find? name = some handle)
      (found : registry.get? handle = some module) (leaving : module.phase = .finalizing) :
      BarsUnload registry name (.unloading name)
  | used (handle : Handle) (module : LoadedModule) (named : registry.find? name = some handle)
      (found : registry.get? handle = some module) (staying : module.phase ≠ .finalizing)
      (used : module.references ≠ 0) : BarsUnload registry name (.inUse name module.references)

end Registry

namespace Host

variable {host after : Host} {holders handles : List Handle} {loose leases : List Lease}
variable {handle : Handle} {module : LoadedModule}

theorem beginUnload_of_barred {name : String} {error : ModuleError}
    (barred : host.registry.BarsUnload name error) :
    host.beginUnload name = (host, .error error) := by
  cases barred with
  | unknown unknown => simp only [beginUnload, unknown]
  | leaving handle module named found leaving =>
      simp only [beginUnload, named, found, if_pos leaving]
  | used handle module named found staying used =>
      simp only [beginUnload, named, found, if_neg staying, if_pos used]

/-- An unload that is not refused marks its module. -/
theorem beginUnload_cases (host : Host) (name : String) :
    (∃ error, host.registry.BarsUnload name error) ∨
      ∃ pending module, host.registry.find? name = some pending.handle ∧
        host.registry.get? pending.handle = some module ∧ module.references = 0 ∧
        host.beginUnload name =
          ({ host with registry := host.registry.setPhase pending.handle .finalizing },
            .ok pending) := by
  cases named : host.registry.find? name with
  | none => exact .inl ⟨_, .unknown named⟩
  | some handle =>
      rcases Registry.find?_eq_some named with ⟨module, found, _⟩
      by_cases leaving : module.phase = .finalizing
      · exact .inl ⟨_, .leaving handle module named found leaving⟩
      · by_cases unused : module.references = 0
        · refine .inr ⟨⟨name, handle, if module.phase = .live then module.exitEntry else none⟩,
            module, rfl, found, unused, ?_⟩
          simp only [beginUnload, named, found, if_neg leaving, unused, ne_eq, not_true_eq_false,
            if_false]
        · exact .inl ⟨_, .used handle module named found leaving unused⟩

/-! ## Taking a module out -/

/-- Every module loses the references that are given back on it, and nothing else. -/
theorem Accounted.get?_returnAllReferences (accounted : host.Accounted (handles ++ holders) loose)
    (other : Handle) : host.registry.get? other =
      ((host.returnAllReferences handles).registry.get? other).map fun module =>
        { module with references := module.references + handles.count other } := by
  induction handles generalizing host with
  | nil => exact Option.map_id'.symm
  | cons handle rest ih =>
      rcases accounted.balanced.release with ⟨module, references, found, held, released, _⟩
      have changes := Registry.changes_update found { module with references }
      have registry : (host.returnReference handle).registry =
          host.registry.update handle { module with references } := by
        rw [Host.returnReference, release_of_returned released]
      have later := ih accounted.returnReference.1
      rw [registry] at later
      show _ = (((host.returnReference handle).returnAllReferences rest).registry.get? other).map _
      by_cases same : other = handle
      · subst same
        rw [changes.get?_new] at later
        rcases Option.map_eq_some_iff.mp later.symm with ⟨final, found', equal⟩
        rw [found, found', Option.map_some, List.count_cons_self, ← Nat.add_assoc]
        have raised := congrArg
          (fun module : LoadedModule => { module with references := module.references + 1 }) equal
        rw [show ({ module with references := references + 1 } : LoadedModule) = module by
          rw [← held]] at raised
        exact congrArg some raised.symm
      · rw [List.count_cons_of_ne (Ne.symm same), ← changes.get?_other same]
        exact later

theorem Accounted.timesReleased_returnAllPages
    (accounted : host.Accounted holders (leases ++ loose)) (address : Address) :
    (host.returnAllPages (leases.map Lease.range)).arena.timesReleased address =
      host.arena.timesReleased address + leases.countP fun lease => lease.pages.Has address := by
  induction leases generalizing host with
  | nil => rfl
  | cons lease rest ih =>
      rcases accounted.leased.free with ⟨arena, freed, _⟩
      have first : (host.returnPages lease.range).arena = arena := by
        rw [returnPages_of_free freed]
      have once := accounted.leased.arena_sound.timesReleased_free freed address
      have rounds := (accounted.leased.inside lease List.mem_cons_self).rounds
      have later := ih accounted.returnPages.1
      rw [first, once, ← Lease.pages_eq rounds] at later
      refine later.trans ?_
      simp only [List.countP_cons, decide_eq_true_eq]
      omega

/-- A module without references is taken out, and what it had is then held outside. -/
theorem Accounted.removal (accounted : host.Accounted holders [])
    (found : host.registry.get? handle = some module) (unused : module.references = 0) :
    ∃ registry, host.registry.remove handle = .ok (registry, module) ∧
      host.registry.Changes registry handle (some module) none ∧
      Accounted { host with registry } (module.dependencies ++ holders) (module.leases ++ []) := by
  rcases Registry.remove_of_unused found unused with ⟨registry, removed⟩
  rcases Registry.remove_eq_ok removed with ⟨_, _, changes⟩
  exact ⟨registry, removed, changes, accounted.takeOut removed⟩

/-- What a module without references leaves behind when it is taken out. -/
structure Departs (before after : Host) (handle : Handle) (module : LoadedModule) : Prop where
  gone : after.registry.get? handle = none
  /-- Its name is free again. -/
  unknown : after.registry.find? module.name = none
  /-- Each of the others has lost the references that the module held on it. -/
  others : ∀ other, other ≠ handle → before.registry.get? other =
    (after.registry.get? other).map fun held =>
      { held with references := held.references + module.dependencies.count other }
  returned : ∀ address, module.Owns address →
    before.arena.timesReleased address = 0 ∧ after.arena.timesReleased address = 1
  untouched : ∀ address, ¬module.Owns address →
    after.arena.timesReleased address = before.arena.timesReleased address

/-- The name of a module that is gone is unknown, since no other had it. -/
theorem find?_eq_none_of_gone (consistent : host.registry.Consistent)
    (found : host.registry.get? handle = some module)
    (gone : after.registry.get? handle = none)
    (others : ∀ other, other ≠ handle → (host.registry.get? other).map (·.name) =
      (after.registry.get? other).map (·.name)) :
    after.registry.find? module.name = none := by
  cases named : after.registry.find? module.name with
  | none => rfl
  | some other =>
      rcases Registry.find?_eq_some named with ⟨held, found', same⟩
      have different : other ≠ handle := by
        rintro rfl
        rw [gone] at found'
        cases found'
      have earlier := others other different
      rw [found', Option.map_some, same] at earlier
      rcases Option.map_eq_some_iff.mp earlier with ⟨namesake, found'', same'⟩
      have both := (consistent.find?_eq_some_iff module.name other).mpr ⟨namesake, found'', same'⟩
      have alone := (consistent.find?_eq_some_iff module.name handle).mpr ⟨module, found, rfl⟩
      exact absurd (Option.some.inj (both.symm.trans alone)) different

theorem Accounted.departs (accounted : host.Accounted holders []) {pending : PendingUnload}
    (found : host.registry.get? pending.handle = some module) (unused : module.references = 0) :
    host.finishUnload pending = ((host.finishUnload pending).1, .ok ()) ∧
      Departs host (host.finishUnload pending).1 pending.handle module := by
  rcases accounted.finishUnload found unused with ⟨_, turns, done⟩
  refine ⟨Prod.ext rfl done, ?_⟩
  rcases accounted.removal found unused with ⟨registry, removed, changes, emptied⟩
  have leased : Arena.Leased _ (module.leases ++ registry.leases) :=
    List.append_nil module.leases ▸ emptied.leased
  have result : (host.finishUnload pending).1 =
      ((({ host with registry } : Host).returnAllPages
        (module.leases.map Lease.range)).returnAllReferences module.dependencies).say .info
          s!"[module] Module '{pending.name}' unloaded" := by
    simp only [Host.finishUnload, removed, returnResources, module.ranges_eq]
  have others (other : Handle) (different : other ≠ pending.handle) :
      host.registry.get? other = ((host.finishUnload pending).1.registry.get? other).map
        fun held =>
          { held with references := held.references + module.dependencies.count other } := by
    rcases emptied.returnAllPages with ⟨emptied', _, kept, _⟩
    have lost := emptied'.get?_returnAllReferences other
    rw [kept] at lost
    rw [result, ← changes.get?_other different]
    exact lost
  have released (address : Address) : (host.finishUnload pending).1.arena.timesReleased address =
      host.arena.timesReleased address +
        module.leases.countP fun lease => lease.pages.Has address := by
    rcases emptied.returnAllPages.1.returnAllReferences with ⟨_, _, arena, _⟩
    rw [result, ← emptied.timesReleased_returnAllPages address]
    exact congrArg (Arena.timesReleased · address) arena
  have owns (address : Address) :
      module.Owns address ↔ ∃ lease ∈ module.leases, lease.pages.Has address :=
    LoadedModule.owns_iff (fun lease listed =>
      (leased.inside lease (List.mem_append_left _ listed)).rounds) address
  have gone := Option.map_eq_none_iff.mp turns.phase_eq
  refine ⟨gone, find?_eq_none_of_gone accounted.consistent found gone fun other different => ?_,
    others, fun address own => ?_, fun address foreign => ?_⟩
  · rw [others other different, Option.map_map]
    rfl
  · rcases (owns address).mp own with ⟨lease, listed, inside⟩
    have never : host.arena.timesReleased address = 0 :=
      leased.timesReleased_eq_zero (List.mem_append_left _ listed) inside
    refine ⟨never, ?_⟩
    rw [released, never, Nat.zero_add]
    exact Arena.countP_has_of_apart (List.pairwise_append.mp leased.apart).1 listed inside
  · rw [released, List.countP_eq_zero.mpr fun lease listed => ?_, Nat.add_zero]
    rw [decide_eq_true_eq]
    exact fun inside => foreign ((owns address).mpr ⟨lease, listed, inside⟩)

end Host

namespace Session

variable {session : Session} {handle : Handle} {module : LoadedModule}

/-! ## A registered module remains itself -/

theorem lasting_of_uncounted {first second : LoadedModule}
    (same : first.uncounted = second.uncounted) : first.lasting = second.lasting := by
  have lasting : first.uncounted.lasting = second.uncounted.lasting :=
    congrArg LoadedModule.lasting same
  exact lasting

theorem Sound.lasting_advance (sound : session.Sound) {half : Half} {later : LoadedModule}
    (found : session.host.registry.get? handle = some module)
    (found' : (session.advance half).host.registry.get? handle = some later) :
    later.lasting = module.lasting := by
  by_cases loading : ∃ name image, half = .beginLoad name image
  · rcases loading with ⟨name, image, rfl⟩
    have effect := (sound.advance (.beginLoad name image)).2
    generalize session.advance (.beginLoad name image) = after at effect found'
    have alike (same : (session.host.registry.get? handle).map LoadedModule.uncounted =
        (after.host.registry.get? handle).map LoadedModule.uncounted) :
        later.lasting = module.lasting := by
      rw [found, found'] at same
      exact (lasting_of_uncounted (Option.some.inj same)).symm
    cases effect with
    | continues continues _ => exact alike (continues.alike handle)
    | registers pending _ fresh turns _ _ _ =>
        refine alike (turns.others handle ?_)
        rintro rfl
        rw [fresh] at found
        cases found
  · rcases session.persists_advance (fun name image same => loading ⟨name, image, same⟩) handle
      later found' with ⟨earlier, found'', same⟩
    rw [same, Option.some.inj (found''.symm.trans found)]

theorem Sound.lasting_perform (sound : session.Sound) {operation : Operation}
    {later : LoadedModule} (found : session.host.registry.get? handle = some module)
    (found' : (session.perform operation).host.registry.get? handle = some later) :
    later.lasting = module.lasting := by
  cases split : session.halves operation with
  | nil =>
      rw [perform_eq, split, List.foldl_nil, found] at found'
      rw [Option.some.inj found']
  | cons first rest =>
      rcases session.persists_perform split handle later found' with ⟨middle, found'', same⟩
      exact same.trans (sound.lasting_advance found found'')

/-! ## What an exit function may do -/

/-- The operations of module code that is called: what they call returns before it does. -/
structure Nested (session : Session) (operations : List Operation) : Prop where
  during : ∀ front, front <+: operations →
    session.calls <:+ (session.performAll front).calls
  ended : (session.performAll operations).calls = session.calls

instance (session : Session) (operations : List Operation) :
    Decidable (session.Nested operations) :=
  decidable_of_iff
    ((∀ front ∈ operations.inits, session.calls <:+ (session.performAll front).calls) ∧
      (session.performAll operations).calls = session.calls)
    ⟨fun holds => ⟨fun front leading => holds.1 front ((List.mem_inits _ _).mpr leading), holds.2⟩,
      fun nested => ⟨fun front listed => nested.during front ((List.mem_inits _ _).mp listed),
        nested.ended⟩⟩

/-- What is done while a module is leaving: the operations of its exit function, if that is
called. -/
def exitOperations (exit : Address → Session → List Operation) (session : Session)
    (name : String) : List Operation :=
  match session.unload name with
  | (called, .calling entry) => exit entry called
  | _ => []

/-- What a registered module owns has not come back. -/
theorem Sound.timesReleased_eq_zero (sound : session.Sound)
    (found : session.host.registry.get? handle = some module) {address : Address}
    (owns : module.Owns address) : session.host.arena.timesReleased address = 0 := by
  rcases (sound.owns_iff found address).mp owns with ⟨lease, listed, inside⟩
  exact sound.accounted.leased.timesReleased_eq_zero (mem_leases found listed) inside

/-- While the exit function runs, its module stays as it is. -/
theorem Sound.remains (sound : session.Sound) {pending : PendingUnload}
    (running : .exit pending ∈ session.calls)
    (found : session.host.registry.get? pending.handle = some module)
    (operations : List Operation)
    (during : ∀ front, front <+: operations → session.calls <:+ (session.performAll front).calls) :
    (session.performAll operations).host.registry.get? pending.handle = some module := by
  have here {state : Session} (sound : state.Sound) (running : .exit pending ∈ state.calls)
      {later : LoadedModule} (found : state.host.registry.get? pending.handle = some later) :
      later.phase = .finalizing ∧ later.references = 0 := by
    have phase := sound.phase_of_call _ running
    have unused := sound.unused _ running rfl
    rw [Call.handle] at phase unused
    rw [Registry.phase?, found, Option.map_some] at phase
    rw [Registry.counted_of_get? found] at unused
    exact ⟨Option.some.inj phase, unused⟩
  induction operations using List.reverseRecOn with
  | nil => exact found
  | append_singleton operations operation ih =>
      have earlier := ih fun front leading => during front (leading.trans (List.prefix_append _ _))
      have still := (during _ (List.prefix_refl _)).mem running
      have sound' := sound.performAll (operations ++ [operation])
      rcases Option.map_eq_some_iff.mp (sound'.phase_of_call _ still) with ⟨later, found', _⟩
      have found'' : (session.performAll (operations ++ [operation])).host.registry.get?
          pending.handle = some later := found'
      have same : later.lasting = module.lasting := by
        rw [performAll_concat] at found''
        exact (sound.performAll operations).lasting_perform earlier found''
      rcases here sound' still found'' with ⟨phase, references⟩
      rcases here sound running found with ⟨phase', references'⟩
      rw [found'']
      cases later
      cases module
      cases phase
      cases phase'
      cases references
      cases references'
      exact congrArg (fun module : LoadedModule => some { module with phase := .finalizing }) same

/-- An unload that is not refused, with what its module's exit function does: the module is
marked, stays as it is while the function runs, and is taken out. -/
structure Unloads (session : Session) (name : String) (operations : List Operation)
    (after : Session) (handle : Handle) (module : LoadedModule) : Prop where
  named : session.host.registry.find? name = some handle
  found : session.host.registry.get? handle = some module
  marked : (session.advance (.beginUnload name)).host =
    { session.host with registry := session.host.registry.setPhase handle .finalizing }
  remains : ∀ front, front <+: operations →
    ((session.advance (.beginUnload name)).performAll front).host.registry.get? handle =
      some { module with phase := .finalizing }
  unreturned : ∀ front, front <+: operations → ∀ address, module.Owns address →
    ((session.advance (.beginUnload name)).performAll front).host.arena.timesReleased address = 0
  departs : ((session.advance (.beginUnload name)).performAll operations).host.Departs after.host
    handle module
  guards_eq : after.guards =
    ((session.advance (.beginUnload name)).performAll operations).guards
  calls_eq : after.calls = session.calls

variable {exit : Address → Session → List Operation} {name : String}

theorem unload_of_barred {error : ModuleError}
    (barred : session.host.registry.BarsUnload name error) :
    session.unload name = (session, .failed error) := by
  simp only [unload, Host.beginUnload_of_barred barred]

theorem unloadWith_of_barred {error : ModuleError}
    (barred : session.host.registry.BarsUnload name error) :
    session.unloadWith exit name = (session, .failed error) := by
  simp only [unloadWith, unload_of_barred barred]

theorem settleUnload_ne_calling (session : Session) (pending : PendingUnload) (entry : Address) :
    (session.settleUnload pending).2 ≠ .calling entry := by
  unfold settleUnload
  split <;> nofun

/-- The second half of an unload comes after what the exit function does. -/
theorem unloadWith_eq {host after : Host} {pending : PendingUnload}
    (began : session.host.beginUnload name = (host, .ok pending))
    (nested : (session.advance (.beginUnload name)).Nested (session.exitOperations exit name))
    (finished : ((session.advance (.beginUnload name)).performAll
      (session.exitOperations exit name)).host.finishUnload pending = (after, .ok ())) :
    session.unloadWith exit name =
      ({ (session.advance (.beginUnload name)).performAll (session.exitOperations exit name) with
        host := after, calls := session.calls }, .unloaded) := by
  have called : session.advance (.beginUnload name) =
      { session with host, calls := .exit pending :: session.calls } := by
    simp only [advance, began]
  rw [called] at nested finished ⊢
  cases entry : pending.exitEntry with
  | none =>
      have nothing : session.exitOperations exit name = [] := by
        simp only [exitOperations, unload, began, entry]
        split
        · next same => exact absurd (congrArg Prod.snd same) (settleUnload_ne_calling _ _ _)
        · rfl
      rw [nothing] at finished ⊢
      have settled := settleUnload_of_ok { session with host } finished
      simp only [unloadWith, unload, began, entry, settled]
      rfl
  | some address =>
      have unloading : session.unload name =
          ({ session with host, calls := .exit pending :: session.calls }, .calling address) := by
        simp only [unload, began, entry]
      have doing : session.exitOperations exit name =
          exit address { session with host, calls := .exit pending :: session.calls } := by
        simp only [exitOperations, unloading]
      rw [doing] at nested finished ⊢
      simp only [unloadWith, unloading, return?, nested.ended]
      exact congrArg (fun done => (some done).getD _) (settleUnload_of_ok
        { performAll _ _ with calls := session.calls } finished)

/-- Without an exit function to call, nothing is done in between. -/
theorem nested_exitOperations {host : Host} {pending : PendingUnload}
    (began : session.host.beginUnload name = (host, .ok pending))
    (nested : ∀ called entry, session.unload name = (called, .calling entry) →
      called.Nested (exit entry called)) :
    (session.advance (.beginUnload name)).Nested (session.exitOperations exit name) := by
  unfold exitOperations
  split
  · next reached entry unloading =>
      have same : session.advance (.beginUnload name) = reached := by
        cases hook : pending.exitEntry with
        | none =>
            simp only [unload, began, hook] at unloading
            exact absurd (congrArg Prod.snd unloading) (settleUnload_ne_calling _ _ _)
        | some address =>
            simp only [unload, began, hook, Prod.mk.injEq] at unloading
            simp only [advance, began, unloading.1]
      exact same ▸ nested reached entry unloading
  · exact ⟨fun front leading => List.prefix_nil.mp leading ▸ List.suffix_refl _, rfl⟩

theorem Sound.unloads (sound : session.Sound)
    (nested : ∀ called entry, session.unload name = (called, .calling entry) →
      called.Nested (exit entry called))
    (ready : ∀ error, ¬session.host.registry.BarsUnload name error) :
    ∃ after handle module, session.unloadWith exit name = (after, .unloaded) ∧
      Unloads session name (session.exitOperations exit name) after handle module := by
  rcases session.host.beginUnload_cases name with ⟨error, barred⟩ | began
  · exact absurd barred (ready error)
  rcases began with ⟨pending, module, named, found, unused, began⟩
  have nested' := nested_exitOperations began nested
  have sound' := (sound.advance (.beginUnload name)).1
  have called : session.advance (.beginUnload name) =
      { session with
        host.registry := session.host.registry.setPhase pending.handle .finalizing
        calls := .exit pending :: session.calls } := by
    simp only [Session.advance, began]
  have running : Call.exit pending ∈ (session.advance (.beginUnload name)).calls := by
    rw [called]
    exact List.mem_cons_self
  have marked : (session.advance (.beginUnload name)).host.registry.get? pending.handle =
      some { module with phase := .finalizing } := by
    rw [called]
    show (session.host.registry.setPhase pending.handle .finalizing).get? pending.handle = _
    rw [Registry.setPhase_eq_update found]
    exact (Registry.changes_update found _).get?_new
  have remains (front : List Operation) (leading : front <+: session.exitOperations exit name) :
      ((session.advance (.beginUnload name)).performAll front).host.registry.get? pending.handle =
        some { module with phase := .finalizing } :=
    sound'.remains running marked front fun earlier leading' =>
      nested'.during earlier (leading'.trans leading)
  rcases (sound'.performAll (session.exitOperations exit name)).accounted.departs
    (remains _ (List.prefix_refl _)) unused with ⟨finished, departs⟩
  refine ⟨_, pending.handle, module, unloadWith_eq began nested' finished, named, found, ?_,
    remains, ?_, ?_, rfl, rfl⟩
  · rw [called]
  · exact fun front leading address owns =>
      (sound'.performAll front).timesReleased_eq_zero (remains front leading) owns
  · exact ⟨departs.gone, departs.unknown, departs.others, departs.returned, departs.untouched⟩

/-- An unload is refused because its module is unknown, leaving or in use, and then it changes
nothing and calls nothing; or it takes its module out, whatever the exit function does in the
meantime.  While a module is failed or leaving, nobody gets hold of it, and it is leaving only
while its unload is under way. -/
theorem unload_all_or_nothing (reachable : session.Reachable)
    (exit : Address → Session → List Operation) (name : String)
    (nested : ∀ called entry, session.unload name = (called, .calling entry) →
      called.Nested (exit entry called)) :
    (∀ after error, session.unloadWith exit name = (after, .failed error) →
      session.host.registry.BarsUnload name error ∧ after = session) ∧
    (∀ error, session.host.registry.BarsUnload name error →
      session.unload name = (session, .failed error) ∧
      session.unloadWith exit name = (session, .failed error)) ∧
    ((∀ error, ¬session.host.registry.BarsUnload name error) →
      ∃ after handle module, session.unloadWith exit name = (after, .unloaded) ∧
        Unloads session name (session.exitOperations exit name) after handle module) ∧
    (∀ handle, session.host.registry.Closed handle →
      (∀ symbol address, session.host.registry.resolve? symbol ≠ some (handle, address)) ∧
      (∀ other, session.host.registry.find? other = some handle →
        session.acquire other = .error (.unloading other)) ∧
      ∀ operations, (∀ front, front <+: operations →
          (session.performAll front).host.registry.get? handle ≠ none) →
        session.host.registry.StaysClosed (session.performAll operations).host.registry handle) ∧
    ∀ handle, session.host.registry.phase? handle = some .finalizing →
      ∃ pending, .exit pending ∈ session.calls ∧ pending.handle = handle := by
  have sound := reachable.sound
  refine ⟨?_, fun error barred => ⟨unload_of_barred barred, unloadWith_of_barred barred⟩,
    sound.unloads nested, ?_, ?_⟩
  · intro after error failed
    by_cases ready : ∀ error, ¬session.host.registry.BarsUnload name error
    · rcases sound.unloads nested ready with ⟨done, _, _, unloaded, _⟩
      rw [unloaded] at failed
      cases failed
    · rcases not_forall_not.mp ready with ⟨cause, barred⟩
      rw [unloadWith_of_barred barred] at failed
      cases failed
      exact ⟨barred, rfl⟩
  · intro handle closed
    refine ⟨closed.unresolved, fun other named => ?_, sound.closed_performAll closed⟩
    rcases closed.get? with ⟨module, found, shut⟩
    rcases Registry.find?_eq_some named with ⟨module', found', rfl⟩
    rw [Option.some.inj (found'.symm.trans found)] at named ⊢
    simp only [acquire, Host.acquire, named, Registry.acquire_of_closed found shut]
  · intro handle leaving
    rcases sound.call_of_phase handle _ leaving (.inr rfl) with ⟨call, listed, rfl⟩
    cases call with
    | exit pending => exact ⟨pending, listed, rfl⟩
    | init pending =>
        have registered := sound.phase_of_call _ listed
        rw [leaving] at registered
        cases registered

set_option maxRecDepth 4096 in
/-- An exit function that asks for a reference on its own module, loads another module that
binds to the same provider, and tries to unload its own module again. -/
theorem unload_all_or_nothing_reentered :
    ∃ host, Host.create {} ⟨[]⟩ (.filled 0) 0 = .ok host ∧
      let session := performAll { host }
        [.load "shares" (Object.sharing 3 2), .load "leaves" Object.departing]
      let exit := fun _ _ =>
        [.acquire "leaves", .load "asks" (Object.sharing 3 0), .unload "leaves"]
      session.host.registry.counted ⟨0, 0⟩ = 1 ∧
      ∃ after handle module, session.unloadWith exit "leaves" = (after, .unloaded) ∧
        after.host.registry.counted ⟨0, 0⟩ = 1 ∧
        (after.host.registry.entries.map fun entry => entry.2.name) = ["shares", "asks"] ∧
        Unloads session "leaves" (session.exitOperations exit "leaves") after handle module := by
  have ran : (Host.create {} ⟨[]⟩ (.filled 0) 0).toOption.map (fun host =>
      let session := performAll { host }
        [.load "shares" (Object.sharing 3 2), .load "leaves" Object.departing]
      let operations : List Operation :=
        [.acquire "leaves", .load "asks" (Object.sharing 3 0), .unload "leaves"]
      let after := (session.unloadWith (fun _ _ => operations) "leaves").1.host.registry
      (session.host.registry.counted ⟨0, 0⟩, (session.unload "leaves").2,
        decide ((session.unload "leaves").1.Nested operations),
        after.counted ⟨0, 0⟩, after.entries.map fun entry => entry.2.name)) =
      some (1, .calling 0xffffffffa8001000, true, 1, ["shares", "asks"]) := by
    decide +kernel
  rcases Option.map_eq_some_iff.mp ran with ⟨host, found, outcome⟩
  have created := Host.create_of_toOption found
  simp only [Prod.mk.injEq, decide_eq_true_eq] at outcome
  rcases outcome with ⟨counted, calls, nested, counted', names⟩
  have reachable : Reachable _ :=
    .step (.step (.start created) (.load "shares" (Object.sharing 3 2)))
      (.load "leaves" Object.departing)
  have whole := unload_all_or_nothing reachable
    (fun _ _ => [.acquire "leaves", .load "asks" (Object.sharing 3 0), .unload "leaves"]) "leaves"
    fun called entry unloading => by
      have same : _ = called := congrArg Prod.fst unloading
      exact same ▸ nested
  rcases whole.2.2.1 fun error barred => by
      have refused := congrArg Prod.snd (whole.2.1 error barred).1
      exact absurd (calls.symm.trans refused) nofun with ⟨after, handle, module, unloaded, done⟩
  have same : _ = after := congrArg Prod.fst unloaded
  exact ⟨host, created, counted, after, handle, module, unloaded, same ▸ counted', same ▸ names,
    done⟩

end Session
end ModuleHost
