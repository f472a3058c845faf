import ModuleHost.Proofs.Registry.Layers
import ModuleHost.Proofs.Session.LifeCycle
import ModuleHost.Proofs.Session.Isolation

namespace ModuleHost

/-!
# Closed modules

A module that has failed or is leaving is closed.  No symbol resolves to it, no reference is
given on it, and a load that is staged meanwhile does not come to depend on it; so from then
on until it goes, whatever is done, it loses references and dependents only.
-/

namespace Registry

/-- The handle stands for a module that has failed or is leaving. -/
def Closed (registry : Registry) (handle : Handle) : Prop :=
  ∃ phase, registry.phase? handle = some phase ∧ phase.isOpen = false

variable {registry before after : Registry} {handle provider : Handle} {module : LoadedModule}

theorem Closed.get? (closed : registry.Closed handle) :
    ∃ module, registry.get? handle = some module ∧ module.phase.isOpen = false := by
  rcases closed with ⟨phase, found, shut⟩
  rcases Option.map_eq_some_iff.mp found with ⟨module, found', rfl⟩
  exact ⟨module, found', shut⟩

/-- A symbol resolves to an open module only. -/
theorem isOpen_of_resolve? {name : String} {address : Address}
    (found : registry.resolve? name = some (handle, address)) :
    ∃ module, registry.get? handle = some module ∧ module.phase.isOpen = true := by
  rcases List.exists_of_findSome?_eq_some found with ⟨entry, listed, own⟩
  rcases List.mem_filter.mp listed with ⟨registered, opened⟩
  rcases Option.map_eq_some_iff.mp own with ⟨_, _, same⟩
  rw [← (Prod.mk.inj same).1]
  exact ⟨entry.2, (get?_eq_some_iff _ _ _).mpr registered, opened⟩

theorem Closed.unresolved (closed : registry.Closed handle) (name : String) (address : Address) :
    registry.resolve? name ≠ some (handle, address) := by
  intro resolved
  rcases closed.get? with ⟨module, found, shut⟩
  rcases isOpen_of_resolve? resolved with ⟨module', found', opened⟩
  rw [Option.some.inj (found.symm.trans found'), opened] at shut
  cases shut

theorem acquire_of_closed (found : registry.get? handle = some module)
    (shut : module.phase.isOpen = false) :
    registry.acquire handle = .error (.unloading module.name) := by
  simp [acquire, found, shut]

/-- From one registry to the next, a closed module stays closed and gets no reference and no
dependent. -/
structure StaysClosed (before after : Registry) (handle : Handle) : Prop where
  closed : after.Closed handle
  counted_le : after.counted handle ≤ before.counted handle
  unbound : ∀ dependent, after.DependsOn dependent handle → before.DependsOn dependent handle

theorem StaysClosed.refl (closed : registry.Closed handle) :
    registry.StaysClosed registry handle :=
  ⟨closed, Nat.le_refl _, fun _ depends => depends⟩

theorem StaysClosed.trans (stays : before.StaysClosed registry handle)
    (stays' : registry.StaysClosed after handle) : before.StaysClosed after handle where
  closed := stays'.closed
  counted_le := Nat.le_trans stays'.counted_le stays.counted_le
  unbound dependent depends := stays.unbound dependent (stays'.unbound dependent depends)

/-- A module that is the same up to its count is as closed as it was. -/
theorem Closed.of_uncounted (closed : before.Closed handle)
    (same : (before.get? handle).map LoadedModule.uncounted =
      (after.get? handle).map LoadedModule.uncounted) (less : before.ClosedLe after handle) :
    after.Closed handle ∧ after.counted handle ≤ before.counted handle := by
  rcases closed with ⟨phase, here, shut⟩
  exact ⟨⟨phase, (phase?_of_uncounted same).trans here, shut⟩, less phase here shut⟩

end Registry

/-! ## A load does not bind to a closed module -/

namespace Host

variable {host after : Host} {holders : List Handle} {handle dependent : Handle}

/-- What the staging of a load holds was open: the references on a closed module are all
accounted for without it. -/
theorem Accounted.dependsOn_beginLoad (accounted : host.Accounted holders []) {name : String}
    {image : List UInt8} {pending : PendingLoad}
    (began : host.beginLoad name image = (after, .ok pending))
    (closed : host.registry.Closed handle)
    (depends : after.registry.DependsOn dependent handle) :
    host.registry.DependsOn dependent handle := by
  rcases beginLoad_eq_ok began with
    ⟨journal, object, staging, assembly, _, _, _, assembled, registered⟩
  have start : Accounted { host with journal } holders [] := accounted.aside _ _
  have sound := (Staging.sound_start start).assemble assembled
  rcases register_eq_ok sound.accounted.consistent registered with ⟨registry, changes, _, rfl, _⟩
  have unheld : handle ∉ staging.held := by
    have less : staging.host.registry.counted handle ≤ host.registry.counted handle :=
      (closed.of_uncounted (sound.continues.alike handle) (sound.continues.closed handle)).2
    have bound : host.registry.bound handle = staging.host.registry.bound handle :=
      sound.continues.alike.bound_eq handle
    have counts := accounted.balanced handle
    have counts' := sound.accounted.balanced handle
    rw [List.count_append] at counts'
    exact List.count_eq_zero.mp (by omega)
  by_cases new : dependent = pending.handle
  · rcases depends with ⟨module, found, held⟩
    rw [new, changes.get?_new] at found
    rw [← Option.some.inj found] at held
    exact absurd held unheld
  · rcases depends with ⟨module, found, held⟩
    rw [changes.get?_other new] at found
    exact (Registry.dependsOn_of_uncounted (sound.continues.alike dependent)).mp
      ⟨module, found, held⟩

end Host

/-! ## Closed modules in a session -/

namespace Session

variable {session : Session} {handle : Handle}

theorem Sound.unbound_advance (sound : session.Sound) (closed : session.host.registry.Closed handle)
    (half : Half) {dependent : Handle}
    (depends : (session.advance half).host.registry.DependsOn dependent handle) :
    session.host.registry.DependsOn dependent handle := by
  by_cases loading : ∃ name image, half = .beginLoad name image
  · rcases loading with ⟨name, image, rfl⟩
    unfold Session.advance at depends
    simp only at depends
    cases began : session.host.beginLoad name image with
    | mk host result =>
        rw [began] at depends
        cases result with
        | error error =>
            have alike := (sound.accounted.beginLoad_error began).2.alike
            exact (Registry.dependsOn_of_uncounted (alike dependent)).mp depends
        | ok pending => exact sound.accounted.dependsOn_beginLoad began closed depends
  · exact (session.persists_advance
      fun name image same => loading ⟨name, image, same⟩).dependsOn depends

/-- A half takes a closed module out, or it stays closed and gets no reference. -/
theorem Sound.closed_advance (sound : session.Sound) (closed : session.host.registry.Closed handle)
    (half : Half) :
    (session.advance half).host.registry.get? handle = none ∨
      session.host.registry.StaysClosed (session.advance half).host.registry handle := by
  have unbound (dependent : Handle)
      (depends : (session.advance half).host.registry.DependsOn dependent handle) :
      session.host.registry.DependsOn dependent handle := sound.unbound_advance closed half depends
  have effect := (sound.advance half).2
  generalize session.advance half = after at effect unbound
  have other {turned : Handle} {phase? : Option Phase}
      (turns : session.host.Turns after.host turned phase?) (different : handle ≠ turned) :
      session.host.registry.StaysClosed after.host.registry handle := by
    rcases closed.of_uncounted (turns.others handle different) (turns.closed handle different) with
      ⟨closed', less⟩
    exact ⟨closed', less, unbound⟩
  have starting {pending : PendingLoad} (running : Call.init pending ∈ session.calls) :
      handle ≠ pending.handle := by
    rintro rfl
    rcases closed with ⟨phase, found, shut⟩
    have registered := sound.phase_of_call _ running
    rw [Call.handle, found] at registered
    rw [Option.some.inj registered] at shut
    cases shut
  cases effect with
  | continues continues calls =>
      rcases closed.of_uncounted (continues.alike handle) (continues.closed handle) with
        ⟨closed', less⟩
      exact .inr ⟨closed', less, unbound⟩
  | registers pending module fresh turns found entry calls =>
      refine .inr (other turns ?_)
      rintro rfl
      rcases closed.get? with ⟨held, found', _⟩
      rw [fresh] at found'
      cases found'
  | succeeds pending turns calls =>
      exact .inr (other turns (starting (calls ▸ List.mem_cons_self)))
  | fails pending phase? failed outcome turns calls =>
      exact .inr (other turns (starting (calls ▸ List.mem_cons_self)))
  | leaves pending phase found settled entry turns unused calls =>
      by_cases same : handle = pending.handle
      · subst same
        exact .inr ⟨⟨.finalizing, turns.phase_eq, rfl⟩, unused ▸ Nat.zero_le _, unbound⟩
      · exact .inr (other turns same)
  | goes pending turns calls =>
      by_cases same : handle = pending.handle
      · subst same
        exact .inl (Option.map_eq_none_iff.mp turns.phase_eq)
      · exact .inr (other turns same)

/-- Only the first half of an operation can begin a load. -/
theorem halves_tail (session : Session) (operation : Operation) :
    ∀ half ∈ (session.halves operation).tail, ∀ name image, half ≠ .beginLoad name image := by
  cases operation with
  | load name image =>
      simp only [halves]
      split <;> simp
  | unload name =>
      simp only [halves]
      split <;> simp
  | hookReturns code =>
      simp only [halves]
      split <;> simp
  | acquire name => simp [halves]
  | drop number => simp [halves]
  | collect => simp [halves]
  | write address bytes => simp [halves]

/-- What an operation leaves registered was registered after its first half. -/
theorem persists_perform (session : Session) {operation : Operation} {first : Half}
    {rest : List Half} (split : session.halves operation = first :: rest) :
    (session.advance first).host.registry.Persists (session.perform operation).host.registry := by
  have calm := session.halves_tail operation
  rw [split, List.tail_cons] at calm
  rw [perform_eq, split, List.foldl_cons]
  refine List.foldlRecOn (motive := fun state =>
    (session.advance first).host.registry.Persists state.host.registry) rest Session.advance
    (Registry.Persists.refl _) fun state here half listed => ?_
  exact here.trans (state.persists_advance (calm half listed))

/-- An operation takes a closed module out, or it stays closed. -/
theorem Sound.closed_perform (sound : session.Sound) (closed : session.host.registry.Closed handle)
    (operation : Operation) :
    (session.perform operation).host.registry.get? handle = none ∨
      session.host.registry.StaysClosed (session.perform operation).host.registry handle := by
  cases split : session.halves operation with
  | nil =>
      rw [perform_eq, split]
      exact .inr (.refl closed)
  | cons first rest =>
      have calm := session.halves_tail operation
      rw [split, List.tail_cons] at calm
      rw [perform_eq, split, List.foldl_cons]
      refine (List.foldlRecOn (motive := fun state : Session => state.Sound ∧
        (state.host.registry.get? handle = none ∨
          session.host.registry.StaysClosed state.host.registry handle)) rest Session.advance
        ⟨(sound.advance first).1, sound.closed_advance closed first⟩ ?_).2
      rintro state ⟨sound', gone | stays⟩ half listed
      · refine ⟨(sound'.advance half).1, .inl ?_⟩
        -- A module that is gone does not come back within the operation.
        cases found : (state.advance half).host.registry.get? handle with
        | none => rfl
        | some module =>
            rcases state.persists_advance (calm half listed) handle module found with
              ⟨earlier, found', _⟩
            rw [gone] at found'
            cases found'
      · refine ⟨(sound'.advance half).1, ?_⟩
        exact (sound'.closed_advance stays.closed half).imp_right stays.trans

theorem Sound.performAll (sound : session.Sound) (operations : List Operation) :
    (session.performAll operations).Sound :=
  List.foldlRecOn _ Session.perform sound fun _ here operation _ => here.perform operation

theorem performAll_concat (session : Session) (operations : List Operation)
    (operation : Operation) : session.performAll (operations ++ [operation]) =
      (session.performAll operations).perform operation := by
  rw [Session.performAll, List.foldl_append]
  rfl

/-- A closed module stays closed as long as it is not taken out. -/
theorem Sound.closed_performAll (sound : session.Sound)
    (closed : session.host.registry.Closed handle) (operations : List Operation)
    (kept : ∀ front, front <+: operations →
      (session.performAll front).host.registry.get? handle ≠ none) :
    session.host.registry.StaysClosed (session.performAll operations).host.registry handle := by
  induction operations using List.reverseRecOn with
  | nil => exact .refl closed
  | append_singleton operations operation ih =>
      have stays := ih fun front leading => kept front (leading.trans (List.prefix_append _ _))
      have here := kept _ (List.prefix_refl _)
      rw [performAll_concat] at here ⊢
      have next := (sound.performAll operations).closed_perform stays.closed operation
      exact stays.trans (next.resolve_left here)

end Session
end ModuleHost
