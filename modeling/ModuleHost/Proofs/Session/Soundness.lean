import ModuleHost.Proofs.Host.Halves
import ModuleHost.Proofs.Session.Run

namespace ModuleHost
namespace Session

/-!
# What every reachable session satisfies

The references that registered modules do not account for are those of the loads under
way and those taken from outside.  A module is registered but not live, or leaving,
exactly while a load or an unload of it is under way, and a leaving module is out of use.

`Effect` lists what a half can do to the modules and to the stack of calls.  All that is
proved about runs goes through this list.
-/

/-- The handles on which loads under way and outside references hold a reference. -/
def holders (session : Session) : List Handle :=
  session.calls.filterMap Call.pin? ++
    session.guards.filterMap fun guard => guard.map Reference.handle

structure Sound (session : Session) : Prop where
  accounted : session.host.Accounted session.holders []
  /-- No module has two calls in progress. -/
  distinct : (session.calls.map Call.handle).Nodup
  phase_of_call : ∀ call ∈ session.calls,
    session.host.registry.phase? call.handle = some call.phase
  call_of_phase : ∀ handle phase, session.host.registry.phase? handle = some phase →
    phase = .registered ∨ phase = .finalizing → ∃ call ∈ session.calls, call.handle = handle
  unused : ∀ call ∈ session.calls, call.phase = .finalizing →
    session.host.registry.counted call.handle = 0

/-- What a half does to the modules and to the stack of calls. -/
inductive Effect (before after : Session) : Half → Prop
  | continues {half : Half} (continues : before.host.Continues after.host)
      (calls : after.calls = before.calls) : Effect before after half
  | registers {name : String} {image : List UInt8} (pending : PendingLoad)
      (module : LoadedModule)
      (fresh : before.host.registry.get? pending.handle = none)
      (turns : before.host.Turns after.host pending.handle (some .registered))
      (found : after.host.registry.get? pending.handle = some module)
      (entry : module.initEntry = pending.initEntry)
      (calls : after.calls = .init pending :: before.calls) :
      Effect before after (.beginLoad name image)
  | succeeds (pending : PendingLoad)
      (turns : before.host.Turns after.host pending.handle (some .live))
      (calls : before.calls = .init pending :: after.calls) :
      Effect before after (.finishLoad 0)
  | fails {code : Int} (pending : PendingLoad) (phase? : Option Phase) (failed : code ≠ 0)
      (outcome : phase? = none ∨ phase? = some .initFailed)
      (turns : before.host.Turns after.host pending.handle phase?)
      (calls : before.calls = .init pending :: after.calls) :
      Effect before after (.finishLoad code)
  | leaves {name : String} (pending : PendingUnload) (phase : Phase)
      (found : before.host.registry.phase? pending.handle = some phase)
      (settled : phase = .live ∨ phase = .initFailed)
      (entry : phase = .initFailed → pending.exitEntry = none)
      (turns : before.host.Turns after.host pending.handle (some .finalizing))
      (unused : after.host.registry.counted pending.handle = 0)
      (calls : after.calls = .exit pending :: before.calls) :
      Effect before after (.beginUnload name)
  | goes (pending : PendingUnload)
      (turns : before.host.Turns after.host pending.handle none)
      (calls : before.calls = .exit pending :: after.calls) :
      Effect before after .finishUnload

variable {session after : Session} {half : Half}

/-- A phase that a module keeps without a call in progress. -/
def Settled (phase? : Option Phase) : Prop :=
  phase? ≠ some .registered ∧ phase? ≠ some .finalizing

theorem settled_none : Settled none :=
  ⟨nofun, nofun⟩

theorem settled_live : Settled (some .live) :=
  ⟨nofun, nofun⟩

theorem settled_initFailed : Settled (some .initFailed) :=
  ⟨nofun, nofun⟩

/-! ## The three ways of going on -/

theorem Sound.continues (sound : session.Sound) (accounted : after.host.Accounted after.holders [])
    (continues : session.host.Continues after.host) (calls : after.calls = session.calls) :
    after.Sound := by
  have phases (handle : Handle) :
      after.host.registry.phase? handle = session.host.registry.phase? handle :=
    Registry.phase?_of_uncounted (continues.alike handle)
  refine ⟨accounted, calls ▸ sound.distinct, ?_, ?_, ?_⟩
  · intro call member
    rw [phases]
    exact sound.phase_of_call call (calls ▸ member)
  · intro handle phase found unsettled
    rw [calls]
    exact sound.call_of_phase handle phase (phases handle ▸ found) unsettled
  · intro call member leaving
    rw [calls] at member
    exact (continues.closed call.handle).unused
      (leaving ▸ sound.phase_of_call call member) (sound.unused call member leaving)

theorem Sound.pushes (sound : session.Sound) (call : Call)
    (accounted : after.host.Accounted after.holders [])
    (settled : Settled (session.host.registry.phase? call.handle))
    (turns : session.host.Turns after.host call.handle (some call.phase))
    (unused : call.phase = .finalizing → after.host.registry.counted call.handle = 0)
    (calls : after.calls = call :: session.calls) : after.Sound := by
  have phases {handle : Handle} (different : handle ≠ call.handle) :
      after.host.registry.phase? handle = session.host.registry.phase? handle :=
    Registry.phase?_of_uncounted (turns.others handle different)
  have different {other : Call} (member : other ∈ session.calls) :
      other.handle ≠ call.handle := by
    intro same
    have found := sound.phase_of_call other member
    rw [same] at found
    cases other with
    | init pending => exact settled.1 found
    | exit pending => exact settled.2 found
  refine ⟨accounted, ?_, ?_, ?_, ?_⟩
  · rw [calls, List.map_cons, List.nodup_cons]
    refine ⟨?_, sound.distinct⟩
    intro member
    rcases List.mem_map.mp member with ⟨other, listed, same⟩
    exact different listed same
  · intro other member
    rw [calls] at member
    rcases List.mem_cons.mp member with rfl | older
    · exact turns.phase_eq
    · rw [phases (different older)]
      exact sound.phase_of_call other older
  · intro handle phase found unsettled
    rw [calls]
    by_cases same : handle = call.handle
    · exact ⟨call, List.mem_cons_self, same.symm⟩
    · rw [phases same] at found
      rcases sound.call_of_phase handle phase found unsettled with ⟨other, older, named⟩
      exact ⟨other, List.mem_cons_of_mem call older, named⟩
  · intro other member leaving
    rw [calls] at member
    rcases List.mem_cons.mp member with rfl | older
    · exact unused leaving
    · exact (turns.closed other.handle (different older)).unused
        (leaving ▸ sound.phase_of_call other older) (sound.unused other older leaving)

theorem Sound.pops (sound : session.Sound) (call : Call)
    (accounted : after.host.Accounted after.holders []) {phase? : Option Phase}
    (settled : Settled phase?)
    (turns : session.host.Turns after.host call.handle phase?)
    (calls : session.calls = call :: after.calls) : after.Sound := by
  have phases {handle : Handle} (different : handle ≠ call.handle) :
      after.host.registry.phase? handle = session.host.registry.phase? handle :=
    Registry.phase?_of_uncounted (turns.others handle different)
  have distinct := sound.distinct
  rw [calls, List.map_cons, List.nodup_cons] at distinct
  have different {other : Call} (member : other ∈ after.calls) : other.handle ≠ call.handle := by
    intro same
    exact distinct.1 (same ▸ List.mem_map_of_mem member)
  have before {other : Call} (member : other ∈ after.calls) : other ∈ session.calls := by
    rw [calls]
    exact List.mem_cons_of_mem call member
  refine ⟨accounted, distinct.2, ?_, ?_, ?_⟩
  · intro other member
    rw [phases (different member)]
    exact sound.phase_of_call other (before member)
  · intro handle phase found unsettled
    by_cases same : handle = call.handle
    · rw [same, turns.phase_eq] at found
      rcases unsettled with rfl | rfl
      · exact absurd found settled.1
      · exact absurd found settled.2
    · rw [phases same] at found
      rcases sound.call_of_phase handle phase found unsettled with ⟨other, member, named⟩
      rw [calls] at member
      rcases List.mem_cons.mp member with rfl | older
      · exact absurd named.symm same
      · exact ⟨other, older, named⟩
  · intro other member leaving
    exact (turns.closed other.handle (different member)).unused
      (leaving ▸ sound.phase_of_call other (before member))
      (sound.unused other (before member) leaving)

/-- Dropping a reference takes its handle from the holders. -/
theorem holders_set {number : Nat} {reference : Reference}
    (held : session.guards[number]? = some (some reference)) (host : Host) :
    session.holders.Perm (reference.handle ::
      holders { session with host, guards := session.guards.set number none }) := by
  rcases List.getElem?_eq_some_iff.mp held with ⟨bounded, here⟩
  have dropped := List.set_eq_take_append_cons_drop (l := session.guards) (i := number) (a := none)
  have guards := List.set_eq_take_append_cons_drop (l := session.guards) (i := number)
    (a := session.guards[number])
  rw [if_pos bounded] at dropped guards
  rw [List.set_getElem_self, here] at guards
  unfold holders
  simp only [dropped]
  conv => lhs; rw [guards]
  simp only [List.filterMap_append, List.filterMap_cons, Option.map_some, Option.map_none]
  rw [← List.append_assoc, ← List.append_assoc]
  exact List.perm_middle

/-- A module that is not live yet is referred to by its load. -/
theorem Sound.referenced_of_registered (sound : session.Sound) {handle : Handle}
    (registered : session.host.registry.phase? handle = some .registered) :
    0 < session.host.registry.counted handle := by
  rcases sound.call_of_phase handle _ registered (Or.inl rfl) with ⟨call, member, rfl⟩
  cases call with
  | exit pending =>
      have leaving := sound.phase_of_call _ member
      rw [registered] at leaving
      cases leaving
  | init pending =>
      have held : pending.handle ∈ session.holders :=
        List.mem_append_left _ (List.mem_filterMap.mpr ⟨_, member, rfl⟩)
      rcases sound.accounted.balanced.exists_of_held held with ⟨module, found, positive⟩
      rw [Call.handle, Registry.counted_of_get? found]
      exact positive

/-! ## What each half does -/

theorem sound_start {settings : Settings} {exports : ExportTable} {memory : Memory}
    {zeroPage : Address} {host : Host}
    (created : Host.create settings exports memory zeroPage = .ok host) :
    Session.Sound { host } where
  accounted := Host.accounted_create created
  distinct := List.nodup_nil
  phase_of_call := by simp
  call_of_phase := by
    intro handle phase found
    rw [(Host.create_eq_ok created).1] at found
    cases found
  unused := by simp

theorem Sound.beginLoad (sound : session.Sound) (name : String) (image : List UInt8) :
    (session.advance (.beginLoad name image)).Sound ∧
      Effect session (session.advance (.beginLoad name image)) (.beginLoad name image) := by
  unfold advance
  simp only
  cases began : session.host.beginLoad name image with
  | mk host result =>
      cases result with
      | error error =>
          rcases sound.accounted.beginLoad_error began with ⟨accounted, continues⟩
          exact ⟨sound.continues accounted continues rfl, .continues continues rfl⟩
      | ok pending =>
          rcases sound.accounted.beginLoad_ok began with
            ⟨accounted, fresh, turns, module, found, _, entry⟩
          have missing : session.host.registry.phase? pending.handle = none := by
            rw [Registry.phase?, fresh, Option.map_none]
          have settled : Settled (session.host.registry.phase? pending.handle) := by
            rw [missing]
            exact settled_none
          refine ⟨?_, .registers pending module fresh turns found entry rfl⟩
          refine sound.pushes (.init pending) accounted settled turns ?_ rfl
          intro leaving
          cases leaving

theorem Sound.finishLoad (sound : session.Sound) (code : Int) :
    (session.advance (.finishLoad code)).Sound ∧
      Effect session (session.advance (.finishLoad code)) (.finishLoad code) := by
  unfold advance
  simp only
  split
  · next pending calls stack =>
      have accounted := sound.accounted
      rw [holders, stack] at accounted
      by_cases succeeded : code = 0
      · subst succeeded
        rcases accounted.finishLoad_zero with ⟨accounted', turns, _, _⟩
        refine ⟨?_, .succeeds pending turns stack⟩
        exact sound.pops (.init pending) accounted' settled_live turns stack
      · rcases accounted.finishLoad_nonzero succeeded with ⟨accounted', _, module, _, turns⟩
        have outcome : (if module.references = 1 then none else some Phase.initFailed) = none ∨
            (if module.references = 1 then none else some Phase.initFailed) =
              some .initFailed := by
          by_cases alone : module.references = 1
          · exact Or.inl (if_pos alone)
          · exact Or.inr (if_neg alone)
        refine ⟨?_, .fails pending _ succeeded outcome turns stack⟩
        refine sound.pops (.init pending) accounted' ?_ turns stack
        rcases outcome with gone | marked
        · rw [gone]
          exact settled_none
        · rw [marked]
          exact settled_initFailed
  · exact ⟨sound, .continues (Host.Continues.refl _) rfl⟩

theorem Sound.beginUnload (sound : session.Sound) (name : String) :
    (session.advance (.beginUnload name)).Sound ∧
      Effect session (session.advance (.beginUnload name)) (.beginUnload name) := by
  unfold advance
  simp only
  cases began : session.host.beginUnload name with
  | mk host result =>
      cases result with
      | error error =>
          rw [Host.beginUnload_error began]
          exact ⟨sound, .continues (Host.Continues.refl _) rfl⟩
      | ok pending =>
          rcases sound.accounted.beginUnload_ok began with
            ⟨accounted, turns, module, found, unreferenced, staying, unused, entry⟩
          have here : session.host.registry.phase? pending.handle = some module.phase := by
            rw [Registry.phase?, found, Option.map_some]
          have started : module.phase ≠ .registered := by
            intro starting
            rw [starting] at here
            have pinned := sound.referenced_of_registered here
            rw [Registry.counted_of_get? found, unreferenced] at pinned
            exact absurd pinned (Nat.lt_irrefl 0)
          have settled : module.phase = .live ∨ module.phase = .initFailed := by
            cases phase : module.phase with
            | registered => exact absurd phase started
            | live => exact Or.inl rfl
            | initFailed => exact Or.inr rfl
            | finalizing => exact absurd phase staying
          refine ⟨?_, .leaves pending module.phase here settled ?_ turns unused rfl⟩
          · refine sound.pushes (.exit pending) accounted ?_ turns (fun _ => unused) rfl
            show Settled (session.host.registry.phase? pending.handle)
            rw [here]
            exact ⟨fun same => started (Option.some.inj same),
              fun same => staying (Option.some.inj same)⟩
          · intro failed
            rw [entry, failed]
            rfl

theorem Sound.finishUnload (sound : session.Sound) :
    (session.advance .finishUnload).Sound ∧
      Effect session (session.advance .finishUnload) .finishUnload := by
  unfold advance
  simp only
  split
  · next pending calls stack =>
      have member : Call.exit pending ∈ session.calls := by
        rw [stack]
        exact List.mem_cons_self
      have unused := sound.unused _ member rfl
      rcases Option.map_eq_some_iff.mp (sound.phase_of_call _ member) with ⟨module, found, _⟩
      have unused' : module.references = 0 := (Registry.counted_of_get? found).symm.trans unused
      have accounted := sound.accounted
      rw [holders, stack] at accounted
      rcases accounted.finishUnload found unused' with ⟨accounted', turns, _⟩
      refine ⟨?_, .goes pending turns stack⟩
      exact sound.pops (.exit pending) accounted' settled_none turns stack
  · exact ⟨sound, .continues (Host.Continues.refl _) rfl⟩

theorem Sound.acquire (sound : session.Sound) (name : String) :
    (session.perform (.acquire name)).Sound ∧
      Effect session (session.perform (.acquire name)) (.acquire name) := by
  simp only [perform, Session.acquire]
  cases acquired : session.host.acquire name with
  | error error => exact ⟨sound, .continues (Host.Continues.refl _) rfl⟩
  | ok result =>
      rcases result with ⟨host, reference⟩
      rcases sound.accounted.acquire acquired with ⟨accounted, continues⟩
      refine ⟨sound.continues (accounted.perm ?_ (List.Perm.refl _)) continues rfl,
        .continues continues rfl⟩
      simp only [holders, List.filterMap_append, ← List.append_assoc]
      exact (List.perm_append_singleton reference.handle session.holders).symm

theorem Sound.drop (sound : session.Sound) (number : Nat) :
    (session.perform (.drop number)).Sound ∧
      Effect session (session.perform (.drop number)) (.drop number) := by
  simp only [perform, Session.drop?]
  split
  · next reference held =>
      have split := holders_set held (session.host.dropReference reference)
      have accounted := sound.accounted.perm split (List.Perm.refl _)
      rcases accounted.dropReference with ⟨accounted', continues⟩
      exact ⟨sound.continues accounted' continues rfl, .continues continues rfl⟩
  · exact ⟨sound, .continues (Host.Continues.refl _) rfl⟩

/-- Every half keeps a session sound and has an effect of the list. -/
theorem Sound.advance (sound : session.Sound) (half : Half) :
    (session.advance half).Sound ∧ Effect session (session.advance half) half := by
  have quiet (memory : Memory) (journal : List Notice) :
      Sound { session with host := { session.host with memory, journal } } ∧
        Effect session { session with host := { session.host with memory, journal } } half := by
    have continues := Host.Continues.aside session.host memory journal
    have accounted := sound.accounted.aside memory journal
    exact ⟨sound.continues accounted continues rfl, .continues continues rfl⟩
  cases half with
  | beginLoad name image => exact sound.beginLoad name image
  | finishLoad code => exact sound.finishLoad code
  | beginUnload name => exact sound.beginUnload name
  | finishUnload => exact sound.finishUnload
  | acquire name => exact sound.acquire name
  | drop number => exact sound.drop number
  | collect => exact quiet _ _
  | write address bytes => exact quiet _ _

/-- Whatever a half does, what was given back before stays on record. -/
theorem Effect.returns (effect : Effect session after half) :
    session.host.returns <:+ after.host.returns := by
  cases effect with
  | continues continues _ => exact continues.returns
  | registers _ _ _ turns _ _ _ => exact turns.returns
  | succeeds _ turns _ => exact turns.returns
  | fails _ _ _ _ turns _ => exact turns.returns
  | leaves _ _ _ _ _ turns _ _ => exact turns.returns
  | goes _ turns _ => exact turns.returns

theorem Sound.returns_perform (sound : session.Sound) (operation : Operation) :
    session.host.returns <:+ (session.perform operation).host.returns := by
  rw [perform_eq]
  refine (List.foldlRecOn (motive := fun state : Session =>
    state.Sound ∧ session.host.returns <:+ state.host.returns) _ Session.advance
    ⟨sound, List.suffix_rfl⟩ fun state here half _ => ?_).2
  rcases here.1.advance half with ⟨sound', effect⟩
  exact ⟨sound', here.2.trans effect.returns⟩

theorem Reachable.sound (reachable : session.Reachable) : session.Sound :=
  reachable.keeps (fun _ _ _ _ _ created => sound_start created)
    fun _ half sound => (sound.advance half).1

end Session
end ModuleHost
