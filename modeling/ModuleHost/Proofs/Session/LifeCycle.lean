import ModuleHost.Proofs.Object
import ModuleHost.Proofs.Session.Soundness

namespace ModuleHost

/-!
# The life cycle of a module

What happens to the modules that one handle stands for is observed from outside, half by
half: the registry before and after tells of changes of phase, the stack of calls before
and after tells of hooks called and returned.  The history of a handle is a sequence of
whole lifetimes and one that is still going on.  `Lifetime` lists the three courses that
a lifetime can take; it says in which order the phases are entered, that each hook is
called at most once, in which phase, and after which result of the other.
-/

/-- What happens to a module.  A call of a hook is noted with what the registry tells of
the module at that moment. -/
inductive Moment
  | registered (hasInit : Bool)
  | entered (phase : Phase)
  | removed
  | initCalled (phase? : Option Phase)
  | initReturned (code : Int)
  | exitCalled (phase? : Option Phase) (references : Nat)
  | exitReturned
  deriving DecidableEq, Repr

namespace Moment

/-- A module is registered and its init function, if it has one, is called. -/
def beginning (hasInit : Bool) : List Moment :=
  .registered hasInit :: if hasInit then [.initCalled (some .registered)] else []

/-- The init function has returned. -/
def initialized (hasInit : Bool) (code : Int) : List Moment :=
  beginning hasInit ++ if hasInit then [.initReturned code] else []

/-- A live module leaves and its exit function, if it has one, is called. -/
def leaving (hasExit : Bool) : List Moment :=
  .entered .finalizing :: if hasExit then [.exitCalled (some .finalizing) 0] else []

/-- The exit function has returned. -/
def finalized (hasExit : Bool) : List Moment :=
  leaving hasExit ++ if hasExit then [.exitReturned] else []

end Moment

/-- The courses that a lifetime can take. -/
inductive Lifetime : List Moment → Prop
  /-- The module goes live and is unloaded. -/
  | unloaded (hasInit hasExit : Bool) :
      Lifetime (Moment.initialized hasInit 0 ++ [.entered .live] ++ Moment.finalized hasExit ++
        [.removed])
  /-- The init function fails and the module goes. -/
  | refused (code : Int) (failed : code ≠ 0) :
      Lifetime (Moment.initialized true code ++ [.removed])
  /-- The init function fails, but others depend on the module; it is unloaded without a
  call of its exit function. -/
  | kept (code : Int) (failed : code ≠ 0) :
      Lifetime (Moment.initialized true code ++ [.entered .initFailed] ++
        Moment.leaving false ++ [.removed])

namespace Call

/-- What the return of a hook is noted as. -/
def returned (code : Int) : Call → Moment
  | init _ => .initReturned code
  | exit _ => .exitReturned

/-- What the call of a hook is noted as. -/
def called (registry : Registry) : Call → Moment
  | init pending => .initCalled (registry.phase? pending.handle)
  | exit pending =>
    .exitCalled (registry.phase? pending.handle) (registry.counted pending.handle)

end Call

namespace Session

/-! ## Observing a run -/

/-- The moment at which a module changes its phase. -/
def phaseMoments (handle : Handle) (before after : Registry) : List Moment :=
  if after.phase? handle = before.phase? handle then []
  else
    match after.get? handle with
    | none => [.removed]
    | some module =>
      if module.phase = .registered then [.registered module.initEntry.isSome]
      else [.entered module.phase]

/-- The call that is on top of a stack and not on the other. -/
def topCall? (higher lower : Session) : Option Call :=
  if lower.calls.length < higher.calls.length then higher.calls.head? else none

/-- The moment of a call of a module's hook; a load or unload without one calls nothing. -/
def hookMoments (handle : Handle) (call? : Option Call) (note : Call → Moment) : List Moment :=
  match call? with
  | some call => if call.handle = handle ∧ call.entry?.isSome then [note call] else []
  | none => []

/-- What happens to the module of a handle between two sessions: a hook returns with a
code, the phase changes, a hook is called. -/
def seen (handle : Handle) (session after : Session) (code : Int) : List Moment :=
  hookMoments handle (topCall? session after) (Call.returned code) ++
    phaseMoments handle session.host.registry after.host.registry ++
    hookMoments handle (topCall? after session) (Call.called after.host.registry)

/-- What happens in several halves. -/
def momentsOver (handle : Handle) (session : Session) : List Half → List Moment
  | [] => []
  | half :: rest =>
    seen handle session (session.advance half) half.code ++
      momentsOver handle (session.advance half) rest

/-- What happens in a run. -/
def history (handle : Handle) (session : Session) : List Operation → List Moment
  | [] => []
  | operation :: rest =>
    momentsOver handle session (session.halves operation) ++
      history handle (session.perform operation) rest

/-! ## Where a lifetime stands -/

/-- A session finds a module at a point of its lifetime. -/
inductive Stands (session : Session) (handle : Handle) : List Moment → Prop
  | absent (phase : session.host.registry.phase? handle = none) : Stands session handle []
  | starting (pending : PendingLoad) (member : .init pending ∈ session.calls)
      (named : pending.handle = handle)
      (phase : session.host.registry.phase? handle = some .registered) :
      Stands session handle (Moment.beginning pending.initEntry.isSome)
  | live (hasInit : Bool) (phase : session.host.registry.phase? handle = some .live) :
      Stands session handle (Moment.initialized hasInit 0 ++ [.entered .live])
  | failed (code : Int) (failed : code ≠ 0)
      (phase : session.host.registry.phase? handle = some .initFailed) :
      Stands session handle (Moment.initialized true code ++ [.entered .initFailed])
  | leaving (hasInit : Bool) (pending : PendingUnload) (member : .exit pending ∈ session.calls)
      (named : pending.handle = handle)
      (phase : session.host.registry.phase? handle = some .finalizing) :
      Stands session handle (Moment.initialized hasInit 0 ++ [.entered .live] ++
        Moment.leaving pending.exitEntry.isSome)
  | leavingFailed (code : Int) (failed : code ≠ 0) (pending : PendingUnload)
      (member : .exit pending ∈ session.calls) (named : pending.handle = handle)
      (entry : pending.exitEntry = none)
      (phase : session.host.registry.phase? handle = some .finalizing) :
      Stands session handle (Moment.initialized true code ++ [.entered .initFailed] ++
        Moment.leaving false)

variable {session after : Session} {handle : Handle} {current : List Moment} {half : Half}

/-- A lifetime that stands somewhere has not come to its end. -/
theorem Stands.unfinished (stands : session.Stands handle current) :
    ∃ rest, rest ≠ [] ∧ Lifetime (current ++ rest) := by
  have goOn (rest : List Moment) {whole : List Moment} (lifetime : Lifetime whole)
      (nonempty : rest ≠ []) (split : whole = current ++ rest) :
      ∃ rest, rest ≠ [] ∧ Lifetime (current ++ rest) := ⟨rest, nonempty, split ▸ lifetime⟩
  cases stands with
  | absent phase => exact goOn _ (.unloaded false false) (by simp) rfl
  | starting pending member named phase =>
      exact goOn ((if pending.initEntry.isSome then [.initReturned 0] else []) ++
        [.entered .live] ++ Moment.finalized false ++ [.removed])
        (.unloaded pending.initEntry.isSome false) (by simp) (by simp [Moment.initialized])
  | live hasInit phase =>
      exact goOn (Moment.finalized false ++ [.removed]) (.unloaded hasInit false) (by simp)
        (by simp)
  | failed code failed phase =>
      exact goOn (Moment.leaving false ++ [.removed]) (.kept code failed) (by simp) (by simp)
  | leaving hasInit pending member named phase =>
      exact goOn ((if pending.exitEntry.isSome then [.exitReturned] else []) ++ [.removed])
        (.unloaded hasInit pending.exitEntry.isSome) (by simp) (by simp [Moment.finalized])
  | leavingFailed code failed pending member named entry phase =>
      exact goOn [.removed] (.kept code failed) nofun rfl

/-! ## What is observed of each half -/

theorem topCall?_of_eq (calls : after.calls = session.calls) : topCall? after session = none := by
  rw [topCall?, calls, if_neg (Nat.lt_irrefl _)]

theorem topCall?_of_push {call : Call} (calls : after.calls = call :: session.calls) :
    topCall? after session = some call ∧ topCall? session after = none := by
  constructor <;> simp [topCall?, calls]

theorem phaseMoments_of_eq {before after : Registry}
    (same : after.phase? handle = before.phase? handle) : phaseMoments handle before after = [] :=
  if_pos same

theorem phaseMoments_of_entered {before after : Registry} {phase : Phase}
    (now : after.phase? handle = some phase) (changed : before.phase? handle ≠ some phase)
    (known : phase ≠ .registered) : phaseMoments handle before after = [.entered phase] := by
  rw [phaseMoments, now, if_neg (Ne.symm changed)]
  rcases Option.map_eq_some_iff.mp now with ⟨module, found, rfl⟩
  rw [found]
  exact if_neg known

theorem phaseMoments_of_removed {before after : Registry} (now : after.phase? handle = none)
    (changed : before.phase? handle ≠ none) : phaseMoments handle before after = [.removed] := by
  rw [phaseMoments, now, if_neg (Ne.symm changed), Option.map_eq_none_iff.mp now]

theorem phaseMoments_of_registered {before after : Registry} {module : LoadedModule}
    (fresh : before.get? handle = none) (found : after.get? handle = some module)
    (phase : module.phase = .registered) :
    phaseMoments handle before after = [.registered module.initEntry.isSome] := by
  rw [phaseMoments, Registry.phase?, Registry.phase?, fresh, found]
  simp [phase]

theorem hookMoments_of_ne {call : Call} (different : call.handle ≠ handle)
    (note : Call → Moment) : hookMoments handle (some call) note = [] :=
  if_neg fun both => different both.1

theorem hookMoments_init (pending : PendingLoad) (note : Call → Moment) :
    hookMoments pending.handle (some (.init pending)) note =
      if pending.initEntry.isSome then [note (.init pending)] else [] := by
  simp [hookMoments, Call.handle, Call.entry?]

theorem hookMoments_exit (pending : PendingUnload) (note : Call → Moment) :
    hookMoments pending.handle (some (.exit pending)) note =
      if pending.exitEntry.isSome then [note (.exit pending)] else [] := by
  simp [hookMoments, Call.handle, Call.entry?]

/-- A half that turns another module is not noticed. -/
theorem Stands.of_kept (stands : session.Stands handle current)
    (phase : after.host.registry.phase? handle = session.host.registry.phase? handle)
    (calls : ∀ call ∈ session.calls, call.handle = handle → call ∈ after.calls) :
    after.Stands handle current := by
  cases stands with
  | absent missing => exact .absent (phase.trans missing)
  | starting pending member named here =>
      exact .starting pending (calls _ member named) named (phase.trans here)
  | live hasInit here => exact .live hasInit (phase.trans here)
  | failed code failed here => exact .failed code failed (phase.trans here)
  | leaving hasInit pending member named here =>
      exact .leaving hasInit pending (calls _ member named) named (phase.trans here)
  | leavingFailed code failed pending member named entry here =>
      exact .leavingFailed code failed pending (calls _ member named) named entry
        (phase.trans here)

/-! ## The phase tells the point -/

section Inversion

variable (stands : session.Stands handle current)

include stands

theorem Stands.of_missing (missing : session.host.registry.phase? handle = none) :
    current = [] := by
  cases stands
  case absent => rfl
  all_goals simp_all

theorem Stands.of_registered (registered : session.host.registry.phase? handle = some .registered) :
    ∃ pending, Call.init pending ∈ session.calls ∧ pending.handle = handle ∧
      current = Moment.beginning pending.initEntry.isSome := by
  cases stands
  case starting pending member named _ => exact ⟨pending, member, named, rfl⟩
  all_goals simp_all

theorem Stands.of_live (live : session.host.registry.phase? handle = some .live) :
    ∃ hasInit, current = Moment.initialized hasInit 0 ++ [.entered .live] := by
  cases stands
  case live hasInit _ => exact ⟨hasInit, rfl⟩
  all_goals simp_all

theorem Stands.of_failed (failed : session.host.registry.phase? handle = some .initFailed) :
    ∃ code : Int, code ≠ 0 ∧
      current = Moment.initialized true code ++ [.entered .initFailed] := by
  cases stands
  case failed code failed _ => exact ⟨code, failed, rfl⟩
  all_goals simp_all

/-- A leaving module has been live, or its exit function is left out. -/
theorem Stands.of_leaving (leaving : session.host.registry.phase? handle = some .finalizing) :
    ∃ pending, Call.exit pending ∈ session.calls ∧ pending.handle = handle ∧
      ((∃ hasInit, current = Moment.initialized hasInit 0 ++ [.entered .live] ++
          Moment.leaving pending.exitEntry.isSome) ∨
        ∃ code : Int, code ≠ 0 ∧ pending.exitEntry = none ∧
          current = Moment.initialized true code ++ [.entered .initFailed] ++
            Moment.leaving false) := by
  cases stands
  case leaving hasInit pending member named _ =>
    exact ⟨pending, member, named, .inl ⟨hasInit, rfl⟩⟩
  case leavingFailed code failed pending member named entry _ =>
    exact ⟨pending, member, named, .inr ⟨code, failed, entry, rfl⟩⟩
  all_goals simp_all

end Inversion

/-- Two calls in progress for one module are the same call. -/
theorem Sound.call_unique (sound : session.Sound) {first second : Call}
    (member : first ∈ session.calls) (member' : second ∈ session.calls)
    (same : first.handle = second.handle) : first = second :=
  List.inj_on_of_nodup_map sound.distinct member member' same

/-! ## A half moves each module on -/

/-- Only an init function that there is can return something other than zero. -/
def Fits (session : Session) (half : Half) : Prop :=
  ∀ pending calls, session.calls = .init pending :: calls → pending.initEntry = none →
    half.code = 0

/-- What is seen of a module: it goes on in its lifetime, or comes to the end of it. -/
def GoesOn (after : Session) (handle : Handle) (current moments : List Moment) : Prop :=
  after.Stands handle (current ++ moments) ∨
    Lifetime (current ++ moments) ∧ after.Stands handle []

/-- A call made or ended for one module does not touch the lifetime of another. -/
theorem Stands.other {turned : Handle} {phase? : Option Phase} {code : Int}
    (stands : session.Stands handle current) (different : handle ≠ turned)
    (turns : session.host.Turns after.host turned phase?) {call : Call}
    (own : call.handle = turned)
    (calls : after.calls = call :: session.calls ∨ session.calls = call :: after.calls) :
    GoesOn after handle current (seen handle session after code) := by
  have phase := Registry.phase?_of_uncounted (turns.others handle different)
  have unnoticed (note : Call → Moment) : hookMoments handle (some call) note = [] :=
    hookMoments_of_ne (fun same => different (same.symm.trans own)) note
  left
  rcases calls with pushed | popped
  · rw [seen, (topCall?_of_push pushed).1, (topCall?_of_push pushed).2, unnoticed,
      phaseMoments_of_eq phase]
    simp only [hookMoments, List.append_nil]
    refine stands.of_kept phase fun other member _ => ?_
    rw [pushed]
    exact List.mem_cons_of_mem call member
  · rw [seen, (topCall?_of_push popped).1, (topCall?_of_push popped).2, unnoticed,
      phaseMoments_of_eq phase]
    simp only [hookMoments, List.append_nil]
    refine stands.of_kept phase fun other member named => ?_
    rw [popped] at member
    rcases List.mem_cons.mp member with rfl | older
    · exact absurd (named.symm.trans own) different
    · exact older

theorem Stands.registers {pending : PendingLoad} {module : LoadedModule}
    (stands : session.Stands handle current)
    (fresh : session.host.registry.get? pending.handle = none)
    (turns : session.host.Turns after.host pending.handle (some .registered))
    (found : after.host.registry.get? pending.handle = some module)
    (entry : module.initEntry = pending.initEntry)
    (calls : after.calls = .init pending :: session.calls) (code : Int) :
    GoesOn after handle current (seen handle session after code) := by
  by_cases same : handle = pending.handle
  · subst same
    have missing : session.host.registry.phase? pending.handle = none := by
      rw [Registry.phase?, fresh, Option.map_none]
    have phase := turns.phase_eq
    rw [Registry.phase?, found, Option.map_some, Option.some.injEq] at phase
    have made := hookMoments_init pending (Call.called after.host.registry)
    left
    rw [stands.of_missing missing, seen, (topCall?_of_push calls).1, (topCall?_of_push calls).2,
      phaseMoments_of_registered fresh found phase, entry]
    simp only [Call.called, turns.phase_eq] at made
    rw [made]
    exact .starting pending (calls ▸ List.mem_cons_self) rfl turns.phase_eq
  · exact stands.other same turns rfl (.inl calls)

/-- A load that ends finds its module at the beginning. -/
theorem Stands.ending_load {pending : PendingLoad} (stands : session.Stands pending.handle current)
    (sound : session.Sound) {calls : List Call} (stack : session.calls = .init pending :: calls) :
    session.host.registry.phase? pending.handle = some .registered ∧
      current = Moment.beginning pending.initEntry.isSome := by
  have member : Call.init pending ∈ session.calls := by
    rw [stack]
    exact List.mem_cons_self
  have phase := sound.phase_of_call _ member
  rcases stands.of_registered phase with ⟨other, member', named, here⟩
  have same := sound.call_unique member' member named
  rw [Call.init.inj same] at here
  exact ⟨phase, here⟩

theorem Stands.succeeds {pending : PendingLoad} (stands : session.Stands handle current)
    (sound : session.Sound) (turns : session.host.Turns after.host pending.handle (some .live))
    (calls : session.calls = .init pending :: after.calls) :
    GoesOn after handle current (seen handle session after 0) := by
  by_cases same : handle = pending.handle
  · subst same
    rcases stands.ending_load sound calls with ⟨phase, here⟩
    have changed : session.host.registry.phase? pending.handle ≠ some .live := by
      rw [phase]
      nofun
    have ended := hookMoments_init pending (Call.returned 0)
    left
    rw [here, seen, (topCall?_of_push calls).1, (topCall?_of_push calls).2,
      phaseMoments_of_entered turns.phase_eq changed nofun]
    simp only [Call.returned] at ended
    rw [ended, ← List.append_assoc, ← List.append_assoc]
    simp only [hookMoments, List.append_nil]
    exact .live pending.initEntry.isSome turns.phase_eq
  · exact stands.other same turns rfl (.inr calls)

theorem Stands.fails {pending : PendingLoad} {phase? : Option Phase} {code : Int}
    (stands : session.Stands handle current) (sound : session.Sound) (failed : code ≠ 0)
    (entry : pending.initEntry.isSome) (outcome : phase? = none ∨ phase? = some .initFailed)
    (turns : session.host.Turns after.host pending.handle phase?)
    (calls : session.calls = .init pending :: after.calls) :
    GoesOn after handle current (seen handle session after code) := by
  by_cases same : handle = pending.handle
  · subst same
    rcases stands.ending_load sound calls with ⟨phase, here⟩
    have ended := hookMoments_init pending (Call.returned code)
    simp only [entry, if_true, Call.returned] at ended
    rw [entry] at here
    rw [here, seen, (topCall?_of_push calls).1, (topCall?_of_push calls).2, ended]
    simp only [hookMoments, List.append_nil]
    rcases outcome with rfl | rfl
    · have changed : session.host.registry.phase? pending.handle ≠ none := by
        rw [phase]
        nofun
      right
      rw [phaseMoments_of_removed turns.phase_eq changed]
      exact ⟨.refused code failed, .absent turns.phase_eq⟩
    · have changed : session.host.registry.phase? pending.handle ≠ some .initFailed := by
        rw [phase]
        nofun
      left
      rw [phaseMoments_of_entered turns.phase_eq changed nofun]
      exact .failed code failed turns.phase_eq
  · exact stands.other same turns rfl (.inr calls)

theorem Stands.leaves {pending : PendingUnload} {phase : Phase}
    (stands : session.Stands handle current)
    (found : session.host.registry.phase? pending.handle = some phase)
    (settled : phase = .live ∨ phase = .initFailed)
    (entry : phase = .initFailed → pending.exitEntry = none)
    (turns : session.host.Turns after.host pending.handle (some .finalizing))
    (unused : after.host.registry.counted pending.handle = 0)
    (calls : after.calls = .exit pending :: session.calls) (code : Int) :
    GoesOn after handle current (seen handle session after code) := by
  by_cases same : handle = pending.handle
  · subst same
    have changed : session.host.registry.phase? pending.handle ≠ some .finalizing := by
      rcases settled with rfl | rfl <;> (rw [found]; nofun)
    have made := hookMoments_exit pending (Call.called after.host.registry)
    simp only [Call.called, turns.phase_eq, unused] at made
    have member : Call.exit pending ∈ after.calls := by
      rw [calls]
      exact List.mem_cons_self
    left
    rw [seen, (topCall?_of_push calls).1, (topCall?_of_push calls).2,
      phaseMoments_of_entered turns.phase_eq changed nofun, made]
    rcases settled with rfl | rfl
    · rcases stands.of_live found with ⟨hasInit, here⟩
      rw [here]
      exact .leaving hasInit pending member rfl turns.phase_eq
    · rcases stands.of_failed found with ⟨code, failed, here⟩
      rw [here, entry rfl]
      exact .leavingFailed code failed pending member rfl (entry rfl) turns.phase_eq
  · exact stands.other same turns rfl (.inl calls)

theorem Stands.goes {pending : PendingUnload} (stands : session.Stands handle current)
    (sound : session.Sound) (turns : session.host.Turns after.host pending.handle none)
    (calls : session.calls = .exit pending :: after.calls) (code : Int) :
    GoesOn after handle current (seen handle session after code) := by
  by_cases same : handle = pending.handle
  · subst same
    have member : Call.exit pending ∈ session.calls := by
      rw [calls]
      exact List.mem_cons_self
    have phase := sound.phase_of_call _ member
    have changed : session.host.registry.phase? pending.handle ≠ none := by
      rw [show session.host.registry.phase? pending.handle = some .finalizing from phase]
      nofun
    have ended := hookMoments_exit pending (Call.returned code)
    simp only [Call.returned] at ended
    right
    refine ⟨?_, .absent turns.phase_eq⟩
    rw [seen, (topCall?_of_push calls).1, (topCall?_of_push calls).2, ended,
      phaseMoments_of_removed turns.phase_eq changed]
    rcases stands.of_leaving phase with ⟨other, member', named, here⟩
    have unique := Call.exit.inj (sound.call_unique member' member named)
    subst unique
    rcases here with ⟨hasInit, here⟩ | ⟨code, failed, entry, here⟩
    · have lifetime := Lifetime.unloaded hasInit other.exitEntry.isSome
      rw [here]
      simpa [Moment.finalized, hookMoments] using lifetime
    · have lifetime := Lifetime.kept code failed
      rw [here, entry]
      simpa [hookMoments] using lifetime
  · exact stands.other same turns rfl (.inr calls)

/-- Every half moves each module on in its lifetime, or to the end of it. -/
theorem Stands.advance (stands : session.Stands handle current) (sound : session.Sound)
    (fits : session.Fits half) :
    GoesOn (session.advance half) handle current
      (seen handle session (session.advance half) half.code) := by
  have effect := (sound.advance half).2
  generalize session.advance half = after at effect
  cases effect with
  | continues continues calls =>
      have phase := Registry.phase?_of_uncounted (continues.alike handle)
      left
      rw [seen, topCall?_of_eq calls, topCall?_of_eq calls.symm, phaseMoments_of_eq phase]
      simp only [hookMoments, List.append_nil]
      exact stands.of_kept phase fun _ member _ => calls ▸ member
  | registers pending module fresh turns found entry calls =>
      exact stands.registers fresh turns found entry calls _
  | succeeds pending turns calls => exact stands.succeeds sound turns calls
  | fails pending phase? failed outcome turns calls =>
      have entry : pending.initEntry.isSome := by
        cases entry : pending.initEntry with
        | some address => rfl
        | none => exact absurd (fits pending after.calls calls entry) failed
      exact stands.fails sound failed entry outcome turns calls
  | leaves pending phase found settled entry turns unused calls =>
      exact stands.leaves found settled entry turns unused calls _
  | goes pending turns calls => exact stands.goes sound turns calls _

/-! ## Whole runs -/

/-- Every call in progress is a call of a hook. -/
def Hooked (session : Session) : Prop :=
  ∀ call ∈ session.calls, call.entry?.isSome

/-- Each of several halves fits where it comes. -/
def FitsOver (session : Session) : List Half → Prop
  | [] => True
  | half :: rest => session.Fits half ∧ (session.advance half).FitsOver rest

theorem fitsOver_of_code {halves : List Half} (zero : ∀ half ∈ halves, half.code = 0) :
    session.FitsOver halves := by
  induction halves generalizing session with
  | nil => trivial
  | cons half rest ih =>
      rcases List.forall_mem_cons.mp zero with ⟨first, others⟩
      exact ⟨fun _ _ _ _ => first, ih others⟩

/-- Only a return brings a code with it. -/
theorem code_halves (operation : Operation) (ongoing : ∀ code, operation ≠ .hookReturns code) :
    ∀ half ∈ session.halves operation, half.code = 0 := by
  cases operation with
  | load name image =>
      rw [halves]
      split <;> simp [Half.code]
  | unload name =>
      rw [halves]
      split <;> simp [Half.code]
  | hookReturns code => exact absurd rfl (ongoing code)
  | acquire name => simp [halves, Half.code]
  | drop number => simp [halves, Half.code]
  | collect => simp [halves, Half.code]
  | write address bytes => simp [halves, Half.code]

/-- Only a return takes a call from the stack; a load or an unload adds one if it comes to
a hook. -/
theorem calls_perform (operation : Operation) (ongoing : ∀ code, operation ≠ .hookReturns code) :
    (session.perform operation).calls = session.calls ∨
      ∃ call : Call, call.entry?.isSome ∧
        (session.perform operation).calls = call :: session.calls := by
  cases operation with
  | load name image =>
      simp only [Session.perform, Session.load]
      cases session.host.beginLoad name image with
      | mk host result =>
          cases result with
          | error error => exact .inl rfl
          | ok pending =>
              cases entry : pending.initEntry with
              | none => simp [entry, settleLoad_eq]
              | some address =>
                  right
                  exact ⟨.init pending, by simp [Call.entry?, entry], by simp [entry]⟩
  | unload name =>
      simp only [Session.perform, Session.unload]
      cases session.host.beginUnload name with
      | mk host result =>
          cases result with
          | error error => exact .inl rfl
          | ok pending =>
              cases entry : pending.exitEntry with
              | none => simp [entry, settleUnload_eq]
              | some address =>
                  right
                  exact ⟨.exit pending, by simp [Call.entry?, entry], by simp [entry]⟩
  | hookReturns code => exact absurd rfl (ongoing code)
  | acquire name =>
      left
      simp only [Session.perform, Session.acquire]
      cases session.host.acquire name <;> rfl
  | drop number =>
      left
      simp only [Session.perform, Session.drop?]
      split <;> rfl
  | collect => exact .inl rfl
  | write address bytes => exact .inl rfl

theorem mem_calls_perform (operation : Operation)
    (ongoing : ∀ code, operation ≠ .hookReturns code) :
    ∀ call ∈ session.calls, call ∈ (session.perform operation).calls := by
  intro call member
  rcases calls_perform operation ongoing with same | ⟨_, _, more⟩
  · rwa [same]
  · rw [more]
    exact List.mem_cons_of_mem _ member

theorem Hooked.returns (hooked : session.Hooked) (code : Int) :
    session.FitsOver (session.halves (.hookReturns code)) ∧
      (session.perform (.hookReturns code)).Hooked := by
  simp only [halves, Session.perform, return?]
  cases stack : session.calls with
  | nil => exact ⟨trivial, hooked⟩
  | cons call calls =>
      have both : ∀ other ∈ call :: calls, other.entry?.isSome := stack ▸ hooked
      rcases List.forall_mem_cons.mp both with ⟨first, others⟩
      cases call with
      | init pending =>
          refine ⟨⟨?_, trivial⟩, ?_⟩
          · intro pending' calls' stack' missing
            rw [stack] at stack'
            rcases stack'
            rw [Call.entry?, missing] at first
            cases first
          · simp only [Option.map_some, Option.getD_some, settleLoad_eq]
            exact others
      | exit pending =>
          refine ⟨fitsOver_of_code (by simp [Half.code]), ?_⟩
          simp only [Option.map_some, Option.getD_some, settleUnload_eq]
          exact others

/-- Between operations only hooks are running, and the halves of an operation fit. -/
theorem Hooked.perform (hooked : session.Hooked) (operation : Operation) :
    session.FitsOver (session.halves operation) ∧ (session.perform operation).Hooked := by
  by_cases returning : ∃ code, operation = .hookReturns code
  · rcases returning with ⟨code, rfl⟩
    exact hooked.returns code
  · have ongoing : ∀ code, operation ≠ .hookReturns code := not_exists.mp returning
    refine ⟨fitsOver_of_code (code_halves operation ongoing), ?_⟩
    rcases calls_perform operation ongoing with same | ⟨call, entry, more⟩
    · rw [Hooked, same]
      exact hooked
    · rw [Hooked, more]
      exact List.forall_mem_cons.mpr ⟨entry, hooked⟩

/-- Whole lifetimes and a point of the current one. -/
def Lives (after : Session) (handle : Handle) (moments : List Moment) : Prop :=
  ∃ past current, moments = List.flatten past ++ current ∧ (∀ life ∈ past, Lifetime life) ∧
    after.Stands handle current

theorem Lives.prepend {past : List (List Moment)} {moments : List Moment}
    (whole : ∀ life ∈ past, Lifetime life) (lives : after.Lives handle moments) :
    after.Lives handle (past.flatten ++ moments) := by
  rcases lives with ⟨past', current, rfl, whole', stands⟩
  refine ⟨past ++ past', current, ?_, ?_, stands⟩
  · rw [List.flatten_append, List.append_assoc]
  · intro life member
    rcases List.mem_append.mp member with older | newer
    · exact whole life older
    · exact whole' life newer

theorem Stands.lives_halves (halves : List Half) (stands : session.Stands handle current)
    (sound : session.Sound) (fits : session.FitsOver halves) :
    (halves.foldl Session.advance session).Lives handle
      (current ++ momentsOver handle session halves) := by
  induction halves generalizing session current with
  | nil => exact ⟨[], current, by simp [momentsOver], by simp, stands⟩
  | cons half rest ih =>
      rw [momentsOver, ← List.append_assoc, List.foldl_cons]
      rcases stands.advance sound fits.1 with goesOn | ⟨ended, stands'⟩
      · exact ih goesOn (sound.advance half).1 fits.2
      · have later := ih stands' (sound.advance half).1 fits.2
        have whole : ∀ life ∈ [current ++ seen handle session (session.advance half) half.code],
            Lifetime life := List.forall_mem_singleton.mpr ended
        simpa using later.prepend whole

theorem Sound.perform (sound : session.Sound) (operation : Operation) :
    (session.perform operation).Sound := by
  rw [perform_eq]
  exact List.foldlRecOn _ Session.advance sound fun state here half _ => (here.advance half).1

theorem Stands.lives (operations : List Operation) (stands : session.Stands handle current)
    (sound : session.Sound) (hooked : session.Hooked) :
    (session.performAll operations).Lives handle
      (current ++ history handle session operations) := by
  induction operations generalizing session current with
  | nil => exact ⟨[], current, by simp [history], by simp, stands⟩
  | cons operation rest ih =>
      rcases hooked.perform operation with ⟨fits, hooked'⟩
      have first := stands.lives_halves (session.halves operation) sound fits
      rw [← perform_eq] at first
      rcases first with ⟨past, current', split, whole, stands'⟩
      have later := ih stands' (sound.perform operation) hooked'
      rw [history, ← List.append_assoc, split, List.append_assoc]
      exact later.prepend whole

/-! ## A module whose init function is running stays -/

/-- An unload of a module whose init function is running is refused. -/
theorem Sound.unload_starting (sound : session.Sound) {pending : PendingLoad}
    (running : .init pending ∈ session.calls) {name : String}
    (named : session.host.registry.find? name = some pending.handle) :
    ∃ references, session.unload name = (session, .failed (.inUse name references)) := by
  have registered := sound.phase_of_call _ running
  have pinned := sound.referenced_of_registered registered
  rcases Option.map_eq_some_iff.mp registered with ⟨module, found, phase⟩
  have found' : session.host.registry.get? pending.handle = some module := found
  have referenced : module.references ≠ 0 :=
    Nat.ne_of_gt ((Registry.counted_of_get? found) ▸ pinned)
  have staying : module.phase ≠ .finalizing := by
    rw [phase]
    nofun
  refine ⟨module.references, ?_⟩
  simp [unload, Host.beginUnload, named, found', staying, referenced]

/-- In every run, what happens to the modules of a handle is a sequence of whole lifetimes
and one that has not come to its end.  While the init function of a module is running, the
module stays registered whatever is done, and an unload of it is refused. -/
theorem history_lifetimes {settings : Settings} {exports : ExportTable} {memory : Memory}
    {zeroPage : Address} {host : Host}
    (created : Host.create settings exports memory zeroPage = .ok host)
    (operations : List Operation) :
    (∀ handle, ∃ past current, history handle { host } operations = List.flatten past ++ current ∧
      (∀ life ∈ past, Lifetime life) ∧ ∃ rest, rest ≠ [] ∧ Lifetime (current ++ rest)) ∧
    ∀ pending, .init pending ∈ (performAll { host } operations).calls →
      (∀ operation, (∀ code, operation ≠ .hookReturns code) →
        .init pending ∈ ((performAll { host } operations).perform operation).calls ∧
        ((performAll { host } operations).perform operation).host.registry.phase?
          pending.handle = some .registered) ∧
      ∀ name, (performAll { host } operations).host.registry.find? name = some pending.handle →
        ∃ references, (performAll { host } operations).unload name =
          (performAll { host } operations, .failed (.inUse name references)) := by
  have start : Session.Sound { host } := sound_start created
  constructor
  · intro handle
    have absent : Stands { host } handle [] := by
      apply Stands.absent
      rw [(Host.create_eq_ok created).1]
      rfl
    rcases absent.lives operations start (List.forall_mem_nil _) with
      ⟨past, current, split, whole, stands⟩
    exact ⟨past, current, split, whole, stands.unfinished⟩
  · have sound : (performAll { host } operations).Sound :=
      List.foldlRecOn _ Session.perform start fun _ here operation _ => here.perform operation
    intro pending running
    constructor
    · intro operation ongoing
      have still := mem_calls_perform operation ongoing _ running
      exact ⟨still, (sound.perform operation).phase_of_call _ still⟩
    · intro name named
      exact sound.unload_starting running named

set_option maxRecDepth 4096 in
/-- A module with both functions.  From inside its init function a reference on it is taken
and let go and its unload is refused; from inside its exit function another module is
loaded.  Its history is one whole lifetime. -/
theorem history_lifetimes_unloaded :
    ∃ host, Host.create {} ⟨[]⟩ (.filled 0) 0 = .ok host ∧
      let load := Operation.load "hooks" Object.hooked
      let run := [load, .acquire "hooks", .drop 0, .unload "hooks", .hookReturns 0,
        .unload "hooks", .load "self" (Object.selfPointing 1), .hookReturns 0]
      history ⟨0, 0⟩ { host } run =
        [.registered true, .initCalled (some .registered), .initReturned 0, .entered .live,
          .entered .finalizing, .exitCalled (some .finalizing) 0, .exitReturned, .removed] ∧
      (∀ handle, ∃ past current, history handle { host } run = List.flatten past ++ current ∧
        (∀ life ∈ past, Lifetime life) ∧ ∃ rest, rest ≠ [] ∧ Lifetime (current ++ rest)) ∧
      ∃ references, (performAll { host } [load]).unload "hooks" =
        (performAll { host } [load], .failed (.inUse "hooks" references)) := by
  have ran : (Host.create {} ⟨[]⟩ (.filled 0) 0).toOption.map (fun host =>
      let begun := performAll { host } [.load "hooks" Object.hooked]
      (history ⟨0, 0⟩ { host } [.load "hooks" Object.hooked, .acquire "hooks", .drop 0,
        .unload "hooks", .hookReturns 0, .unload "hooks", .load "self" (Object.selfPointing 1),
        .hookReturns 0], begun.calls, begun.host.registry.find? "hooks")) =
        some ([.registered true, .initCalled (some .registered), .initReturned 0,
          .entered .live, .entered .finalizing, .exitCalled (some .finalizing) 0, .exitReturned,
          .removed], [.init ⟨"hooks", ⟨0, 0⟩, some 0xffffffffa0000000⟩], some ⟨0, 0⟩) := by
    decide +kernel
  rcases Option.map_eq_some_iff.mp ran with ⟨host, found, outcome⟩
  rcases Prod.mk.inj outcome with ⟨moments, rest⟩
  rcases Prod.mk.inj rest with ⟨calls, named⟩
  have created := Host.create_of_toOption found
  have running : .init ⟨"hooks", ⟨0, 0⟩, some 0xffffffffa0000000⟩ ∈
      (performAll { host } [.load "hooks" Object.hooked]).calls := by
    rw [calls]
    exact List.mem_cons_self
  exact ⟨host, created, moments, (history_lifetimes created _).1,
    ((history_lifetimes created _).2 _ running).2 "hooks" named⟩

end Session
end ModuleHost
