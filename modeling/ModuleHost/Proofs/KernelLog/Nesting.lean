import Mathlib.Tactic.ByContra
import ModuleHost.KernelLog

namespace ModuleHost
namespace KernelLog

/-!
# Requests from inside the console

A console may log on its own account while it is given a text.  If the text belongs to a record
that is being handled, such a request is dropped, and the record comes out as on a console that
never logs.  Nothing marks the logger in this way while the ring is shown: there, a request is
handled like any other, and at its end it asks for the ring, which is held by the request to
show it.  So the ring is shown exactly if the threshold refuses all that the console asks for.

Nesting goes no deeper than two levels, whatever the console does.
-/

/-- A console that reports an error of its own whenever it is given a text. -/
def Console.troubled : Console where
  reaction _ _ := [⟨.error, ["reentered"]⟩]

namespace Logger

/-- A request that is dropped: not urgent enough, or made while a record is handled. -/
def drops (logger : Logger) (request : Request) : Bool :=
  !logger.threshold.admits request.severity || logger.busy

/-- A record shown and kept: the logger afterwards and the pieces that its console was given. -/
def recorded (logger : Logger) (now : UInt64) (request : Request) : Logger × List String :=
  let record : Entry := ⟨request.severity, now, bounded messageLimit request.chunks⟩
  let shown := logger.console.elim [] fun _ => entryPieces record
  ({ logger with
      ring := logger.ring.append request.severity now record.message
      busy := false
      pieces := logger.pieces + shown.length }, shown)

/-- The pieces of text that show the ring. -/
def replayPieces (logger : Logger) : List String :=
  if logger.ring.entries = [] then ["(empty log buffer)\n"]
  else logger.ring.entries.flatMap entryPieces

/-- The logger when its console has been given one more piece. -/
def given (logger : Logger) : Logger :=
  { logger with pieces := logger.pieces + 1 }

/-- The logger while its ring is held. -/
def holding (logger : Logger) : Logger :=
  { logger with ringHeld := true }

/-- Some of the texts, given to the console one after the other, makes it ask for a record
that is not dropped. -/
def Provoked (logger : Logger) (console : Console) (texts : List String) : Prop :=
  ∃ index text request, texts[index]? = some text ∧
    request ∈ console.reaction (logger.pieces + index) text ∧ logger.drops request = false

theorem drops_given (logger : Logger) : logger.given.drops = logger.drops := rfl

variable {logger : Logger} {console : Console} {request : Request} {now : UInt64}

theorem all_dropped {requests : List Request}
    (calm : ¬∃ request ∈ requests, logger.drops request = false) :
    ∀ request ∈ requests, logger.given.drops request = true := by
  intro request asked
  rw [drops_given, ← Bool.not_eq_false]
  exact fun taken => calm ⟨request, asked, taken⟩

/-! ## Requests that are dropped -/

theorem handle_of_drops (dropped : logger.drops request = true) (depth : Nat) :
    handle now (depth + 1) logger request = .ok (logger, []) := by
  rw [handle, ← drops, if_pos dropped]

theorem serve_of_drops {requests : List Request}
    (dropped : ∀ request ∈ requests, logger.drops request = true) (depth : Nat) :
    serve (handle now (depth + 1)) logger requests = .ok (logger, []) := by
  induction requests with
  | nil => rfl
  | cons request rest later =>
      rcases List.forall_mem_cons.mp dropped with ⟨first, others⟩
      rw [serve, handle_of_drops first]
      simp only [later others, List.append_nil]

/-- The texts after the first provoke a console that the first one does not. -/
theorem provoked_cons_iff {text : String} {rest : List String} :
    logger.Provoked console (text :: rest) ↔
      (∃ request ∈ console.reaction logger.pieces text, logger.drops request = false) ∨
        logger.given.Provoked console rest := by
  constructor
  · rintro ⟨index, other, request, found, asked, taken⟩
    cases index with
    | zero =>
        cases found
        exact Or.inl ⟨request, asked, taken⟩
    | succ index =>
        refine Or.inr ⟨index, other, request, found, ?_, taken⟩
        rwa [given, Nat.add_assoc, Nat.add_comm 1]
  · rintro (⟨request, asked, taken⟩ | ⟨index, other, request, found, asked, taken⟩)
    · exact ⟨0, text, request, rfl, asked, taken⟩
    · refine ⟨index + 1, other, request, found, ?_, taken⟩
      rwa [given, Nat.add_assoc, Nat.add_comm 1] at asked

theorem present_cons_ok {handle : Logger → Request → Step} {piece : String}
    (served : serve handle logger.given (console.reaction logger.pieces piece) =
      .ok (logger.given, [])) (rest : List String) :
    present handle console logger (piece :: rest) =
      (present handle console logger.given rest).map fun shown => (shown.1, piece :: shown.2) := by
  rw [given] at served ⊢
  simp only [present, served]
  cases present handle console { logger with pieces := logger.pieces + 1 } rest <;> rfl

theorem present_cons_error {handle : Logger → Request → Step} {piece : String} {stall : Stall}
    (served : serve handle logger.given (console.reaction logger.pieces piece) = .error stall)
    (rest : List String) : present handle console logger (piece :: rest) = .error stall := by
  rw [given] at served
  rw [present, served]

/-- A console that is not provoked is given all the texts. -/
theorem present_of_not_provoked {texts : List String}
    (calm : ¬logger.Provoked console texts) (depth : Nat) :
    present (handle now (depth + 1)) console logger texts =
      .ok ({ logger with pieces := logger.pieces + texts.length }, texts) := by
  induction texts generalizing logger with
  | nil => rfl
  | cons text rest later =>
      rw [provoked_cons_iff, not_or] at calm
      rw [present_cons_ok (serve_of_drops (all_dropped calm.1) depth), later calm.2, Except.map,
        given, List.length_cons, Nat.add_assoc, Nat.add_comm 1]

/-! ## Handling a request -/

/-- Whatever a console asks for while a record is handled, it is given the pieces of the
record, and nothing else happens. -/
theorem handle_of_taken (taken : logger.drops request = false) (depth : Nat) :
    handle now (depth + 2) logger request =
      if logger.ringHeld then .error .ringLocked else .ok (logger.recorded now request) := by
  rw [handle, ← drops, taken, if_neg Bool.false_ne_true]
  rcases logger with ⟨_ | console, threshold, ring, busy, held, pieces⟩
  · cases held <;> simp [keep, recorded]
  · let started : Logger := ⟨some console, threshold, ring, true, held, pieces⟩
    let record : Entry := ⟨request.severity, now, bounded messageLimit request.chunks⟩
    have calm : ¬started.Provoked console (entryPieces record) := by
      rintro ⟨_, _, other, _, _, undropped⟩
      rw [drops, Bool.or_true] at undropped
      cases undropped
    have shown : present (handle now (depth + 1)) console started (entryPieces record) =
        .ok ({ started with pieces := pieces + 3 }, entryPieces record) :=
      present_of_not_provoked calm depth
    simp only [entryPieces, started, record] at shown
    simp only [shown]
    cases held <;> simp [keep, recorded, entryPieces]

/-- The levels of nesting suffice, and what a console asks for meanwhile does not matter. -/
theorem log_eq (logger : Logger) (now : UInt64) (request : Request) :
    logger.log now request =
      if logger.drops request then .ok (logger, [])
      else if logger.ringHeld then .error .ringLocked
      else .ok (logger.recorded now request) := by
  cases taken : logger.drops request with
  | true => exact handle_of_drops taken 1
  | false => exact handle_of_taken taken 0

/-! ## Showing the ring -/

/-- The first request that is not dropped waits for the ring. -/
theorem serve_of_held (held : logger.ringHeld = true) {requests : List Request}
    (listed : request ∈ requests) (taken : logger.drops request = false) (depth : Nat) :
    serve (handle now (depth + 2)) logger requests = .error .ringLocked := by
  induction requests with
  | nil => cases listed
  | cons first rest later =>
      rw [serve]
      cases dropped : logger.drops first with
      | false => rw [handle_of_taken dropped, if_pos held]
      | true =>
          rw [handle_of_drops dropped]
          rcases List.mem_cons.mp listed with rfl | listed
          · rw [taken] at dropped
            cases dropped
          · simp only [later listed]

/-- A console that is provoked while the ring is held waits for ever. -/
theorem present_of_provoked (held : logger.ringHeld = true) {texts : List String}
    (provoked : logger.Provoked console texts) (depth : Nat) :
    present (handle now (depth + 2)) console logger texts = .error .ringLocked := by
  induction texts generalizing logger with
  | nil =>
      rcases provoked with ⟨index, text, request, found, _⟩
      cases found
  | cons text rest later =>
      have held' : logger.given.ringHeld = true := held
      by_cases early : ∃ request ∈ console.reaction logger.pieces text,
          logger.drops request = false
      · rcases early with ⟨request, asked, taken⟩
        rw [← drops_given] at taken
        exact present_cons_error (serve_of_held held' asked taken depth) rest
      · rw [present_cons_ok (serve_of_drops (all_dropped early) (depth + 1)),
          later held' ((provoked_cons_iff.mp provoked).resolve_left early)]
        rfl

/-- Showing the ring is giving its texts to the console while it is held. -/
theorem replay_opened (shows : logger.console = some console) (free : logger.ringHeld = false)
    (now : UInt64) :
    logger.replay now =
      (present (handle now depth) console logger.holding logger.replayPieces).map
        fun shown => ({ shown.1 with ringHeld := false }, shown.2) := by
  unfold replay replayPieces holding
  rw [shows]
  simp only [free, if_neg Bool.false_ne_true]
  cases logger.ring.entries with
  | nil =>
      simp only [reduceIte]
      split <;> (next ended => rw [ended]; rfl)
  | cons entry rest =>
      simp only [reduceCtorEq, reduceIte]
      split <;> (next ended => rw [ended]; rfl)

/-- The ring is shown to the end exactly if its texts do not provoke the console. -/
theorem replay_eq (shows : logger.console = some console) (free : logger.ringHeld = false)
    (now : UInt64) :
    (logger.Provoked console logger.replayPieces → logger.replay now = .error .ringLocked) ∧
    (¬logger.Provoked console logger.replayPieces → logger.replay now =
      .ok ({ logger with pieces := logger.pieces + logger.replayPieces.length },
        logger.replayPieces)) := by
  rw [replay_opened shows free]
  constructor
  · intro provoked
    have provoked' : logger.holding.Provoked console logger.replayPieces := provoked
    rw [depth, present_of_provoked rfl provoked' 0]
    rfl
  · intro calm
    have calm' : ¬logger.holding.Provoked console logger.replayPieces := calm
    rw [depth, present_of_not_provoked calm' 1, Except.map, holding, ← free]

theorem exists_first_piece (logger : Logger) : ∃ text, logger.replayPieces[0]? = some text := by
  unfold replayPieces
  cases logger.ring.entries with
  | nil => exact ⟨_, rfl⟩
  | cons entry rest => exact ⟨_, rfl⟩

/-- A console that reports errors of its own is provoked unless they are refused. -/
theorem provoked_troubled {logger : Logger} (admits : logger.threshold.admits .error = true)
    (idle : logger.busy = false) : logger.Provoked .troubled logger.replayPieces := by
  rcases logger.exists_first_piece with ⟨text, first⟩
  refine ⟨0, text, ⟨.error, ["reentered"]⟩, first, List.mem_singleton_self _, ?_⟩
  rw [drops, admits, idle]
  rfl

/-! ## Both ways to reach the console -/

/-- While nobody holds the ring, every request to log comes back, at any allowance of nesting:
what the console asks for meanwhile is dropped, so its record alone is shown and kept.  A request
to show the ring comes back exactly if the console is not provoked by the texts; otherwise the
request that provokes it waits for the ring that the same thread holds. -/
theorem console_requests (logger : Logger) (console : Console)
    (shows : logger.console = some console) (free : logger.ringHeld = false) (now : UInt64) :
    (∀ request more, handle now (depth + more) logger request =
      .ok (if logger.drops request then (logger, []) else logger.recorded now request)) ∧
    (logger.replay now = .error .ringLocked ↔ logger.Provoked console logger.replayPieces) ∧
    (logger.replay now = .ok ({ logger with pieces := logger.pieces + logger.replayPieces.length },
        logger.replayPieces) ↔ ¬logger.Provoked console logger.replayPieces) := by
  rcases replay_eq shows free now with ⟨waits, ends⟩
  refine ⟨fun request more => ?_, ⟨fun waited => ?_, waits⟩, ⟨fun ended provoked => ?_, ends⟩⟩
  · rw [depth, Nat.add_comm 2]
    cases taken : logger.drops request with
    | true => exact handle_of_drops taken (more + 1)
    | false =>
        rw [handle_of_taken taken more, free, if_neg Bool.false_ne_true, if_neg Bool.false_ne_true]
  · by_contra calm
    rw [ends calm] at waited
    cases waited
  · rw [waits provoked] at ended
    cases ended

/-- On a console that reports errors of its own a record comes out as on any other, and
showing the empty ring does not come back. -/
theorem console_requests_troubled :
    ({ console := some .troubled } : Logger).log 1500000 ⟨.warn, ["n", "ée"]⟩ =
      .ok (({ console := some .troubled } : Logger).recorded 1500000 ⟨.warn, ["n", "ée"]⟩) ∧
    ({ console := some .troubled } : Logger).replay 1500000 = .error .ringLocked := by
  rcases console_requests { console := some .troubled } .troubled rfl rfl 1500000 with
    ⟨logs, waits, _⟩
  exact ⟨logs ⟨.warn, ["n", "ée"]⟩ 0, waits.mpr (provoked_troubled rfl rfl)⟩

/-- A record is made, and the console that showed it cannot be shown the ring. -/
theorem shown_ring_waits_for_itself :
    ∃ after, ({ console := some .troubled } : Logger).log 0 ⟨.info, ["first"]⟩ =
        .ok (after, entryPieces ⟨.info, 0, bounded messageLimit ["first"]⟩) ∧
      after.busy = false ∧ after.ringHeld = false ∧ after.replay 0 = .error .ringLocked := by
  refine ⟨_, log_eq _ 0 ⟨.info, ["first"]⟩, rfl, rfl, ?_⟩
  exact (replay_eq rfl rfl 0).1 (provoked_troubled rfl rfl)

end Logger
end KernelLog
end ModuleHost
