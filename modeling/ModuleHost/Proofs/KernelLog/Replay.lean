import Mathlib.Data.List.ReduceOption
import ModuleHost.Proofs.KernelLog.Line
import ModuleHost.Proofs.KernelLog.Nesting
import ModuleHost.Proofs.KernelLog.Ring

namespace ModuleHost
namespace KernelLog

/-!
# The log shown again

A record reaches the console twice: when it is made, and when the ring is shown later.
The first text is made of the record itself, the second of the bytes that the ring kept of
it.  They are the same, since the message was cut to what the ring keeps before either.

A console may log while it shows a record; nothing comes of that.  While the ring is shown
such a request would wait for the ring, so this console has to be silent.
-/

namespace Logger

/-! ## Histories -/

/-- What may happen to a logger before its ring is shown. -/
inductive Event
  | log (now : UInt64) (request : Request)
  | setThreshold (threshold : Threshold)

/-- The logger after an event and the pieces that its console was given. -/
def advance (logger : Logger) : Event → Step
  | .log now request => logger.log now request
  | .setThreshold threshold => .ok (logger.setThreshold threshold, [])

/-- The logger after a history and the pieces that its console was given at each event. -/
def run : Logger → List Event → Except Stall (Logger × List (List String))
  | logger, [] => .ok (logger, [])
  | logger, event :: rest =>
    match logger.advance event with
    | .error stall => .error stall
    | .ok (logger, shown) =>
      match run logger rest with
      | .error stall => .error stall
      | .ok (logger, later) => .ok (logger, shown :: later)

/-- The record that each event of a history leaves, where the threshold in force at the
beginning is given.  The message of a record is as much of its text as a buffer shows. -/
inductive Leaves : Threshold → List Event → List (Option Entry) → Prop
  | nil {threshold : Threshold} : Leaves threshold [] []
  | admitted {threshold : Threshold} {now : UInt64} {request : Request} {message : String}
      {rest : List Event} {records : List (Option Entry)}
      (admits : threshold.admits request.severity = true)
      (shows : Text.LongestIn message
        ((Text.encode (String.join request.chunks)).take messageLimit))
      (later : Leaves threshold rest records) :
      Leaves threshold (.log now request :: rest)
        (some ⟨request.severity, now, message⟩ :: records)
  | refused {threshold : Threshold} {now : UInt64} {request : Request}
      {rest : List Event} {records : List (Option Entry)}
      (refuses : threshold.admits request.severity = false)
      (later : Leaves threshold rest records) :
      Leaves threshold (.log now request :: rest) (none :: records)
  | setThreshold {threshold next : Threshold} {rest : List Event} {records : List (Option Entry)}
      (later : Leaves next rest records) :
      Leaves threshold (.setThreshold next :: rest) (none :: records)

/-- The pieces of text for what an event leaves. -/
def shownFor (record : Option Entry) : List String :=
  record.elim [] entryPieces

theorem Leaves.length_le {threshold : Threshold} {events : List Event}
    {records : List (Option Entry)} (leaves : Leaves threshold events records) {record : Entry}
    (listed : record ∈ records.reduceOption) :
    (Text.encode record.message).length ≤ messageLimit := by
  induction leaves with
  | nil => cases listed
  | admitted _ shows _ earlier =>
      rw [List.reduceOption_cons_of_some] at listed
      rcases List.mem_cons.mp listed with rfl | listed
      · exact Nat.le_trans shows.begins.length_le (List.length_take_le _ _)
      · exact earlier listed
  | refused _ _ earlier => exact earlier listed
  | setThreshold _ earlier => exact earlier listed

/-! ## Runs -/

/-- A logger between two requests: no record is being handled, and its ring holds what is
left of the records. -/
structure Idle (console : Console) (records : List Entry) (logger : Logger) : Prop where
  console_eq : logger.console = some console
  busy_eq : logger.busy = false
  ringHeld_eq : logger.ringHeld = false
  ring_eq : logger.ring = Ring.empty.appendAll records

variable {console : Console} {records : List Entry} {logger : Logger}

theorem log_refused (now : UInt64) {request : Request}
    (refuses : logger.threshold.admits request.severity = false) :
    logger.log now request = .ok (logger, []) := by
  rw [log_eq, drops, refuses, Bool.not_false, Bool.true_or, if_pos rfl]

/-- A record that is admitted is shown and kept. -/
theorem Idle.log (idle : logger.Idle console records) (now : UInt64) {request : Request}
    (admits : logger.threshold.admits request.severity = true) :
    let record : Entry := ⟨request.severity, now, bounded messageLimit request.chunks⟩
    ∃ after, logger.log now request = .ok (after, entryPieces record) ∧
      after.Idle console (records ++ [record]) ∧ after.threshold = logger.threshold := by
  intro record
  have taken : logger.drops request = false := by
    rw [drops, admits, idle.busy_eq, Bool.not_true, Bool.false_or]
  have handled : logger.log now request = .ok (logger.recorded now request) := by
    rw [log_eq, taken, if_neg Bool.false_ne_true, idle.ringHeld_eq, if_neg Bool.false_ne_true]
  rw [recorded, idle.console_eq, Option.elim_some] at handled
  refine ⟨_, handled, ⟨rfl, rfl, idle.ringHeld_eq, ?_⟩, rfl⟩
  rw [Ring.appendAll_concat, ← idle.ring_eq]

/-- A history leaves its records, shows each of them when it is made, and keeps what the
ring keeps of them. -/
theorem Idle.run (idle : logger.Idle console records) (events : List Event) :
    ∃ left after, Leaves logger.threshold events left ∧
      logger.run events = .ok (after, left.map shownFor) ∧
      after.Idle console (records ++ left.reduceOption) := by
  induction events generalizing logger records with
  | nil => exact ⟨[], logger, .nil, rfl, by rwa [List.reduceOption_nil, List.append_nil]⟩
  | cons event rest history =>
      cases event with
      | log now request =>
          cases admits : logger.threshold.admits request.severity with
          | true =>
              rcases idle.log now admits with ⟨next, logged, idle', threshold⟩
              rcases history idle' with ⟨left, after, leaves, ran, idle''⟩
              rw [threshold] at leaves
              refine ⟨_, after, .admitted admits (longestIn_bounded messageLimit request.chunks)
                leaves, ?_, ?_⟩
              · simp only [Logger.run, advance, logged, ran, List.map_cons, shownFor,
                  Option.elim_some]
              · rwa [List.reduceOption_cons_of_some, List.append_cons]
          | false =>
              rcases history idle with ⟨left, after, leaves, ran, idle'⟩
              refine ⟨_, after, .refused admits leaves, ?_, idle'⟩
              simp only [Logger.run, advance, log_refused now admits, ran, List.map_cons,
                shownFor, Option.elim_none]
      | setThreshold threshold =>
          have idle' : (logger.setThreshold threshold).Idle console records :=
            ⟨idle.console_eq, idle.busy_eq, idle.ringHeld_eq, idle.ring_eq⟩
          rcases history idle' with ⟨left, after, leaves, ran, idle''⟩
          refine ⟨_, after, .setThreshold leaves, ?_, idle''⟩
          simp only [Logger.run, advance, ran, List.map_cons, shownFor, Option.elim_none]

/-- Showing the ring gives a silent console the texts of the records that are kept. -/
theorem Idle.replay (idle : logger.Idle console records) {kept : List Entry}
    (entries : logger.ring.entries = kept)
    (silent : ∀ number piece, console.reaction number piece = []) (now : UInt64) :
    ∃ after, logger.replay now = .ok (after,
      if kept = [] then ["(empty log buffer)\n"] else kept.flatMap entryPieces) := by
  have calm : ¬logger.Provoked console logger.replayPieces := by
    rintro ⟨index, text, request, _, asked, _⟩
    rw [silent] at asked
    cases asked
  have replayed := (replay_eq idle.console_eq idle.ringHeld_eq now).2 calm
  rw [replayPieces, entries] at replayed
  exact ⟨_, replayed⟩

theorem Idle.entries_eq (idle : logger.Idle console records)
    (short : ∀ record ∈ records, (Text.encode record.message).length ≤ messageLimit) :
    logger.ring.entries = newest ringCapacity records := by
  rw [idle.ring_eq, (Ring.holds_appendAll (by decide) records).entries_eq]
  refine (List.map_congr_left fun record listed => ?_).trans (List.map_id _)
  exact Entry.shortened_eq (short record ((newest_suffix _ _).subset listed))

/-- The log shown again is the log as it was shown.  At each event of a history the console
is given one text if the threshold admits the record, and nothing otherwise; and a silent
console is then given the texts of the longest run of newest records that fits into the
ring, in order, or a remark when there is no record. -/
theorem replay_shows_log (console : Console) (events : List Event) :
    ∃ records logger kept, Leaves (.upTo .info) events records ∧
      run { console := some console } events = .ok (logger, records.map shownFor) ∧
      Newest ringCapacity records.reduceOption kept ∧
      logger.ring.entries = kept ∧
      ((∀ number piece, console.reaction number piece = []) → ∀ now, ∃ after,
        logger.replay now = .ok (after,
          if records.reduceOption = [] then ["(empty log buffer)\n"]
          else kept.flatMap entryPieces)) := by
  have fresh : Idle console [] { console := some console } := ⟨rfl, rfl, rfl, rfl⟩
  rcases fresh.run events with ⟨records, logger, leaves, ran, idle⟩
  rw [List.nil_append] at idle
  have entries := idle.entries_eq fun record listed => leaves.length_le listed
  refine ⟨records, logger, _, leaves, ran, newest_spec _ _, entries, fun silent now => ?_⟩
  have empty : newest ringCapacity records.reduceOption = [] ↔ records.reduceOption = [] := by
    rw [← List.getLast?_eq_none_iff, getLast?_newest (by decide), List.getLast?_eq_none_iff]
  simp only [← empty]
  exact idle.replay entries silent now

/-- A history with a record that is not admitted, on a console that never logs. -/
theorem replay_shows_log_on_quiet_console :
    ∃ records logger kept after,
      Leaves (.upTo .info) [.log 1500000 ⟨.warn, ["n", "ée"]⟩, .setThreshold (.upTo .error),
        .log 1500007 ⟨.info, ["x"]⟩] records ∧
      run { console := some .quiet } [.log 1500000 ⟨.warn, ["n", "ée"]⟩,
        .setThreshold (.upTo .error), .log 1500007 ⟨.info, ["x"]⟩] =
          .ok (logger, records.map shownFor) ∧
      Newest ringCapacity records.reduceOption kept ∧
      logger.replay 1500008 = .ok (after,
        if records.reduceOption = [] then ["(empty log buffer)\n"]
        else kept.flatMap entryPieces) := by
  rcases replay_shows_log .quiet [.log 1500000 ⟨.warn, ["n", "ée"]⟩,
    .setThreshold (.upTo .error), .log 1500007 ⟨.info, ["x"]⟩] with
    ⟨records, logger, kept, leaves, ran, newest, _, replayed⟩
  rcases replayed (fun _ _ => rfl) 1500008 with ⟨after, shown⟩
  exact ⟨records, logger, kept, after, leaves, ran, newest, shown⟩

end Logger
end KernelLog
end ModuleHost
