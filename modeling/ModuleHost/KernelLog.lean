import ModuleHost.KernelLog.Line
import ModuleHost.KernelLog.Ring

namespace ModuleHost
namespace KernelLog

/-!
# The kernel logger

A logger shows each record that its threshold admits on the console and keeps it
in the ring, from which the log can be shown again.

The console is a driver that may log on its own account while it shows a piece of
text.  Two marks guard against that: `busy` while a record is being handled, which
drops every further record, and `ringHeld` while somebody holds the ring's lock,
at which a second taker waits forever.  Since a record made during a record is
dropped at once, no request nests deeper than two levels.
-/

/-- A request to log: the chunks are written to the message buffer one by one. -/
structure Request where
  severity : Severity
  chunks : List String
  deriving DecidableEq, Repr

/-- A console driver, given by what it logs itself after each piece of text.  Pieces
are numbered, so that the driver may do something else every time. -/
structure Console where
  reaction : Nat → String → List Request

/-- A console that logs nothing. -/
def Console.quiet : Console where
  reaction _ _ := []

/-- Why a request does not come back. -/
inductive Stall
  | ringLocked
  | nestedTooDeep
  deriving DecidableEq, Repr

structure Logger where
  console : Option Console
  threshold : Threshold := .upTo .info
  ring : Ring ringCapacity := .empty
  busy : Bool := false
  ringHeld : Bool := false
  /-- How many pieces of text the console has been given. -/
  pieces : Nat := 0

namespace Logger

/-- A step of the logger: the logger after it and the pieces of text shown. -/
abbrev Step := Except Stall (Logger × List String)

/-- Serve the requests that a console makes, one after the other. -/
def serve (handle : Logger → Request → Step) : Logger → List Request → Step
  | logger, [] => .ok (logger, [])
  | logger, request :: rest =>
    match handle logger request with
    | .error stall => .error stall
    | .ok (logger, shown) =>
      match serve handle logger rest with
      | .error stall => .error stall
      | .ok (logger, more) => .ok (logger, shown ++ more)

/-- Show pieces of text, serving the console's own requests after each. -/
def present (handle : Logger → Request → Step) (console : Console) :
    Logger → List String → Step
  | logger, [] => .ok (logger, [])
  | logger, piece :: rest =>
    let given := { logger with pieces := logger.pieces + 1 }
    match serve handle given (console.reaction logger.pieces piece) with
    | .error stall => .error stall
    | .ok (logger, nested) =>
      match present handle console logger rest with
      | .error stall => .error stall
      | .ok (logger, more) => .ok (logger, piece :: nested ++ more)

/-- Keep a handled record; the ring's lock must be free. -/
def keep (logger : Logger) (now : UInt64) (severity : Severity) (message : String) :
    Except Stall Logger :=
  if logger.ringHeld then .error .ringLocked
  else .ok { logger with ring := logger.ring.append severity now message, busy := false }

/-- Handle a request at time `now`, with `depth` levels of nesting allowed. -/
def handle (now : UInt64) : (depth : Nat) → Logger → Request → Step
  | 0, _, _ => .error .nestedTooDeep
  | depth + 1, logger, request =>
    if !logger.threshold.admits request.severity || logger.busy then .ok (logger, [])
    else
      let message := bounded messageLimit request.chunks
      let pieces := [stamp now request.severity, message, "\n"]
      let started := { logger with busy := true }
      let shown : Step :=
        match logger.console with
        | none => .ok (started, [])
        | some console => present (handle now depth) console started pieces
      match shown with
      | .error stall => .error stall
      | .ok (logger, shown) =>
        match logger.keep now request.severity message with
        | .error stall => .error stall
        | .ok logger => .ok (logger, shown)

/-- The levels of nesting that can occur. -/
def depth : Nat := 2

/-- Log one record at time `now`. -/
def log (logger : Logger) (now : UInt64) (request : Request) : Step :=
  handle now depth logger request

/-- The pieces of text that show an entry. -/
def entryPieces (entry : Entry) : List String :=
  [stamp entry.timestamp entry.severity, entry.message, "\n"]

/-- Show the kept entries again, oldest first, while holding the ring's lock. -/
def replay (logger : Logger) (now : UInt64) : Step :=
  match logger.console with
  | none => .ok (logger, [])
  | some console =>
    if logger.ringHeld then .error .ringLocked
    else
      let pieces :=
        match logger.ring.entries with
        | [] => ["(empty log buffer)\n"]
        | entries => entries.flatMap entryPieces
      match present (handle now depth) console { logger with ringHeld := true } pieces with
      | .error stall => .error stall
      | .ok (logger, shown) => .ok ({ logger with ringHeld := false }, shown)

def setThreshold (logger : Logger) (threshold : Threshold) : Logger :=
  { logger with threshold }

/-- Another logger already serves the process. -/
inductive InstallError
  | alreadyInstalled
  deriving DecidableEq, Repr

def InstallError.message : InstallError → String
  | .alreadyInstalled =>
    "attempted to set a logger after the logging system was already initialized"

/-- Make this the process's logger; its threshold is set even when the place is
already taken. -/
def install (logger : Logger) (threshold : Threshold) (taken : Bool) :
    Logger × Except InstallError Unit :=
  (logger.setThreshold threshold, if taken then .error .alreadyInstalled else .ok ())

end Logger

end KernelLog
end ModuleHost
