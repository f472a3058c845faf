namespace ModuleHost

/-!
# Notices

Components report what happened as notices: a severity and a line of text.
Whoever runs a component hands its notices to a logger, which shows those that
its threshold admits.
-/

/-- How urgent a notice is, most urgent first. -/
inductive Severity
  | error
  | warn
  | info
  | debug
  | trace
  deriving DecidableEq, Repr

namespace Severity

/-- The position on the scale: one for the most urgent. -/
def rank : Severity → Nat
  | .error => 1
  | .warn => 2
  | .info => 3
  | .debug => 4
  | .trace => 5

/-- The severity with a stored rank; unknown ranks count as the least urgent. -/
def ofRank : Nat → Severity
  | 1 => .error
  | 2 => .warn
  | 3 => .info
  | 4 => .debug
  | _ => .trace

theorem ofRank_rank (severity : Severity) : ofRank severity.rank = severity := by
  cases severity <;> rfl

end Severity

/-- The least urgent severity that is still shown. -/
inductive Threshold
  | off
  | upTo (severity : Severity)
  deriving DecidableEq, Repr

namespace Threshold

def admits : Threshold → Severity → Bool
  | .off, _ => false
  | .upTo limit, severity => severity.rank ≤ limit.rank

end Threshold

/-- One line of a report. -/
structure Notice where
  severity : Severity
  text : String
  deriving DecidableEq, Repr

end ModuleHost
