import ModuleHost.Notice

namespace ModuleHost

/-!
# Names of thresholds

Which names stand for thresholds is a matter of the logging facade.  The settings ask it
for the threshold of a name, and rely on nothing but getting the same answer each time.
-/

/-- A reader of names. -/
class LevelNames where
  /-- The threshold with a given name. -/
  threshold? (name : List Char) : Option Threshold

namespace Threshold

/-- The thresholds with the names that the facade documents for them. -/
def named : List (String × Threshold) :=
  [("off", .off), ("error", .upTo .error), ("warn", .upTo .warn), ("info", .upTo .info),
    ("debug", .upTo .debug), ("trace", .upTo .trace)]

/-- The threshold with a documented name, whatever the case of its ASCII letters. -/
def ofName? (name : List Char) : Option Threshold :=
  (named.find? fun entry => name.map Char.toLower = entry.1.toList).map Prod.snd

end Threshold

/-- The names that the program goes by. -/
instance : LevelNames where
  threshold? := Threshold.ofName?

end ModuleHost
