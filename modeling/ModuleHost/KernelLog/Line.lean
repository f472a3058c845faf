import ModuleHost.Notice
import ModuleHost.Text.Numeral
import ModuleHost.Text.Utf8

namespace ModuleHost
namespace KernelLog

/-!
# Lines on the console

Text reaches the console through buffers of fixed size.  A buffer takes as many
bytes of each chunk as still fit; a character that was cut is left out.
-/

/-- A buffer after one more chunk. -/
def fill (limit : Nat) (buffer chunk : List UInt8) : List UInt8 :=
  buffer ++ chunk.take (limit - buffer.length)

/-- The text that a buffer of `limit` bytes makes of the chunks written to it. -/
def bounded (limit : Nat) (chunks : List String) : String :=
  Text.decodeLeading (chunks.foldl (fun buffer chunk => fill limit buffer (Text.encode chunk)) [])

/-- The name of a severity in its column. -/
def severityColumn : Severity → String
  | .error => "ERROR"
  | .warn => " WARN"
  | .info => " INFO"
  | .debug => "DEBUG"
  | .trace => "TRACE"

/-- Room for the text in front of a message. -/
def stampLimit : Nat := 40

/-- The text in front of a message: seconds and microseconds, then the severity. -/
def stamp (timestamp : UInt64) (severity : Severity) : String :=
  bounded stampLimit
    ["[", Text.padLeft ' ' 6 (toString (timestamp.toNat / 1000000)), ".",
      Text.padLeft '0' 6 (toString (timestamp.toNat % 1000000)), "] ",
      severityColumn severity, ": "]

end KernelLog
end ModuleHost
