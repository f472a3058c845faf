import ModuleHost.Object

namespace ModuleHost
namespace Object

/-!
# Module information

A module describes itself in the section `.modinfo` by entries `key=value`, each
ended by a NUL.  Entries that are not UTF-8 or have no equals sign say nothing; of
several entries with one key the last counts.
-/

/-- The pieces between NULs. -/
def pieces : List UInt8 → List (List UInt8)
  | [] => [[]]
  | byte :: rest =>
    if byte = 0 then [] :: pieces rest
    else
      match pieces rest with
      | [] => [[byte]]
      | piece :: more => (byte :: piece) :: more

/-- The key and the value of an entry. -/
def infoEntry? (piece : List UInt8) : Option (String × String) := do
  let text ← Text.decode? piece
  match text.toList.span (· ≠ '=') with
  | (key, _ :: value) => some (String.ofList key, String.ofList value)
  | (_, []) => none

/-- The entries of an object in order. -/
def infoEntries (object : Object) : List (String × String) :=
  match object.findSection? ".modinfo" with
  | some header => (pieces (object.contents header)).filterMap infoEntry?
  | none => []

/-- What an object says about a key. -/
def info? (object : Object) (key : String) : Option String :=
  (object.infoEntries.reverse.find? fun entry => entry.1 = key).map Prod.snd

end Object
end ModuleHost
