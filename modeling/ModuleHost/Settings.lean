import ModuleHost.Arena
import ModuleHost.Object.Machine
import ModuleHost.Settings.LevelNames
import ModuleHost.Settings.Number
import ModuleHost.Settings.Tokens
import ModuleHost.Text.Quoted

namespace ModuleHost

/-!
# Settings

The settings of the module host are defaults overridden by assignments on the
kernel command line.  A line is applied token by token: a later assignment to a
key wins, keys of other components are skipped, and the first bad value stops the
line with everything before it applied.
-/

/-- What the host is configured with. -/
structure Settings where
  text : WindowSpec := ⟨0xFFFFFFFFA0000000, 128 <<< 20⟩
  data : WindowSpec := ⟨0xFFFFFFFFA8000000, 128 <<< 20⟩
  /-- The only machine whose objects are accepted. -/
  machine : Machine := .native
  threshold : Threshold := .upTo .info
  deriving DecidableEq, Repr

namespace Settings

/-- A value that its key does not admit. -/
structure InvalidValue where
  key : String
  value : String
  deriving DecidableEq, Repr

def InvalidValue.message (error : InvalidValue) : String :=
  s!"invalid value {Text.quoted error.value} for {error.key}"

/-- The settings that a command line can assign. -/
inductive Key
  | textBase
  | textSize
  | dataBase
  | dataSize
  | threshold
  deriving DecidableEq, Repr

def Key.name : Key → String
  | .textBase => "kmod.text_base"
  | .textSize => "kmod.text_size"
  | .dataBase => "kmod.data_base"
  | .dataSize => "kmod.data_size"
  | .threshold => "loglevel"

/-- The key with a given name. -/
def Key.ofName? (name : List Char) : Option Key :=
  [textBase, textSize, dataBase, dataSize, threshold].find? fun key => name = key.name.toList

variable [LevelNames]

/-- A threshold by its number, zero for errors only and four for all, or by name. -/
def threshold? : List Char → Option Threshold
  | ['0'] => some (.upTo .error)
  | ['1'] => some (.upTo .warn)
  | ['2'] => some (.upTo .info)
  | ['3'] => some (.upTo .debug)
  | ['4'] => some (.upTo .trace)
  | name => LevelNames.threshold? name

/-- Assign a value, if the key admits it. -/
def assign? (settings : Settings) (key : Key) (value : List Char) : Option Settings :=
  match key with
  | .textBase => (number? value).map fun base =>
      { settings with text := { settings.text with base } }
  | .textSize => (number? value).map fun size =>
      { settings with text := { settings.text with size } }
  | .dataBase => (number? value).map fun base =>
      { settings with data := { settings.data with base } }
  | .dataSize => (number? value).map fun size =>
      { settings with data := { settings.data with size } }
  | .threshold => (threshold? value).map fun threshold => { settings with threshold }

/-- Apply one token; tokens that assign none of the keys change nothing. -/
def applyToken (settings : Settings) (token : List Char) : Except InvalidValue Settings :=
  match assignment? token with
  | none => .ok settings
  | some (name, value) =>
    match Key.ofName? name with
    | none => .ok settings
    | some key =>
      match settings.assign? key value with
      | some settings => .ok settings
      | none => .error ⟨String.ofList name, String.ofList value⟩

/-- Apply tokens in order up to the first bad value. -/
def applyTokens (settings : Settings) : List (List Char) → Settings × Except InvalidValue Unit
  | [] => (settings, .ok ())
  | token :: rest =>
    match settings.applyToken token with
    | .ok settings => settings.applyTokens rest
    | .error error => (settings, .error error)

/-- Apply a command line. -/
def applyLine (settings : Settings) (line : String) : Settings × Except InvalidValue Unit :=
  settings.applyTokens (tokens line.toList)

/-- The defaults overridden by a command line. -/
def ofLine (line : String) : Except InvalidValue Settings :=
  match ({} : Settings).applyLine line with
  | (settings, .ok ()) => .ok settings
  | (_, .error error) => .error error

end Settings

end ModuleHost
