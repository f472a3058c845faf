import ModuleHost.Object.Records
import ModuleHost.Object.Strings
import ModuleHost.Page

namespace ModuleHost

/-!
# Loaded modules

A loaded module remembers its tables, where its sections were put, which modules
it holds references to and how many are held on it.
-/

/-- A module's stage of life. -/
inductive Phase
  /-- Registered; its init function has not returned. -/
  | registered
  | live
  /-- Its init function failed, but other modules depend on it. -/
  | initFailed
  /-- On its way out; no new reference is given. -/
  | finalizing
  deriving DecidableEq, Repr

/-- The name of a phase in messages. -/
def Phase.label : Phase → String
  | .registered => "Registered"
  | .live => "Live"
  | .initFailed => "InitFailed"
  | .finalizing => "Finalizing"

/-- Other modules may bind to a module that is neither failed nor leaving. -/
def Phase.isOpen : Phase → Bool
  | .registered | .live => true
  | .initFailed | .finalizing => false

/-- What kind of memory a section was given. -/
inductive PlacementKind
  | unplaced
  | text
  | data
  /-- The shared page of zeros. -/
  | zeroPage
  deriving DecidableEq, Repr

/-- Where a section was put. -/
structure Placement where
  address : Address := 0
  size : Nat := 0
  kind : PlacementKind := .unplaced
  deriving DecidableEq, Repr

namespace Placement

/-- The placement of a section that takes no memory. -/
def unplaced : Placement := {}

/-- The address that lies a symbol's value behind the start of the section; the sum wraps. -/
def addressAt (placement : Placement) (value : Nat) : Address :=
  (placement.address + value) % addressLimit

/-- The section has pages of its own. -/
def ownsPages (placement : Placement) : Bool :=
  placement.kind = .text || placement.kind = .data

def contains (placement : Placement) (address : Address) : Bool :=
  placement.kind ≠ .unplaced && placement.address ≤ address &&
    address - placement.address < placement.size

end Placement

/-- A registry slot at one time of its use. -/
structure Handle where
  index : Nat
  generation : UInt32
  deriving DecidableEq, Repr

/-- A module as the registry keeps it. -/
structure LoadedModule where
  name : String
  version : Option String := none
  description : Option String := none
  sections : List Object.Section := []
  /-- Where each section was put, by section index. -/
  placements : List Placement := []
  symbols : List Object.Symbol := []
  symbolNames : List UInt8 := []
  initEntry : Option Address := none
  exitEntry : Option Address := none
  /-- How many references are held on this module. -/
  references : Nat := 0
  /-- The modules this one holds references to, one entry per reference. -/
  dependencies : List Handle := []
  /-- The symbols that other modules can bind to. -/
  exports : List (String × Address) := []
  /-- The page of call stubs. -/
  stubPage : Option Address := none
  phase : Phase := .registered
  deriving Repr

namespace LoadedModule

def symbolName (module : LoadedModule) (symbol : Object.Symbol) : String :=
  Object.textAt module.symbolNames symbol.nameOffset.toNat

/-- The address of the first export with a name. -/
def exported? (module : LoadedModule) (name : String) : Option Address :=
  (module.exports.find? fun entry => entry.1 = name).map Prod.snd

/-- The total size of the sections put into one kind of memory. -/
def sizeIn (module : LoadedModule) (kind : PlacementKind) : Nat :=
  let placed := module.placements.filter fun placement => placement.kind = kind
  placed.foldr (fun placement total => placement.size + total) 0

/-- The index of the section of its own memory that an address lies in. -/
def sectionAt? (module : LoadedModule) (address : Address) : Option Nat :=
  module.placements.findIdx? fun placement =>
    placement.kind ≠ .zeroPage && placement.contains address

end LoadedModule

end ModuleHost
