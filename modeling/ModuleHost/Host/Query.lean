import ModuleHost.Host.State
import ModuleHost.Object

namespace ModuleHost

/-!
# Questions to the host

None of these takes a reference or changes the host.  An address is attributed to
the section of the module that holds it and to the nearest symbol of that section
at or below it.
-/

/-- What is told about a module. -/
structure ModuleSummary where
  module : LoadedModule
  textSize : Nat
  dataSize : Nat
  /-- The names of the modules it depends on, each once. -/
  dependencies : List String
  deriving Repr

/-- What an address belongs to: `offset` counts from the symbol, or from the start of
the section when no symbol lies before the address. -/
structure Attribution where
  module : String
  symbol : Option String
  offset : Nat
  deriving DecidableEq, Repr

/-- Keep the first occurrence of each text. -/
def distinctTexts (texts : List String) : List String :=
  texts.foldl (fun seen text => if seen.contains text then seen else seen ++ [text]) []

namespace LoadedModule

/-- The named places that symbols mark in a section, with their addresses. -/
def placesIn (module : LoadedModule) (index : Nat) (placement : Placement) :
    List (String × Address) :=
  module.symbols.filterMap fun symbol =>
    let name := module.symbolName symbol
    if symbol.sectionIndex.toNat = index && symbol.marksPlace && name ≠ "" then
      some (name, placement.addressAt symbol.value.toNat)
    else none

/-- The highest place at or below an address, the last one in the order of the table
if several are highest. -/
def nearest? (places : List (String × Address)) (address : Address) :
    Option (String × Address) :=
  places.foldl (fun best place =>
    if address < place.2 then best
    else
      match best with
      | some found => if found.2 ≤ place.2 then some place else best
      | none => some place) none

/-- Attribute an address to this module. -/
def attribute? (module : LoadedModule) (address : Address) : Option Attribution := do
  let index ← module.sectionAt? address
  let placement ← module.placements[index]?
  match nearest? (module.placesIn index placement) address with
  | some (name, start) => some ⟨module.name, some name, address - start⟩
  | none => some ⟨module.name, none, address - placement.address⟩

end LoadedModule

namespace Host

/-- The handle of a module. -/
def find? (host : Host) (name : String) : Option Handle :=
  host.registry.find? name

/-- A module by name. -/
def module? (host : Host) (name : String) : Option LoadedModule := do
  let handle ← host.registry.find? name
  host.registry.get? handle

/-- The names of the loaded modules. -/
def names (host : Host) : List String :=
  host.registry.entries.map fun entry => entry.2.name

def summary? (host : Host) (name : String) : Option ModuleSummary :=
  (host.module? name).map fun module =>
    let providers := module.dependencies.filterMap host.registry.get?
    { module
      textSize := module.sizeIn .text
      dataSize := module.sizeIn .data
      dependencies := distinctTexts (providers.map (·.name)) }

/-- The address of a symbol that a module exports. -/
def lookupIn (host : Host) (name symbol : String) : Option Address :=
  (host.module? name).bind (·.exported? symbol)

/-- The address of a symbol of the kernel, else of the first module that offers it. -/
def lookupGlobal (host : Host) (symbol : String) : Option Address :=
  match host.exports.lookup symbol with
  | some address => some address
  | none => (host.registry.resolve? symbol).map Prod.snd

/-- The symbols that a module exports. -/
def symbolsOf (host : Host) (name : String) : List (String × Address) :=
  ((host.module? name).map (·.exports)).getD []

/-- The module, symbol and offset of an address. -/
def attribute? (host : Host) (address : Address) : Option Attribution :=
  host.registry.entries.findSome? fun entry => entry.2.attribute? address

/-- The report on all modules and the arena. -/
def usageNotices (host : Host) : List Notice :=
  let lines := host.registry.entries.map fun (_, module) =>
    let column := Text.padRight ' ' 16 module.name
    let sizes := s!"text={module.sizeIn .text} data={module.sizeIn .data}"
    (⟨.info, s!"[module]   {column} {module.phase.label} refs={module.references} {sizes}"⟩ :
      Notice)
  ⟨.info, s!"[module] {host.registry.count} modules loaded"⟩ :: lines ++
    host.arena.usageNotices

/-- Whether a run of addresses lies inside one window. -/
def mapped (host : Host) (range : Range) : Bool :=
  [host.arena.text, host.arena.data].any fun window =>
    window.base ≤ range.start && range.start + range.size ≤ window.base + window.size

/-- What a function returns that consists of loading a 32-bit constant and returning,
in x86-64 code. -/
def constantFunction? (host : Host) (entry : Address) : Option Int :=
  if host.mapped ⟨entry, 6⟩ then
    let code := host.memory.read entry 6
    if code[0]? = some 0xb8 ∧ code[5]? = some 0xc3 then
      some (BitVec.ofNat 32 (Endian.value (Endian.slice code 1 4))).toInt
    else none
  else none

end Host

end ModuleHost
