import ModuleHost.Host.State
import ModuleHost.Object
import ModuleHost.Stepwise

namespace ModuleHost

/-!
# Staging a module

Before a module is registered, its sections are placed and its symbols resolved.
What is taken for it on the way, pages and references to other modules, is kept
with the staging so that it can be returned should a later step fail.
-/

/-- A host with a module under way. -/
structure Staging where
  host : Host
  /-- The ranges taken, in order. -/
  ranges : List Range := []
  /-- The modules that references were taken on, one entry per reference. -/
  held : List Handle := []

namespace Staging

open Text (hex)

def report (staging : Staging) (severity : Severity) (text : String) : Staging :=
  { staging with host := staging.host.say severity text }

/-- Take pages and remember them. -/
def takePages (staging : Staging) (size : Nat) (window : WindowKind) :
    Staging × Except ModuleError Address :=
  match staging.host.takePages size window with
  | (host, .error error) => ({ staging with host }, .error error)
  | (host, .ok address) =>
    ({ staging with host, ranges := staging.ranges ++ [⟨address, size⟩] }, .ok address)

/-- Give the pages that hold `size` bytes at an address their first contents; the rest
of the pages is zero. -/
def fillPages (memory : Memory) (address : Address) (size : Nat) (contents : List UInt8) :
    Memory :=
  (memory.fill address ((pagesFor? size).getD size) 0).write address contents

/-- Small sections that are only read and hold nothing but zeros share one page. -/
def sharesZeroPage (header : Object.Section) : Bool :=
  header.isNoBits && !header.isWritable && !header.isExecutable &&
    header.size.toNat ≤ pageSize

/-- The window that a section belongs in. -/
def windowFor (header : Object.Section) : WindowKind :=
  if header.isExecutable then .text else .data

/-- The placement kind of sections in a window. -/
def placementIn : WindowKind → PlacementKind
  | .text => .text
  | .data => .data

/-- Put a section into memory. -/
def place (object : Object) (staging : Staging) (header : Object.Section) :
    Staging × Except ModuleError Placement :=
  let size := header.size.toNat
  let alignment := header.alignment.toNat
  if !header.isAllocated || size = 0 then (staging, .ok .unplaced)
  else if pageSize < alignment then
    let name := object.sectionName header
    (staging.report .warn s!"[module] section {name} requires {hex alignment} alignment",
      .error (.unsupportedAlignment alignment))
  else if sharesZeroPage header then
    (staging, .ok ⟨staging.host.zeroPage, size, .zeroPage⟩)
  else
    let window := windowFor header
    match staging.takePages size window with
    | (staging, .error error) => (staging, .error error)
    | (staging, .ok address) =>
      let memory := fillPages staging.host.memory address size (object.contents header)
      let host := { staging.host with memory }
      let name := object.sectionName header
      ({ staging with host }.report .debug
          s!"[module] {name} -> {hex address} ({size} bytes)",
        .ok ⟨address, size, placementIn window⟩)

/-- Put the sections of an object into memory, in order. -/
def placeAll (object : Object) (staging : Staging) :
    Staging × Except ModuleError (List Placement) :=
  Stepwise.mapList (place object) staging object.sections

/-- The address of a symbol of another object: the kernel's, else that of the first
loaded module that exports it, on which a reference is taken.  Only a weak symbol
may be missing. -/
def importSymbol (name : String) (isWeak : Bool) (staging : Staging) :
    Staging × Except ModuleError Address :=
  match staging.host.exports.lookup name with
  | some address => (staging, .ok address)
  | none =>
    match staging.host.registry.resolve? name with
    | some (provider, address) =>
      match staging.host.registry.acquire provider with
      | .error error => (staging, .error error)
      | .ok (registry, _) =>
        let host := { staging.host with registry }
        ({ staging with host, held := staging.held ++ [provider] }.report .debug
            s!"[module] {name} -> {hex address} (module slot {provider.index})",
          .ok address)
    | none =>
      if isWeak then
        (staging.report .debug s!"[module] weak symbol {name} left undefined", .ok 0)
      else
        (staging.report .warn s!"[module] Unresolved symbol: {name}",
          .error (.unresolvedSymbol name))

/-- The address of a place in a section; zero in a section without memory. -/
def addressIn (placements : List Placement) (index value : Nat) : Address :=
  match placements[index]? with
  | some placement => if placement.kind = .unplaced then 0 else placement.addressAt value
  | none => 0

/-- Give a symbol its address.  The first entry of a symbol table stands for no
symbol and needs no name. -/
def assignAddress (object : Object) (placements : List Placement) (staging : Staging)
    (entry : Object.Symbol × Nat) : Staging × Except ModuleError Address :=
  let (symbol, index) := entry
  let name := object.symbolName symbol
  match symbol.home with
  | .undefined =>
    if index = 0 then (staging, .ok 0) else importSymbol name symbol.isWeak staging
  | .absolute => (staging, .ok symbol.value.toNat)
  | .common =>
    (staging.report .warn s!"[module] COMMON symbol {name} (build with -fno-common)",
      .error (.unresolvedSymbol name))
  | .inSection home => (staging, .ok (addressIn placements home symbol.value.toNat))

/-- Give the symbols of an object their addresses, in order. -/
def assignAddresses (object : Object) (placements : List Placement) (staging : Staging) :
    Staging × Except ModuleError (List Address) :=
  Stepwise.mapList (assignAddress object placements) staging object.symbols.zipIdx

end Staging

end ModuleHost
