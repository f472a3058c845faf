import ModuleHost.Host.Linking
import ModuleHost.Object.ModInfo

namespace ModuleHost

/-!
# Loading a module

A load has two halves around the module's init function.  The first half admits
the image, stages the module and registers it with one reference held by the load
itself, so that nothing can unload the module while its init function runs.  The
second half is told what the function returned: on zero the module goes live, else
it is removed again, or left as failed if other modules have come to depend on it.

A failure before registration returns every page and every reference that staging
took.  Arbitrary operations on the host may run between the halves.
-/

/-- The last step of a staging that was finished. -/
inductive StagingStep
  | parsed
  | placed
  | resolved
  | relocated
  deriving DecidableEq, Repr

def StagingStep.label : StagingStep → String
  | .parsed => "Parsed"
  | .placed => "Placed"
  | .resolved => "Resolved"
  | .relocated => "Relocated"

/-- What staging finds out about a module. -/
structure Assembly where
  placements : List Placement
  addresses : List Address
  stubPage : Option Address
  deriving Repr

namespace Assembly

def initSymbol : String := "module_init"

def exitSymbol : String := "module_exit"

/-- The address of the first defined symbol with a name, unless it has none. -/
def entry? (assembly : Assembly) (object : Object) (name : String) : Option Address := do
  let index ← object.symbols.findIdx? fun symbol =>
    !symbol.isUndefined && object.symbolName symbol = name
  let address ← assembly.addresses[index]?
  if address = 0 then none else some address

/-- What other modules can bind to: named symbols that the object defines and shows,
its entry points excepted. -/
def exports (assembly : Assembly) (object : Object) : List (String × Address) :=
  (object.symbols.zip assembly.addresses).filterMap fun (symbol, address) =>
    let name := object.symbolName symbol
    if symbol.isVisible && !symbol.isUndefined && symbol.home ≠ .common && name ≠ "" &&
        name ≠ initSymbol && name ≠ exitSymbol then some (name, address)
    else none

/-- The module to register. -/
def module (assembly : Assembly) (name : String) (object : Object) (held : List Handle) :
    LoadedModule where
  name
  version := object.info? "version"
  description := object.info? "description"
  sections := object.sections
  placements := assembly.placements
  symbols := object.symbols
  symbolNames := object.symbolNames
  initEntry := assembly.entry? object initSymbol
  exitEntry := assembly.entry? object exitSymbol
  dependencies := held
  exports := assembly.exports object
  stubPage := assembly.stubPage

end Assembly

namespace Staging

/-- Place, resolve and link an object.  A failure tells which step was finished. -/
def assemble (object : Object) (staging : Staging) :
    Staging × Except (StagingStep × ModuleError) Assembly :=
  match placeAll object staging with
  | (staging, .error error) => (staging, .error (.parsed, error))
  | (staging, .ok placements) =>
    match assignAddresses object placements staging with
    | (staging, .error error) => (staging, .error (.placed, error))
    | (staging, .ok addresses) =>
      match link object placements addresses staging with
      | (staging, .error error) => (staging, .error (.resolved, error))
      | (staging, .ok stubPage) => (staging, .ok { placements, addresses, stubPage })

/-- Return everything that was taken. -/
def rollBack (staging : Staging) (stage : StagingStep) : Host :=
  let taken := s!"{staging.ranges.length} ranges, {staging.held.length} references"
  let reported := staging.host.say .debug s!"[module] rolling back after {stage.label}: {taken}"
  (reported.returnAllPages staging.ranges).returnAllReferences staging.held

end Staging

/-- A load whose module is registered and whose init function, if it has one, has not
returned. -/
structure PendingLoad where
  name : String
  handle : Handle
  initEntry : Option Address
  deriving DecidableEq, Repr

namespace Host

/-- Decide whether an image may be loaded under a name. -/
def examine (host : Host) (name : String) (image : List UInt8) :
    Host × Except ModuleError Object :=
  match Object.ofImage image with
  | .error error =>
    (host.say .warn s!"[module] {name}: {error.message}", .error (.malformedImage error))
  | .ok object =>
    let expected := host.settings.machine
    if object.machine ≠ expected then
      let machines := s!"built for {object.machine.label}, expected {expected.label}"
      (host.say .warn s!"[module] {name}: {machines}",
        .error (.malformedImage (.unsupportedMachine object.machine.code)))
    else if object.hasBareRelocations then (host, .error (.malformedImage .relUnsupported))
    else if (host.registry.find? name).isSome then (host, .error (.duplicateName name))
    else (host, .ok object)

/-- Register a module with one reference held by its load. -/
def register (staging : Staging) (assembly : Assembly) (name : String) (object : Object) :
    Host × Except ModuleError PendingLoad :=
  let module := assembly.module name object staging.held
  match staging.host.registry.add module with
  | .error error => (staging.rollBack .relocated, .error error)
  | .ok (registry, handle) =>
    match registry.acquire handle with
    | .error error =>
      let host := { staging.host with registry }
      ({ staging with host }.rollBack .relocated, .error error)
    | .ok (registry, _) =>
      ({ staging.host with registry }, .ok ⟨name, handle, module.initEntry⟩)

/-- The first half of a load. -/
def beginLoad (host : Host) (name : String) (image : List UInt8) :
    Host × Except ModuleError PendingLoad :=
  let announced :=
    host.say .info s!"[module] Loading relocatable object: {name} ({image.length} bytes)"
  match announced.examine name image with
  | (host, .error error) => (host, .error error)
  | (host, .ok object) =>
    match Staging.assemble object { host } with
    | (staging, .error (stage, error)) => (staging.rollBack stage, .error error)
    | (staging, .ok assembly) => register staging assembly name object

/-- Return what a removed module had. -/
def returnResources (host : Host) (module : LoadedModule) : Host :=
  let owned := module.placements.filter Placement.ownsPages
  let ranges := owned.map fun placement => (⟨placement.address, placement.size⟩ : Range)
  let stubs := (module.stubPage.map fun page => (⟨page, pageSize⟩ : Range)).toList
  (host.returnAllPages (ranges ++ stubs)).returnAllReferences module.dependencies

/-- Remove a module whose init function failed, or leave it marked if it is in use. -/
def discard (host : Host) (handle : Handle) : Host :=
  let host := host.returnReference handle
  match host.registry.remove handle with
  | .ok (registry, module) => { host with registry }.returnResources module
  | .error error =>
    let host := { host with registry := host.registry.setPhase handle .initFailed }
    match error with
    | .inUse name references =>
      let dependents := s!"has {references} dependents; left until unloaded"
      host.say .warn s!"[module] '{name}' failed init but {dependents}"
    | error => host.say .warn s!"[module] {error.message}"

/-- The second half of a load, told what the init function returned; zero when the
module has none. -/
def finishLoad (host : Host) (pending : PendingLoad) (code : Int) :
    Host × Except ModuleError Handle :=
  if code ≠ 0 then
    let host := host.say .warn s!"[module] {pending.name}: module_init failed ({code})"
    (host.discard pending.handle, .error (.initFailed code))
  else
    let host := { host with registry := host.registry.setPhase pending.handle .live }
    let host := host.release pending.handle s!"{pending.name}: "
    (host.say .info s!"[module] Module '{pending.name}' loaded", .ok pending.handle)

/-- A whole load, with a function that stands for running the init function. -/
def load (host : Host) (name : String) (image : List UInt8)
    (runInit : Host → Address → Host × Int) : Host × Except ModuleError Handle :=
  match host.beginLoad name image with
  | (host, .error error) => (host, .error error)
  | (host, .ok pending) =>
    match pending.initEntry with
    | none => host.finishLoad pending 0
    | some entry =>
      let (host, code) := runInit host entry
      host.finishLoad pending code

end Host

end ModuleHost
