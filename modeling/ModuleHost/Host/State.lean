import ModuleHost.Arena
import ModuleHost.ExportTable
import ModuleHost.Memory
import ModuleHost.Registry
import ModuleHost.Settings

namespace ModuleHost

/-!
# The module host

The host owns the arena, the registry and the memory that modules are put into.
Its operations report what they do to a journal, which whoever runs the host
collects.

References and pages are given back in two places only, `release` and `returnPages`.
What the registry and the arena answered there is kept as a record.  Nothing depends
on it and nothing is taken from it; it is what statements about giving back are about.
-/

/-- A reference or a range that was given back, with the answer. -/
inductive Return
  | reference (handle : Handle) (answer : Except ModuleError Release)
  | pages (range : Range) (answer : Except ArenaError Unit)
  deriving Repr

structure Host where
  settings : Settings
  arena : Arena
  exports : ExportTable
  registry : Registry := {}
  memory : Memory
  /-- The address of a page of zeros that modules share and never write. -/
  zeroPage : Address
  /-- The reports since the journal was last collected, oldest first. -/
  journal : List Notice := []
  /-- What was ever given back, the latest first. -/
  returns : List Return := []

namespace Host

/-- Add to the journal. -/
def report (host : Host) (notices : List Notice) : Host :=
  { host with journal := host.journal ++ notices }

/-- Add one line to the journal. -/
def say (host : Host) (severity : Severity) (text : String) : Host :=
  host.report [⟨severity, text⟩]

/-- A host without modules, over the windows that the settings ask for.  The shared
page is filled with zeros here, once and for all. -/
def create (settings : Settings) (exports : ExportTable) (memory : Memory)
    (zeroPage : Address) : Except ArenaError Host := do
  let arena ← Arena.ofSpecs settings.text settings.data
  let memory := memory.fill zeroPage pageSize 0
  let host : Host := { settings, arena, exports, memory, zeroPage }
  let ready := s!"{settings.machine.label} objects, {exports.count} kernel exports"
  return (host.report [arena.openingNotice]).say .info s!"[module] subsystem ready: {ready}"

/-- Take the journal. -/
def collect (host : Host) : List Notice × Host :=
  (host.journal, { host with journal := [] })

/-- Take pages for `size` bytes from a window. -/
def takePages (host : Host) (size : Nat) (window : WindowKind) :
    Host × Except ModuleError Address :=
  match host.arena.allocate size window with
  | .ok (address, arena) => ({ host with arena }, .ok address)
  | .error error => (host.report error.notices, .error (.allocation error))

/-- Add to the record of what was given back. -/
def note (host : Host) (item : Return) : Host :=
  { host with returns := item :: host.returns }

/-- Return a range to the arena; a refusal is reported and changes nothing. -/
def returnPages (host : Host) (range : Range) : Host :=
  let answer := host.arena.free range
  let noted := host.note (.pages range (answer.map fun _ => ()))
  match answer with
  | .ok arena => { noted with arena }
  | .error error =>
    (noted.report error.notices).say .warn s!"[module] {error.message}"

/-- Give one reference back; a refusal changes nothing and is reported, with words in
front that tell on what occasion. -/
def release (host : Host) (handle : Handle) (occasion : String) : Host :=
  let answer := host.registry.release handle
  let noted := host.note (.reference handle (answer.map Prod.snd))
  match answer with
  | .ok (registry, release) => { noted with registry }.report release.notices
  | .error error => noted.say .warn s!"[module] {occasion}{error.message}"

/-- Give one reference back that a module or a load had. -/
def returnReference (host : Host) (handle : Handle) : Host :=
  host.release handle ""

def returnAllPages (host : Host) (ranges : List Range) : Host :=
  ranges.foldl returnPages host

def returnAllReferences (host : Host) (handles : List Handle) : Host :=
  handles.foldl returnReference host

end Host

end ModuleHost
