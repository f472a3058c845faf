import ModuleHost.Notice
import ModuleHost.Page
import ModuleHost.Text.Numeral

namespace ModuleHost

/-!
# The module arena

Module images live in two fixed windows of the address space: executable
sections in the text window, everything else in the data window.  A window hands
out whole pages in ascending order and never hands out a page twice: releasing a
range is checked and recorded, but the cursor stays where it is.  An address that
belonged to an unloaded module therefore never becomes an address of another one.

The arena owns addresses only.  It neither reads nor writes memory.
-/

open Text (hex kilobytes)

inductive WindowKind
  | text
  | data
  deriving DecidableEq, Repr

/-- The name of a window in messages. -/
def WindowKind.label : WindowKind → String
  | .text => "text"
  | .data => "data"

/-- Where a window is asked to lie. -/
structure WindowSpec where
  base : Address
  size : Nat
  deriving DecidableEq, Repr

/-- A run of addresses. -/
structure Range where
  start : Address
  size : Nat
  deriving DecidableEq, Repr

/-- Two ranges share an address (or an empty one lies strictly inside the other). -/
def Range.meets (left right : Range) : Bool :=
  left.start < right.start + right.size && right.start < left.start + left.size

/-- What can go wrong in the arena. -/
inductive ArenaError
  | invalidWindow (window : WindowKind) (spec : WindowSpec)
  | overlappingWindows
  | exhausted (window : WindowKind) (requested remaining : Nat)
  | notOwned (range : Range)
  | alreadyReleased (window : WindowKind) (range : Range)
  deriving DecidableEq, Repr

namespace ArenaError

def message : ArenaError → String
  | invalidWindow window spec =>
    s!"invalid {window.label} window {hex spec.base} (+{hex spec.size})"
  | overlappingWindows => "text and data windows overlap"
  | exhausted window requested remaining =>
    s!"{window.label} window exhausted: requested {hex requested}, remaining {hex remaining}"
  | notOwned range =>
    s!"range {hex range.start} (+{hex range.size}) is not owned by the module arena"
  | alreadyReleased _ range =>
    s!"range {hex range.start} (+{hex range.size}) was already released"

/-- What the arena itself reports when it refuses with this error. -/
def notices : ArenaError → List Notice
  | exhausted window requested remaining =>
    let counts := s!"requested {hex requested}, remaining {hex remaining}"
    [⟨.warn, s!"[arena] {window.label} window exhausted: {counts}"⟩]
  | alreadyReleased window range =>
    let place := s!"{hex range.start} (+{hex range.size})"
    [⟨.warn, s!"[arena] {window.label} range {place} released twice"⟩]
  | _ => []

end ArenaError

/-- A window and what has been done with it: the pages below the cursor have been
handed out, the released ranges are some of them. -/
structure Window where
  base : Address
  size : Nat
  cursor : Nat
  releasedBytes : Nat
  released : List Range
  deriving Repr

namespace Window

/-- An untouched window. -/
def ofSpec (spec : WindowSpec) : Window where
  base := spec.base
  size := spec.size
  cursor := 0
  releasedBytes := 0
  released := []

def remaining (window : Window) : Nat :=
  window.size - window.cursor

def contains (window : Window) (address : Address) : Bool :=
  window.base ≤ address && address < window.base + window.size

/-- Hand out the next pages, as many as `size` bytes need. -/
def allocate? (window : Window) (size : Nat) : Option (Address × Window) := do
  let rounded ← pagesFor? size
  if rounded ≤ window.remaining then
    some (window.base + window.cursor, { window with cursor := window.cursor + rounded })
  else none

/-- Whether a run of whole pages has been handed out by this window. -/
def handedOut (window : Window) (range : Range) : Bool :=
  range.start % pageSize = 0 && range.start + range.size < addressLimit &&
    range.start + range.size ≤ window.base + window.cursor

/-- Record that a range of whole pages came back. -/
def release (window : Window) (range : Range) : Window :=
  { window with
    releasedBytes := window.releasedBytes + range.size
    released := range :: window.released }

end Window

/-- The two windows. -/
structure Arena where
  text : Window
  data : Window
  deriving Repr

namespace Arena

def window (arena : Arena) : WindowKind → Window
  | .text => arena.text
  | .data => arena.data

def setWindow (arena : Arena) (kind : WindowKind) (window : Window) : Arena :=
  match kind with
  | .text => { arena with text := window }
  | .data => { arena with data := window }

/-- A window must be a nonempty run of whole pages inside the address space. -/
def acceptable (spec : WindowSpec) : Bool :=
  spec.size ≠ 0 && spec.base % pageSize = 0 && spec.size % pageSize = 0 &&
    spec.base + spec.size < addressLimit

/-- An arena over two acceptable windows that do not overlap. -/
def ofSpecs (text data : WindowSpec) : Except ArenaError Arena :=
  if !acceptable text then .error (.invalidWindow .text text)
  else if !acceptable data then .error (.invalidWindow .data data)
  else if (Range.mk text.base text.size).meets ⟨data.base, data.size⟩ then
    .error .overlappingWindows
  else .ok ⟨.ofSpec text, .ofSpec data⟩

/-- What is reported about a new arena. -/
def openingNotice (arena : Arena) : Notice :=
  let span (window : Window) := s!"{hex window.base} - {hex (window.base + window.size)}"
  ⟨.info, s!"[arena] text {span arena.text}, data {span arena.data}"⟩

/-- Hand out pages of one window for `size` bytes. -/
def allocate (arena : Arena) (size : Nat) (kind : WindowKind) :
    Except ArenaError (Address × Arena) :=
  match (arena.window kind).allocate? size with
  | some (address, window) => .ok (address, arena.setWindow kind window)
  | none => .error (.exhausted kind size (arena.window kind).remaining)

/-- The window that an address lies in. -/
def windowAt? (arena : Arena) (address : Address) : Option WindowKind :=
  [WindowKind.text, .data].find? fun kind => (arena.window kind).contains address

def contains (arena : Arena) (address : Address) : Bool :=
  (arena.windowAt? address).isSome

/-- Take back a range that was handed out and has not come back before. -/
def free (arena : Arena) (range : Range) : Except ArenaError Arena :=
  match arena.windowAt? range.start, pagesFor? range.size with
  | some kind, some rounded =>
    let window := arena.window kind
    let pages : Range := ⟨range.start, rounded⟩
    if !window.handedOut pages then .error (.notOwned range)
    else if window.released.any pages.meets then .error (.alreadyReleased kind range)
    else .ok (arena.setWindow kind (window.release pages))
  | _, _ => .error (.notOwned range)

/-- The usage report, one line per window. -/
def usageNotices (arena : Arena) : List Notice :=
  [WindowKind.text, .data].map fun kind =>
    let window := arena.window kind
    let used := s!"used {kilobytes window.cursor} KB"
    let released := s!"released {kilobytes window.releasedBytes} KB"
    let remaining := s!"remaining {kilobytes window.remaining} KB"
    ⟨.info, s!"[arena] {kind.label}: {used}, {released}, {remaining}"⟩

end Arena

end ModuleHost
