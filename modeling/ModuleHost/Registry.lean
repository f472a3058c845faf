import ModuleHost.ModuleError
import ModuleHost.Registry.LoadedModule

namespace ModuleHost

/-!
# The registry

The registry keeps loaded modules under unique names in numbered slots.  A handle
is a slot index with the slot's generation; removing a module raises the
generation, so its handles find nothing any more even when the slot is used again.
Vacant slots are kept on a stack and filled from its top.

References are counts on a module.  A module with references cannot be removed,
and a module that failed or is leaving gives no new ones.
-/

/-- A place for one module. -/
structure Slot where
  generation : UInt32
  module : Option LoadedModule
  deriving Repr

structure Registry where
  slots : List Slot := []
  /-- The vacant slots, the next to be filled first. -/
  vacant : List Nat := []
  /-- How many slots are occupied. -/
  count : Nat := 0
  deriving Repr

/-- How a reference was given back. -/
inductive Release
  | returned (remaining : Nat)
  /-- No reference was held on the module of this name. -/
  | notHeld (name : String)
  deriving DecidableEq, Repr

namespace Release

/-- The references left. -/
def remaining : Release → Nat
  | returned remaining => remaining
  | notHeld _ => 0

def notices : Release → List Notice
  | returned _ => []
  | notHeld name => [⟨.warn, s!"[module] {name}: release with zero refcount"⟩]

end Release

namespace Registry

/-- The occupied slots in order. -/
def entries (registry : Registry) : List (Handle × LoadedModule) :=
  registry.slots.zipIdx.filterMap fun (slot, index) =>
    slot.module.map fun module => (⟨index, slot.generation⟩, module)

/-- The handle of the module with a name. -/
def find? (registry : Registry) (name : String) : Option Handle :=
  (registry.entries.find? fun entry => entry.2.name = name).map Prod.fst

/-- The module that a handle stands for. -/
def get? (registry : Registry) (handle : Handle) : Option LoadedModule :=
  match registry.slots[handle.index]? with
  | some slot => if slot.generation = handle.generation then slot.module else none
  | none => none

/-- Put a slot in the place of the one at an index. -/
def setSlot (registry : Registry) (index : Nat) (slot : Slot) : Registry :=
  { registry with slots := registry.slots.set index slot }

/-- Replace the module that a handle stands for. -/
def update (registry : Registry) (handle : Handle) (module : LoadedModule) : Registry :=
  match registry.get? handle with
  | some _ => registry.setSlot handle.index ⟨handle.generation, some module⟩
  | none => registry

/-- Set the phase of the module that a handle stands for. -/
def setPhase (registry : Registry) (handle : Handle) (phase : Phase) : Registry :=
  match registry.get? handle with
  | some module => registry.update handle { module with phase }
  | none => registry

/-- Register a module under its name, in the most recently vacated slot or a new one. -/
def add (registry : Registry) (module : LoadedModule) : Except ModuleError (Registry × Handle) :=
  if (registry.find? module.name).isSome then .error (.duplicateName module.name)
  else
    match registry.vacant with
    | index :: vacant =>
      let generation := (registry.slots[index]?.map (·.generation)).getD 0
      let filled := registry.setSlot index ⟨generation, some module⟩
      .ok ({ filled with vacant, count := registry.count + 1 }, ⟨index, generation⟩)
    | [] =>
      .ok ({ registry with
        slots := registry.slots ++ [⟨0, some module⟩]
        count := registry.count + 1 }, ⟨registry.slots.length, 0⟩)

/-- Take a module without references out of the registry. -/
def remove (registry : Registry) (handle : Handle) :
    Except ModuleError (Registry × LoadedModule) :=
  match registry.get? handle with
  | none => .error .staleHandle
  | some module =>
    if module.references ≠ 0 then .error (.inUse module.name module.references)
    else
      let emptied := registry.setSlot handle.index ⟨handle.generation + 1, none⟩
      .ok ({ emptied with
        vacant := handle.index :: registry.vacant
        count := registry.count - 1 }, module)

/-- Take a reference; yields how many are then held. -/
def acquire (registry : Registry) (handle : Handle) : Except ModuleError (Registry × Nat) :=
  match registry.get? handle with
  | none => .error .staleHandle
  | some module =>
    if !module.phase.isOpen then .error (.unloading module.name)
    else
      let references := module.references + 1
      .ok (registry.update handle { module with references }, references)

/-- Give a reference back.  Without one held the registry stays as it is. -/
def release (registry : Registry) (handle : Handle) : Except ModuleError (Registry × Release) :=
  match registry.get? handle with
  | none => .error .staleHandle
  | some module =>
    match module.references with
    | 0 => .ok (registry, .notHeld module.name)
    | references + 1 =>
      .ok (registry.update handle { module with references }, .returned references)

/-- The first module open to binding that exports a name, with the address. -/
def resolve? (registry : Registry) (name : String) : Option (Handle × Address) :=
  (registry.entries.filter fun entry => entry.2.phase.isOpen).findSome? fun entry =>
    (entry.2.exported? name).map fun address => (entry.1, address)

def isEmpty (registry : Registry) : Bool :=
  registry.count = 0

end Registry

end ModuleHost
