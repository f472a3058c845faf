import ModuleHost.Host.Load

namespace ModuleHost

/-!
# Unloading a module

An unload has two halves around the module's exit function.  The first half checks
that nothing refers to the module and marks it as leaving, which keeps new
references away; the exit function runs only if the module was live.  The second
half takes the module out of the registry and returns what it had.

References held from outside keep a module loaded while they last.
-/

/-- An unload whose module is marked as leaving and whose exit function, if it is to
run, has not returned. -/
structure PendingUnload where
  name : String
  handle : Handle
  exitEntry : Option Address
  deriving DecidableEq, Repr

/-- A reference held on a module from outside. -/
structure Reference where
  name : String
  handle : Handle
  deriving DecidableEq, Repr

namespace Host

/-- The first half of an unload. -/
def beginUnload (host : Host) (name : String) : Host × Except ModuleError PendingUnload :=
  match host.registry.find? name with
  | none => (host, .error (.notFound name))
  | some handle =>
    match host.registry.get? handle with
    | none => (host, .error (.notFound name))
    | some module =>
      if module.phase = .finalizing then (host, .error (.unloading name))
      else if module.references ≠ 0 then (host, .error (.inUse name module.references))
      else
        let exitEntry := if module.phase = .live then module.exitEntry else none
        ({ host with registry := host.registry.setPhase handle .finalizing },
          .ok ⟨name, handle, exitEntry⟩)

/-- The second half of an unload. -/
def finishUnload (host : Host) (pending : PendingUnload) : Host × Except ModuleError Unit :=
  match host.registry.remove pending.handle with
  | .error error => (host, .error error)
  | .ok (registry, module) =>
    let host := { host with registry }.returnResources module
    (host.say .info s!"[module] Module '{pending.name}' unloaded", .ok ())

/-- A whole unload, with a function that stands for running the exit function. -/
def unload (host : Host) (name : String) (runExit : Host → Address → Host) :
    Host × Except ModuleError Unit :=
  match host.beginUnload name with
  | (host, .error error) => (host, .error error)
  | (host, .ok pending) =>
    match pending.exitEntry with
    | none => host.finishUnload pending
    | some entry => (runExit host entry).finishUnload pending

/-- Hold a reference on a module. -/
def acquire (host : Host) (name : String) : Except ModuleError (Host × Reference) :=
  match host.registry.find? name with
  | none => .error (.notFound name)
  | some handle =>
    match host.registry.acquire handle with
    | .error error => .error error
    | .ok (registry, _) => .ok ({ host with registry }, ⟨name, handle⟩)

/-- Let a held reference go. -/
def dropReference (host : Host) (reference : Reference) : Host :=
  host.release reference.handle s!"releasing reference to '{reference.name}': "

end Host

end ModuleHost
