import ModuleHost.Host.Unload

namespace ModuleHost

/-!
# Sessions

A session is a host in use: the calls of module code that have not returned yet, and
the references held from outside.  A load or unload that comes to a call leaves it on
top of the stack; everything done until that call returns is done from inside it, to
any depth.  A call in progress is finished by telling what it returned.

References are numbered in the order in which they were taken and may be let go in
any order.
-/

/-- A call of module code that has not returned. -/
inductive Call
  | init (pending : PendingLoad)
  | exit (pending : PendingUnload)
  deriving DecidableEq, Repr

/-- What a load or an unload came to. -/
inductive Outcome
  | loaded (handle : Handle)
  | unloaded
  | failed (error : ModuleError)
  /-- Module code at this address is to be run first. -/
  | calling (entry : Address)
  deriving DecidableEq, Repr

structure Session where
  host : Host
  /-- The references taken, by number; those let go are gone. -/
  guards : List (Option Reference) := []
  /-- The calls in progress, the innermost first. -/
  calls : List Call := []

namespace Session

/-- Finish a load whose init function returned. -/
def settleLoad (session : Session) (pending : PendingLoad) (code : Int) : Session × Outcome :=
  match session.host.finishLoad pending code with
  | (host, .ok handle) => ({ session with host }, .loaded handle)
  | (host, .error error) => ({ session with host }, .failed error)

/-- Finish an unload whose exit function returned. -/
def settleUnload (session : Session) (pending : PendingUnload) : Session × Outcome :=
  match session.host.finishUnload pending with
  | (host, .ok ()) => ({ session with host }, .unloaded)
  | (host, .error error) => ({ session with host }, .failed error)

/-- Load a module up to the call of its init function. -/
def load (session : Session) (name : String) (image : List UInt8) : Session × Outcome :=
  match session.host.beginLoad name image with
  | (host, .error error) => ({ session with host }, .failed error)
  | (host, .ok pending) =>
    match pending.initEntry with
    | none => settleLoad { session with host } pending 0
    | some entry =>
      ({ session with host, calls := .init pending :: session.calls }, .calling entry)

/-- Unload a module up to the call of its exit function. -/
def unload (session : Session) (name : String) : Session × Outcome :=
  match session.host.beginUnload name with
  | (host, .error error) => ({ session with host }, .failed error)
  | (host, .ok pending) =>
    match pending.exitEntry with
    | none => settleUnload { session with host } pending
    | some entry =>
      ({ session with host, calls := .exit pending :: session.calls }, .calling entry)

/-- The innermost call returns; an exit function's result is not looked at. -/
def return? (session : Session) (code : Int) : Option (Session × Outcome) :=
  match session.calls with
  | [] => none
  | .init pending :: calls => some (settleLoad { session with calls } pending code)
  | .exit pending :: calls => some (settleUnload { session with calls } pending)

/-- Take a reference on a module; yields its number. -/
def acquire (session : Session) (name : String) :
    Except ModuleError (Session × Nat × Reference) :=
  match session.host.acquire name with
  | .error error => .error error
  | .ok (host, reference) =>
    .ok ({ session with host, guards := session.guards ++ [some reference] },
      session.guards.length, reference)

/-- Let the reference with a number go, if it is still held. -/
def drop? (session : Session) (number : Nat) : Option Session :=
  match session.guards[number]? with
  | some (some reference) =>
    some { session with
      host := session.host.dropReference reference
      guards := session.guards.set number none }
  | _ => none

/-- Take the host's journal. -/
def collect (session : Session) : List Notice × Session :=
  let (notices, host) := session.host.collect
  (notices, { session with host })

end Session

end ModuleHost
