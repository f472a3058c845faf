import ModuleHost.Host.Session

namespace ModuleHost

/-!
# Runs of a session

A run starts from a new host and performs operations in any order.  A call of module code
that is in progress is an entry of the stack of calls, so whatever is performed until it
returns is performed from inside it; module code may also write anything into memory.

An operation is made of at most two halves, and each half moves at most one module from
one phase to another.  What every half keeps, every run keeps.
-/

/-- What may be done in a session. -/
inductive Operation
  | load (name : String) (image : List UInt8)
  | unload (name : String)
  /-- The innermost call of module code returns. -/
  | hookReturns (code : Int)
  | acquire (name : String)
  | drop (number : Nat)
  /-- Take the journal. -/
  | collect
  /-- Module code writes into memory. -/
  | write (address : Address) (bytes : List UInt8)
  deriving DecidableEq, Repr

/-- A part of an operation. -/
inductive Half
  | beginLoad (name : String) (image : List UInt8)
  | finishLoad (code : Int)
  | beginUnload (name : String)
  | finishUnload
  | acquire (name : String)
  | drop (number : Nat)
  | collect
  | write (address : Address) (bytes : List UInt8)
  deriving DecidableEq, Repr

/-- What a function returned, as far as it is looked at. -/
def Half.code : Half → Int
  | finishLoad code => code
  | _ => 0

namespace Call

/-- The module whose code is called. -/
def handle : Call → Handle
  | init pending => pending.handle
  | exit pending => pending.handle

/-- The function that is called; a load or unload without one is over at once. -/
def entry? : Call → Option Address
  | init pending => pending.initEntry
  | exit pending => pending.exitEntry

/-- The phase in which the call finds its module. -/
def phase : Call → Phase
  | init _ => .registered
  | exit _ => .finalizing

/-- The reference that goes with the call. -/
def pin? : Call → Option Handle
  | init pending => some pending.handle
  | exit _ => none

end Call

namespace Session

/-- Perform an operation; one that is refused may still write to the journal. -/
def perform (session : Session) : Operation → Session
  | .load name image => (session.load name image).1
  | .unload name => (session.unload name).1
  | .hookReturns code => ((session.return? code).map Prod.fst).getD session
  | .acquire name =>
    match session.acquire name with
    | .ok (session, _, _) => session
    | .error _ => session
  | .drop number => (session.drop? number).getD session
  | .collect => session.collect.2
  | .write address bytes =>
    { session with host.memory := session.host.memory.write address bytes }

/-- Perform operations one after the other. -/
def performAll (session : Session) (operations : List Operation) : Session :=
  operations.foldl perform session

/-- The sessions that a run can come to. -/
inductive Reachable : Session → Prop
  | start {settings : Settings} {exports : ExportTable} {memory : Memory} {zeroPage : Address}
      {host : Host} (created : Host.create settings exports memory zeroPage = .ok host) :
      Reachable { host }
  | step {session : Session} (reachable : Reachable session) (operation : Operation) :
      Reachable (session.perform operation)

/-- Go on by a half.  Here every load and unload is on the stack between its halves,
whether it calls module code or not. -/
def advance (session : Session) : Half → Session
  | .beginLoad name image =>
    match session.host.beginLoad name image with
    | (host, .ok pending) => { session with host, calls := .init pending :: session.calls }
    | (host, .error _) => { session with host }
  | .finishLoad code =>
    match session.calls with
    | .init pending :: calls =>
      { session with host := (session.host.finishLoad pending code).1, calls }
    | _ => session
  | .beginUnload name =>
    match session.host.beginUnload name with
    | (host, .ok pending) => { session with host, calls := .exit pending :: session.calls }
    | (host, .error _) => { session with host }
  | .finishUnload =>
    match session.calls with
    | .exit pending :: calls =>
      { session with host := (session.host.finishUnload pending).1, calls }
    | _ => session
  | .acquire name => session.perform (.acquire name)
  | .drop number => session.perform (.drop number)
  | .collect => session.perform .collect
  | .write address bytes => session.perform (.write address bytes)

/-- The halves of an operation. -/
def halves (session : Session) : Operation → List Half
  | .load name image =>
    match (session.host.beginLoad name image).2 with
    | .ok ⟨_, _, none⟩ => [.beginLoad name image, .finishLoad 0]
    | _ => [.beginLoad name image]
  | .unload name =>
    match (session.host.beginUnload name).2 with
    | .ok ⟨_, _, none⟩ => [.beginUnload name, .finishUnload]
    | _ => [.beginUnload name]
  | .hookReturns code =>
    match session.calls with
    | .init _ :: _ => [.finishLoad code]
    | .exit _ :: _ => [.finishUnload]
    | [] => []
  | .acquire name => [.acquire name]
  | .drop number => [.drop number]
  | .collect => [.collect]
  | .write address bytes => [.write address bytes]

theorem settleLoad_eq (session : Session) (pending : PendingLoad) (code : Int) :
    (session.settleLoad pending code).1 =
      { session with host := (session.host.finishLoad pending code).1 } := by
  unfold settleLoad
  split <;> (next made => rw [made])

theorem settleLoad_of_ok (session : Session) {pending : PendingLoad} {code : Int}
    {handle : Handle} (done : (session.host.finishLoad pending code).2 = .ok handle) :
    (session.settleLoad pending code).2 = .loaded handle := by
  unfold settleLoad
  split <;> simp_all

theorem settleLoad_of_error (session : Session) {pending : PendingLoad} {code : Int}
    {error : ModuleError} (failed : (session.host.finishLoad pending code).2 = .error error) :
    (session.settleLoad pending code).2 = .failed error := by
  unfold settleLoad
  split <;> simp_all

theorem settleUnload_eq (session : Session) (pending : PendingUnload) :
    (session.settleUnload pending).1 =
      { session with host := (session.host.finishUnload pending).1 } := by
  unfold settleUnload
  split <;> (next made => rw [made])

theorem settleUnload_of_ok (session : Session) {pending : PendingUnload} {host : Host}
    (done : session.host.finishUnload pending = (host, .ok ())) :
    session.settleUnload pending = ({ session with host }, .unloaded) := by
  rw [settleUnload, done]

/-- An operation is its halves, one after the other. -/
theorem perform_eq (session : Session) (operation : Operation) :
    session.perform operation = (session.halves operation).foldl advance session := by
  cases operation with
  | load name image =>
      simp only [perform, load, halves]
      cases began : session.host.beginLoad name image with
      | mk host result =>
          cases result with
          | error error => simp [advance, began]
          | ok pending =>
              rcases pending with ⟨known, handle, entry⟩
              cases entry <;> simp [advance, began, settleLoad_eq]
  | unload name =>
      simp only [perform, unload, halves]
      cases began : session.host.beginUnload name with
      | mk host result =>
          cases result with
          | error error => simp [advance, began]
          | ok pending =>
              rcases pending with ⟨known, handle, entry⟩
              cases entry <;> simp [advance, began, settleUnload_eq]
  | hookReturns code =>
      simp only [perform, return?, halves]
      cases stack : session.calls with
      | nil => simp
      | cons call calls =>
          cases call <;> simp [advance, stack, settleLoad_eq, settleUnload_eq]
  | acquire name => rfl
  | drop number => rfl
  | collect => rfl
  | write address bytes => rfl

/-- What a new session has and every half keeps, every reachable session has. -/
theorem Reachable.keeps {motive : Session → Prop} {session : Session}
    (reachable : session.Reachable)
    (start : ∀ settings exports memory zeroPage host,
      Host.create settings exports memory zeroPage = .ok host → motive { host })
    (onward : ∀ session half, motive session → motive (session.advance half)) :
    motive session := by
  induction reachable with
  | start created => exact start _ _ _ _ _ created
  | @step session _ operation ih =>
      rw [perform_eq]
      exact List.foldlRecOn _ advance ih fun state here half _ => onward state half here

end Session
end ModuleHost
