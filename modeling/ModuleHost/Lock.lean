namespace ModuleHost

/-!
# Locks as one thread sees them

A lock guards a value.  A thread that asks for a lock it cannot have would wait
for itself, so asking yields nothing in that case.  Waiting threads are outside
this description.
-/

/-- A lock with one holder. -/
structure SpinLock (α : Type) where
  value : α
  held : Bool := false
  deriving Repr

namespace SpinLock

variable {α : Type}

/-- Take the lock if it is free. -/
def acquire? (lock : SpinLock α) : Option (SpinLock α) :=
  if lock.held then none else some { lock with held := true }

/-- Give the lock back. -/
def release (lock : SpinLock α) : SpinLock α :=
  { lock with held := false }

/-- Replace the guarded value, as the holder may. -/
def store? (lock : SpinLock α) (value : α) : Option (SpinLock α) :=
  if lock.held then some { lock with value } else none

end SpinLock

/-- A lock with many readers or one writer. -/
structure SharedLock (α : Type) where
  value : α
  readers : Nat := 0
  writing : Bool := false
  deriving Repr

namespace SharedLock

variable {α : Type}

/-- Join the readers, unless there is a writer. -/
def read? (lock : SharedLock α) : Option (SharedLock α) :=
  if lock.writing then none else some { lock with readers := lock.readers + 1 }

/-- Become the writer, if nobody reads or writes. -/
def write? (lock : SharedLock α) : Option (SharedLock α) :=
  if lock.writing || lock.readers ≠ 0 then none else some { lock with writing := true }

/-- One reader leaves. -/
def endRead (lock : SharedLock α) : SharedLock α :=
  { lock with readers := lock.readers - 1 }

/-- The writer leaves. -/
def endWrite (lock : SharedLock α) : SharedLock α :=
  { lock with writing := false }

/-- Replace the guarded value, as the writer may. -/
def store? (lock : SharedLock α) (value : α) : Option (SharedLock α) :=
  if lock.writing then some { lock with value } else none

end SharedLock

end ModuleHost
