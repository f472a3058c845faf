namespace ModuleHost

/-!
# Programs that store in place

The operations of the host are functions: each returns a new state or an error.  Where the state
is one object that is changed where it is, what has been stored before a failure stays stored.
A program of that kind is written store by store; that it does what its function says is then a
theorem, and that a failure has stored nothing is a consequence.
-/

/-- A program that changes a state where it is, and may fail. -/
abbrev Program (State Error Result : Type) :=
  ExceptT Error (StateM State) Result

namespace Program

variable {State Error Result Result' : Type}

/-- Run a program: what comes of it, and the state that it leaves. -/
def exec (program : Program State Error Result) (state : State) : Except Error Result × State :=
  program.run.run state

/-- The new state takes the place of the old one, unless there was an error. -/
def settle (state : State) : Except Error (Result × State) → Except Error Result × State
  | .ok (result, after) => (.ok result, after)
  | .error error => (.error error, state)

variable {state after : State}

@[simp] theorem exec_pure (result : Result) :
    exec (pure result : Program State Error Result) state = (.ok result, state) :=
  rfl

@[simp] theorem exec_throw (error : Error) :
    exec (throw error : Program State Error Result) state = (.error error, state) :=
  rfl

@[simp] theorem exec_get :
    exec (get : Program State Error State) state = (.ok state, state) :=
  rfl

@[simp] theorem exec_modify (change : State → State) :
    exec (modify change : Program State Error PUnit) state = (.ok ⟨⟩, change state) :=
  rfl

/-- A program goes on from the state that its first part leaves, unless that part fails. -/
@[simp] theorem exec_bind (program : Program State Error Result)
    (next : Result → Program State Error Result') :
    exec (program >>= next) state =
      match exec program state with
      | (.ok result, after) => exec (next result) after
      | (.error error, after) => (.error error, after) := by
  simp only [exec, ExceptT.run_bind, StateT.run_bind]
  rcases program.run.run state with ⟨result | error, after⟩
  · rfl
  · rfl

theorem settle_eq_error {result : Except Error (Result × State)} {error : Error} :
    settle state result = (.error error, after) ↔ result = .error error ∧ after = state := by
  cases result with
  | ok value => simp [settle]
  | error reason =>
      simp only [settle, Prod.mk.injEq, Except.error.injEq]
      exact and_congr_right fun _ => eq_comm

end Program
end ModuleHost
