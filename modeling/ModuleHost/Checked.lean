namespace ModuleHost

/-!
# Checks in sequence

A validation is a sequence of checks, each with its own error; the first one that
fails decides.  The lemmas say when a check lets the sequence go on.
-/

variable {ε α : Type}

/-- Go on only if `condition` holds. -/
def require (condition : Prop) [Decidable condition] (error : ε) : Except ε Unit :=
  if condition then .ok () else .error error

/-- Go on with the value, if there is one. -/
def demand (value? : Option α) (error : ε) : Except ε α :=
  match value? with
  | some value => .ok value
  | none => .error error

/-- Go on only if no fault was found. -/
def refuse (fault? : Option ε) : Except ε Unit :=
  match fault? with
  | some fault => .error fault
  | none => .ok ()

@[simp] theorem require_eq_ok {condition : Prop} [Decidable condition] {error : ε} {done : Unit} :
    require condition error = .ok done ↔ condition := by
  simp [require]

@[simp] theorem demand_eq_ok {value? : Option α} {error : ε} {value : α} :
    demand value? error = .ok value ↔ value? = some value := by
  cases value? <;> simp [demand]

@[simp] theorem refuse_eq_ok {fault? : Option ε} {done : Unit} :
    refuse fault? = .ok done ↔ fault? = none := by
  cases fault? <;> simp [refuse]

theorem ok_of_toOption {result : Except ε α} {value : α}
    (found : result.toOption = some value) : result = .ok value := by
  cases result with
  | error error => cases found
  | ok other => exact congrArg Except.ok (Option.some.inj found)

end ModuleHost
