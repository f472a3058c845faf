namespace ModuleHost
namespace Stepwise

/-!
# Fallible steps over a list

A step changes a state and may fail.  Running it over a list threads the state
through, and the first failure ends the run with the state reached by then: what
was done before a failure stays done, so that the caller can undo it.
-/

variable {σ ε α β : Type}

/-- Run a step over a list and collect its results. -/
def mapList (step : σ → α → σ × Except ε β) : σ → List α → σ × Except ε (List β)
  | state, [] => (state, .ok [])
  | state, item :: rest =>
    match step state item with
    | (state, .error error) => (state, .error error)
    | (state, .ok result) =>
      match mapList step state rest with
      | (state, .error error) => (state, .error error)
      | (state, .ok results) => (state, .ok (result :: results))

/-- Run a step without result over a list. -/
def forList (step : σ → α → σ × Except ε Unit) : σ → List α → σ × Except ε Unit
  | state, [] => (state, .ok ())
  | state, item :: rest =>
    match step state item with
    | (state, .error error) => (state, .error error)
    | (state, .ok ()) => forList step state rest

/-- What every step keeps, a run keeps, whether it fails or not. -/
theorem mapList_keeps (step : σ → α → σ × Except ε β) (keeps : σ → Prop)
    (h : ∀ state item, keeps state → keeps (step state item).1) (items : List α) (state : σ)
    (start : keeps state) : keeps (mapList step state items).1 := by
  induction items generalizing state with
  | nil => exact start
  | cons item rest ih =>
      have first := h state item start
      have later := ih (step state item).1 first
      simp only [mapList]
      split
      · next eq => rw [eq] at first; exact first
      · next eq =>
          rw [eq] at later
          split <;> (next more => rw [more] at later; exact later)

/-- What every step keeps, a run without results keeps. -/
theorem forList_keeps (step : σ → α → σ × Except ε Unit) (keeps : σ → Prop)
    (h : ∀ state item, keeps state → keeps (step state item).1) (items : List α) (state : σ)
    (start : keeps state) : keeps (forList step state items).1 := by
  induction items generalizing state with
  | nil => exact start
  | cons item rest ih =>
      have first := h state item start
      simp only [forList]
      split
      · next eq => rw [eq] at first; exact first
      · next eq => rw [eq] at first; exact ih _ first

end Stepwise
end ModuleHost
