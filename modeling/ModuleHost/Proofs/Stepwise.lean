import ModuleHost.Stepwise

namespace ModuleHost
namespace Stepwise

/-!
# Runs that succeed

A run without failure has taken every step, so a relation between the items done and
the state reached carries over from each step to the whole run.
-/

variable {σ ε α β : Type}

/-- The items done so far with their results, and the state: what each successful step
extends, a successful run has for all items. -/
theorem mapList_ok {step : σ → α → σ × Except ε β} {motive : List (α × β) → σ → Prop}
    (onward : ∀ done state item after result, motive done state →
      step state item = (after, .ok result) → motive (done ++ [(item, result)]) after)
    {items : List α} {results : List β} {state after : σ} (start : motive [] state)
    (ran : mapList step state items = (after, .ok results)) :
    results.length = items.length ∧ motive (items.zip results) after := by
  have general (done : List (α × β)) (items : List α) (results : List β) (state : σ)
      (here : motive done state) (ran : mapList step state items = (after, .ok results)) :
      results.length = items.length ∧ motive (done ++ items.zip results) after := by
    induction items generalizing state done results with
    | nil =>
        simp only [mapList, Prod.mk.injEq, Except.ok.injEq] at ran
        rcases ran with ⟨rfl, rfl⟩
        exact ⟨rfl, by simpa using here⟩
    | cons item rest ih =>
        cases first : step state item with
        | mk state' outcome =>
            cases outcome with
            | error error => simp [mapList, first] at ran
            | ok result =>
                cases later : mapList step state' rest with
                | mk state'' outcome =>
                    cases outcome with
                    | error error => simp [mapList, first, later] at ran
                    | ok results' =>
                        simp only [mapList, first, later, Prod.mk.injEq, Except.ok.injEq] at ran
                        rcases ran with ⟨rfl, rfl⟩
                        have next := onward done state item state' result here first
                        have rest' := ih (done ++ [(item, result)]) results' state' next later
                        refine ⟨congrArg (· + 1) rest'.1, ?_⟩
                        simpa [List.append_assoc] using rest'.2
  exact general [] items results state start ran

/-- A run that fails has done all items in front of the one that fails. -/
theorem mapList_error {step : σ → α → σ × Except ε β} {items : List α} {state after : σ}
    {error : ε} (ran : mapList step state items = (after, .error error)) :
    ∃ done item rest results before, items = done ++ item :: rest ∧
      mapList step state done = (before, .ok results) ∧
      step before item = (after, .error error) := by
  induction items generalizing state with
  | nil => simp [mapList] at ran
  | cons item rest ih =>
      cases first : step state item with
      | mk state' outcome =>
          cases outcome with
          | error reason =>
              simp only [mapList, first, Prod.mk.injEq, Except.error.injEq] at ran
              rcases ran with ⟨rfl, rfl⟩
              exact ⟨[], item, rest, [], state, rfl, rfl, first⟩
          | ok result =>
              cases later : mapList step state' rest with
              | mk state'' outcome =>
                  cases outcome with
                  | ok results => simp [mapList, first, later] at ran
                  | error reason =>
                      simp only [mapList, first, later, Prod.mk.injEq, Except.error.injEq] at ran
                      rcases ran with ⟨rfl, rfl⟩
                      rcases ih later with
                        ⟨done, failing, rest', results, before, rfl, passed, failed⟩
                      refine ⟨item :: done, failing, rest', result :: results, before, rfl, ?_,
                        failed⟩
                      simp only [mapList, first, passed]

/-- The same as `mapList_ok` for steps without results; the step knows what is done and what is
to come. -/
theorem forList_ok {step : σ → α → σ × Except ε Unit} {motive : List α → σ → Prop}
    {items : List α}
    (onward : ∀ done item rest state after, items = done ++ item :: rest → motive done state →
      step state item = (after, .ok ()) → motive (done ++ [item]) after)
    {state after : σ} (start : motive [] state)
    (ran : forList step state items = (after, .ok ())) : motive items after := by
  have general (done rest : List α) (state : σ) (split : items = done ++ rest)
      (here : motive done state) (ran : forList step state rest = (after, .ok ())) :
      motive items after := by
    induction rest generalizing done state with
    | nil =>
        simp only [forList, Prod.mk.injEq, and_true] at ran
        rw [split, List.append_nil, ← ran]
        exact here
    | cons item rest ih =>
        cases first : step state item with
        | mk state' outcome =>
            cases outcome with
            | error error => simp [forList, first] at ran
            | ok result =>
                simp only [forList, first] at ran
                refine ih (done ++ [item]) state' ?_ ?_ ran
                · rw [split, List.append_assoc, List.singleton_append]
                · exact onward done item rest state state' split here first
  exact general [] items state rfl start ran

/-- A run that succeeds has come to each item and passed it. -/
theorem forList_reaches {step : σ → α → σ × Except ε Unit} {front back : List α} {item : α}
    {state after : σ} (ran : forList step state (front ++ item :: back) = (after, .ok ())) :
    ∃ middle next, forList step state front = (middle, .ok ()) ∧
      step middle item = (next, .ok ()) := by
  induction front generalizing state with
  | nil =>
      rw [List.nil_append, forList] at ran
      split at ran
      · simp at ran
      · next stepped => exact ⟨state, _, rfl, stepped⟩
  | cons first rest ih =>
      rw [List.cons_append, forList] at ran
      simp only [forList]
      split at ran
      · simp at ran
      · exact ih ran

/-- A run that fails has taken all steps in front of the one that fails. -/
theorem forList_error {step : σ → α → σ × Except ε Unit} {items : List α} {state after : σ}
    {error : ε} (ran : forList step state items = (after, .error error)) :
    ∃ done item rest before, items = done ++ item :: rest ∧
      forList step state done = (before, .ok ()) ∧ step before item = (after, .error error) := by
  induction items generalizing state with
  | nil => simp [forList] at ran
  | cons item rest ih =>
      cases first : step state item with
      | mk state' outcome =>
          cases outcome with
          | error reason =>
              simp only [forList, first] at ran
              exact ⟨[], item, rest, state, rfl, rfl, first.trans ran⟩
          | ok result =>
              simp only [forList, first] at ran
              rcases ih ran with ⟨done, failing, later, before, rfl, passed, failed⟩
              refine ⟨item :: done, failing, later, before, rfl, ?_, failed⟩
              simp only [forList, first]
              exact passed

end Stepwise
end ModuleHost
