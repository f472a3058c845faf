import ModuleHost.Checked
import ModuleHost.Proofs.Fixup.Patching

namespace ModuleHost
namespace Fixup

/-!
# Outcomes of a fixup

How a fixup can fail, when it fails for a value out of range, and what its outcome does to the
upper halves that were noted.  `made_of_apply` says what it has done when it succeeds.
-/

variable {fixup : Fixup} {machine : Machine} {linkage after : Linkage}
variable {contents contents' : List UInt8} {form : Form}

/-- The result is the planned patch, made if it lies inside the section. -/
theorem result_of_form (known : Form.ofKind? machine fixup.kind = some form) (linkage : Linkage)
    (contents : List UInt8) :
    (fixup.apply machine linkage contents).2 =
      (fixup.plan linkage form).2.bind fun patch =>
        demand (patch.make? contents fixup.offset) (.outOfBounds fixup.offset) := by
  simp only [apply, known]
  cases fixup.plan linkage form with
  | mk after planned =>
      cases planned with
      | error error => rfl
      | ok patch =>
          cases made : patch.make? contents fixup.offset <;> simp [Except.bind, demand, made]

/-- The outcome is that the fixup was applied. -/
def Succeeds (outcome : Linkage × Except FixupError (List UInt8)) : Prop :=
  ∃ contents, outcome.2 = .ok contents

/-- A form that writes succeeds if its patch can be planned and lies inside the section. -/
theorem succeeds_iff (known : Form.ofKind? machine fixup.kind = some form)
    (writes : 0 < form.width) :
    Succeeds (fixup.apply machine linkage contents) ↔
      (∃ patch, (fixup.plan linkage form).2 = .ok patch) ∧
        fixup.offset + form.width ≤ contents.length := by
  rw [Succeeds, result_of_form known]
  cases plans : fixup.plan linkage form with
  | mk planned result =>
      cases result with
      | error error => simp [Except.bind]
      | ok patch =>
          have width := (prescribes_of_plan plans).1
          simp only [Except.bind, demand_eq_ok, Except.ok.injEq, exists_eq', true_and]
          constructor
          · rintro ⟨patched, made⟩
            have inside := (Patch.make?_eq_some made).1
            rw [width] at inside
            exact inside.resolve_left (Nat.ne_of_gt writes)
          · intro inside
            rw [← width] at inside writes
            cases patch with
            | keep => exact absurd writes (Nat.lt_irrefl 0)
            | _ => exact ⟨_, if_pos inside⟩

/-! ## Failures -/

/-- The ways to fail: the kind is unknown, no patch can be planned, or it lies outside the
section. -/
inductive Fails (fixup : Fixup) (machine : Machine) (linkage : Linkage) (contents : List UInt8) :
    Linkage → FixupError → Prop
  | unsupported (unknown : Form.ofKind? machine fixup.kind = none) :
      Fails fixup machine linkage contents linkage (.unsupported machine fixup.kind)
  | unplanned (form : Form) (after : Linkage) (error : FixupError)
      (known : Form.ofKind? machine fixup.kind = some form)
      (plans : fixup.plan linkage form = (after, .error error)) :
      Fails fixup machine linkage contents after error
  | outside (form : Form) (after : Linkage) (patch : Patch)
      (known : Form.ofKind? machine fixup.kind = some form)
      (plans : fixup.plan linkage form = (after, .ok patch))
      (beyond : patch.make? contents fixup.offset = none) :
      Fails fixup machine linkage contents after (.outOfBounds fixup.offset)

theorem fails_of_apply {error : FixupError}
    (failed : fixup.apply machine linkage contents = (after, .error error)) :
    Fails fixup machine linkage contents after error := by
  unfold apply at failed
  split at failed
  · next unknown =>
      simp only [Prod.mk.injEq, Except.error.injEq] at failed
      rcases failed with ⟨rfl, rfl⟩
      exact .unsupported unknown
  · next form known =>
      split at failed
      · next planned reason plans =>
          simp only [Prod.mk.injEq, Except.error.injEq] at failed
          rcases failed with ⟨rfl, rfl⟩
          exact .unplanned form _ _ known plans
      · next planned patch plans =>
          split at failed
          · next beyond =>
              simp only [Prod.mk.injEq, Except.error.injEq] at failed
              rcases failed with ⟨rfl, rfl⟩
              exact .outside form _ patch known plans beyond
          · simp at failed

/-- A fixup fails with the error of its plan. -/
theorem apply_of_plan_error {error : FixupError}
    (known : Form.ofKind? machine fixup.kind = some form)
    (plans : fixup.plan linkage form = (after, .error error)) (contents : List UInt8) :
    fixup.apply machine linkage contents = (after, .error error) := by
  simp only [apply, known, plans]

/-- The outcome is that a value is out of range. -/
def Overflows (outcome : Linkage × Except FixupError (List UInt8)) : Prop :=
  ∃ kind value, outcome.2 = .error (.overflow kind value)

/-- A form whose value is checked overflows if the value does not fit, wherever the place is. -/
theorem overflows_iff {value : Word} {fits : Word → Bool} {make : Word → Patch}
    (known : Form.ofKind? machine fixup.kind = some form)
    (plans : fixup.plan linkage form = (linkage, (fixup.fitting value fits).map make)) :
    Overflows (fixup.apply machine linkage contents) ↔ ¬fits value = true := by
  constructor
  · rintro ⟨kind, value', overflow⟩ fitting
    have planned : fixup.plan linkage form = (linkage, .ok (make value)) := by
      rw [plans, Fixup.fitting, if_pos fitting]
      rfl
    obtain ⟨after, failed⟩ : ∃ after, fixup.apply machine linkage contents =
        (after, .error (.overflow kind value')) := ⟨_, Prod.ext rfl overflow⟩
    cases fails_of_apply failed with
    | unplanned form' _ _ known' plans' =>
        rw [known] at known'
        rcases Option.some.inj known'
        rw [planned] at plans'
        cases plans'
  · intro beyond
    refine ⟨fixup.kind, value, ?_⟩
    have planned : fixup.plan linkage form =
        (linkage, .error (.overflow fixup.kind value)) := by
      rw [plans, Fixup.fitting, if_neg beyond]
      rfl
    rw [apply_of_plan_error known planned]

/-! ## Upper halves -/

/-- Some upper half is found at a place unless none has been written there. -/
theorem upperHalf?_eq_none_iff {place : Word} :
    linkage.upperHalf? place = none ↔ ∀ value, ¬linkage.Upper place value := by
  simp only [Linkage.upperHalf?, Linkage.Upper, Option.map_eq_none_iff, List.find?_eq_none,
    decide_eq_true_eq, Prod.forall]
  constructor
  · exact fun absent value written => absent place value written rfl
  · rintro absent place' value written rfl
    exact absent value written

theorem upperHalves_note {planned : Linkage} (same : planned.upperHalves = linkage.upperHalves) :
    (fixup.note planned form).upperHalves = (fixup.note linkage form).upperHalves := by
  cases form with
  | relativeHigh20 =>
      simp only [note]
      rw [same]
  | _ => exact same

/-- A fixup that fails notes no upper half. -/
theorem upperHalves_of_error {error : FixupError}
    (failed : fixup.apply machine linkage contents = (after, .error error)) :
    after.upperHalves = linkage.upperHalves := by
  cases fails_of_apply failed with
  | unsupported unknown => rfl
  | unplanned form _ _ known plans =>
      have kept := (asks_plan fixup linkage form).upperHalves_eq
      rwa [plans] at kept
  | outside form _ patch known plans beyond =>
      have kept := (asks_plan fixup linkage form).upperHalves_eq
      rwa [plans] at kept

/-- A fixup that succeeds notes the upper half that it has written. -/
theorem upperHalves_of_ok (known : Form.ofKind? machine fixup.kind = some form)
    (applied : fixup.apply machine linkage contents = (after, .ok contents')) :
    after.upperHalves = (fixup.note linkage form).upperHalves := by
  rcases made_of_form known applied with ⟨planned, patch, plans, made, rfl⟩
  have kept := (asks_plan fixup linkage form).upperHalves_eq
  rw [plans] at kept
  exact upperHalves_note kept

theorem upper_of_ok (applied : fixup.apply machine linkage contents = (after, .ok contents'))
    (place value : Word) :
    after.Upper place value ↔ linkage.Upper place value ∨ fixup.Wrote machine place value := by
  rcases made_of_apply applied with ⟨form, -, -, known, -⟩
  rw [Linkage.Upper, upperHalves_of_ok known applied]
  constructor
  · exact upper_of_note known
  · rintro (older | ⟨stands, rfl, rfl⟩)
    · exact (extends_note fixup linkage form).upper place value older
    · have known' := standsFor_iff.mp stands
      rw [known] at known'
      rcases Option.some.inj known'
      exact List.mem_cons_self

/-- The upper half at a place is as before, unless another one has been written there. -/
theorem upperHalf?_apply (place : Word)
    (other : ¬(StandsFor machine fixup.kind .relativeHigh20 ∧ fixup.place = place)) :
    (fixup.apply machine linkage contents).1.upperHalf? place = linkage.upperHalf? place := by
  cases applied : fixup.apply machine linkage contents with
  | mk after outcome =>
      cases outcome with
      | error error =>
          simp only [Linkage.upperHalf?, upperHalves_of_error applied]
      | ok contents' =>
          rcases made_of_apply applied with ⟨form, -, -, known, -⟩
          simp only [Linkage.upperHalf?, upperHalves_of_ok known applied]
          cases form with
          | relativeHigh20 =>
              have elsewhere : ¬fixup.place = place := fun here =>
                other ⟨standsFor_iff.mpr known, here⟩
              simp only [note]
              rw [List.find?_cons_of_neg (by simpa using elsewhere)]
          | _ => rfl

end Fixup
end ModuleHost
