import Mathlib.Data.List.Pairwise
import Mathlib.Data.List.Perm.Basic
import ModuleHost.Proofs.Fixup.Outcome

namespace ModuleHost
namespace Fixup

/-!
# The order of fixups

A RISC-V displacement is patched in two halves, and the lower half names the place of the
upper half instead of a symbol.  Its value is looked up among the upper halves that have been
written, so it can be patched only after the upper half that it refers to.  For fixups that
cover different bytes and call without stubs this is all that their order decides: applied
with upper halves first they all give the same contents, or all fail, and otherwise they fail.
-/

/-- The fixup writes the upper half of a displacement. -/
def IsUpper (fixup : Fixup) : Prop :=
  StandsFor .riscv fixup.kind .relativeHigh20

/-- The fixup writes the lower half of a displacement. -/
def IsLower (fixup : Fixup) : Prop :=
  ∃ layout, StandsFor .riscv fixup.kind (.relativeLow12 layout)

/-- The lower half belongs to the upper half. -/
def Refers (lower upper : Fixup) : Prop :=
  lower.IsLower ∧ upper.IsUpper ∧ lower.symbol = upper.place

/-- The fixup needs no stub. -/
def IsDirect (fixup : Fixup) : Prop :=
  StandsFor .riscv fixup.kind .callPair →
    fitsHighLow (fixup.symbol + fixup.addend - fixup.place) = true

/-- The fixups do not write two upper halves at one place. -/
def OneUpper (first second : Fixup) : Prop :=
  first.IsUpper → second.IsUpper → first.place ≠ second.place

/-- Fixups that have nothing in common but the halves of displacements. -/
structure Independent (fixups : List Fixup) : Prop where
  separate : fixups.Pairwise (Separate .riscv)
  single : fixups.Pairwise OneUpper
  direct : ∀ fixup ∈ fixups, fixup.IsDirect

/-- No lower half comes before the upper half that it refers to. -/
def UppersFirst (fixups : List Fixup) : Prop :=
  fixups.Pairwise fun earlier later => ¬earlier.Refers later

/-- Apply fixups in their order, from a state of the section on. -/
def applyFrom (patching : Patching) (fixups : List Fixup) : Except FixupError (List UInt8) :=
  let (patching, outcome) := Stepwise.forList (Patching.step .riscv) patching fixups
  outcome.map fun () => patching.contents

/-- Apply the fixups of a section. -/
def applyAll (stubs : Option StubTable) (original : List UInt8) (fixups : List Fixup) :
    Except FixupError (List UInt8) :=
  applyFrom ⟨{ stubs }, original, []⟩ fixups

instance (fixup : Fixup) : Decidable fixup.IsUpper :=
  inferInstanceAs (Decidable (StandsFor _ _ _))

instance (fixup : Fixup) : Decidable fixup.IsLower :=
  decidable_of_iff
    (StandsFor .riscv fixup.kind (.relativeLow12 .load) ∨
      StandsFor .riscv fixup.kind (.relativeLow12 .store))
    ⟨fun known => known.elim (⟨_, ·⟩) (⟨_, ·⟩),
      fun ⟨layout, known⟩ => by cases layout <;> simp [known]⟩

instance (lower upper : Fixup) : Decidable (lower.Refers upper) :=
  inferInstanceAs (Decidable (_ ∧ _ ∧ _))

instance (fixup : Fixup) : Decidable fixup.IsDirect :=
  inferInstanceAs (Decidable (_ → _))

instance (first second : Fixup) : Decidable (OneUpper first second) :=
  inferInstanceAs (Decidable (_ → _ → _))

instance (fixups : List Fixup) : Decidable (UppersFirst fixups) :=
  inferInstanceAs (Decidable (List.Pairwise _ _))

instance : Std.Symm (Separate .riscv) :=
  ⟨fun _ _ separate index both => separate index both.symm⟩

instance : Std.Symm OneUpper :=
  ⟨fun _ _ one isUpper isUpper' same => one isUpper' isUpper same.symm⟩

theorem IsLower.not_isUpper {fixup : Fixup} (isLower : fixup.IsLower) : ¬fixup.IsUpper := by
  intro isUpper
  rcases isLower with ⟨layout, known⟩
  have same := (standsFor_iff.mp known).symm.trans (standsFor_iff.mp isUpper)
  cases same

/-- Two upper halves at one place are the same fixup. -/
theorem Independent.upper_eq {fixups : List Fixup} (independent : Independent fixups)
    {first second : Fixup} (listed : first ∈ fixups) (listed' : second ∈ fixups)
    (isUpper : first.IsUpper) (isUpper' : second.IsUpper) (same : first.place = second.place) :
    first = second := by
  by_contra different
  exact independent.single.forall listed listed' different isUpper isUpper' same

theorem Independent.perm {fixups fixups' : List Fixup} (independent : Independent fixups)
    (same : fixups.Perm fixups') : Independent fixups' where
  separate := independent.separate.perm same (symm · )
  single := independent.single.perm same (symm · )
  direct := fun fixup listed => independent.direct fixup (same.mem_iff.mpr listed)

/-! ## What a fixup takes from others -/

section Alone

variable {fixup : Fixup} {linkage linkage' : Linkage} {form : Form}

theorem riscv_form (known : Form.ofKind? .riscv fixup.kind = some form) :
    form ≠ .call32 ∧ form ≠ .branch26 := by
  have listed : ∀ entry ∈ Form.table .riscv, entry.2 ≠ .call32 ∧ entry.2 ≠ .branch26 := by
    decide
  rcases Option.map_eq_some_iff.mp known with ⟨entry, found, rfl⟩
  exact listed entry (List.mem_of_find?_eq_some found)

/-- A fixup that needs no stub takes from what is remembered only the upper half that it refers
to. -/
theorem plan_congr (known : Form.ofKind? .riscv fixup.kind = some form) (direct : fixup.IsDirect)
    (halves : fixup.IsLower →
      linkage.upperHalf? fixup.symbol = linkage'.upperHalf? fixup.symbol) :
    (fixup.plan linkage form).2 = (fixup.plan linkage' form).2 := by
  cases form with
  | call32 => exact absurd rfl (riscv_form known).1
  | branch26 => exact absurd rfl (riscv_form known).2
  | callPair =>
      have near := direct (standsFor_iff.mpr known)
      have unbiased : fixup.symbol + fixup.addend + 0 - fixup.place =
          fixup.symbol + fixup.addend - fixup.place := by grind
      simp only [plan, route, unbiased, near, if_true]
  | relativeLow12 layout =>
      simp only [plan]
      rw [halves ⟨layout, standsFor_iff.mpr known⟩]
      split <;> rfl
  | _ => rfl

theorem apply_congr (direct : fixup.IsDirect)
    (halves : fixup.IsLower →
      linkage.upperHalf? fixup.symbol = linkage'.upperHalf? fixup.symbol)
    (contents : List UInt8) :
    (fixup.apply .riscv linkage contents).2 = (fixup.apply .riscv linkage' contents).2 := by
  cases known : Form.ofKind? .riscv fixup.kind with
  | none => simp only [apply, known]
  | some form =>
      rw [result_of_form known, result_of_form known, plan_congr known direct halves]

/-- The patch that a fixup makes wherever it lies. -/
def patch? (linkage : Linkage) (fixup : Fixup) : Option Patch :=
  (Form.ofKind? .riscv fixup.kind).bind fun form => (fixup.plan linkage form).2.toOption

theorem width_of_patch? {patch : Patch} (planned : patch? linkage fixup = some patch) :
    patch.width = kindWidth .riscv fixup.kind := by
  rcases Option.bind_eq_some_iff.mp planned with ⟨form, known, found⟩
  cases plans : fixup.plan linkage form with
  | mk after result =>
      cases result with
      | error error => simp [plans, Except.toOption] at found
      | ok patch' =>
          simp only [plans, Except.toOption, Option.some.injEq] at found
          rcases found
          rw [(prescribes_of_plan plans).1, kindWidth_of_form known]

theorem toOption_apply (contents : List UInt8) :
    (fixup.apply .riscv linkage contents).2.toOption =
      (patch? linkage fixup).bind (·.make? contents fixup.offset) := by
  cases known : Form.ofKind? .riscv fixup.kind with
  | none => simp [apply, patch?, known, Except.toOption]
  | some form =>
      rw [result_of_form known, patch?, known, Option.bind_some]
      cases (fixup.plan linkage form).2 with
      | error error => rfl
      | ok patch =>
          cases made : patch.make? contents fixup.offset <;>
            simp [Except.bind, Except.toOption, demand, made]

end Alone

/-! ## Upper halves known beforehand -/

/-- Apply a fixup to contents, if there are any, with other upper halves than those that have
been written. -/
def applyWith (reference : Linkage) (contents? : Option (List UInt8)) (fixup : Fixup) :
    Option (List UInt8) :=
  contents?.bind fun contents => (fixup.apply .riscv reference contents).2.toOption

theorem applyWith_comm (reference : Linkage) (contents? : Option (List UInt8))
    {first second : Fixup} (separate : Separate .riscv first second) :
    applyWith reference (applyWith reference contents? first) second =
      applyWith reference (applyWith reference contents? second) first := by
  cases contents? with
  | none => rfl
  | some contents =>
      simp only [applyWith, Option.bind_some, toOption_apply]
      cases one : patch? reference first with
      | none => cases patch? reference second <;> simp
      | some patch =>
          cases two : patch? reference second with
          | none => simp
          | some patch' =>
              simp only [Option.bind_some]
              refine Patch.bind_make?_comm fun index covered covered' => separate index ⟨?_, ?_⟩
              · rw [Covers, ← width_of_patch? one]
                exact covered
              · rw [Covers, ← width_of_patch? two]
                exact covered'

theorem foldl_applyWith_none (reference : Linkage) (fixups : List Fixup) :
    fixups.foldl (applyWith reference) none = none := by
  induction fixups with
  | nil => rfl
  | cons fixup rest ih => exact ih

/-- With all upper halves known, the order does not matter. -/
theorem foldl_applyWith_perm (reference : Linkage) (original : List UInt8)
    {fixups fixups' : List Fixup} (same : fixups.Perm fixups')
    (separate : fixups.Pairwise (Separate .riscv)) :
    fixups.foldl (applyWith reference) (some original) =
      fixups'.foldl (applyWith reference) (some original) := by
  refine same.foldl_eq' (fun first listed second listed' contents? => ?_) _
  by_cases equal : first = second
  · rw [equal]
  · exact applyWith_comm reference contents? (separate.forall listed listed' equal)

/-- The upper halves remembered are those of the fixups. -/
def Noted (linkage : Linkage) (done : List Fixup) : Prop :=
  ∀ place value, linkage.Upper place value ↔ ∃ upper ∈ done, upper.Wrote .riscv place value

/-- The upper halves of fixups, as if all of them had been written. -/
def uppers (fixups : List Fixup) : Linkage where
  upperHalves := (fixups.filter fun fixup => fixup.IsUpper).map fun upper =>
    (upper.place, upper.symbol + upper.addend - upper.place)

theorem noted_uppers (fixups : List Fixup) : Noted (uppers fixups) fixups := by
  intro place value
  simp only [Linkage.Upper, uppers, Wrote, IsUpper, List.mem_map, List.mem_filter, Prod.mk.injEq]
  grind

namespace Noted

variable {linkage after : Linkage} {done : List Fixup}

theorem perm {done' : List Fixup} (noted : Noted linkage done) (same : done.Perm done') :
    Noted linkage done' := by
  intro place value
  rw [noted place value]
  simp only [same.mem_iff]

/-- One more fixup. -/
theorem step {fixup : Fixup} {contents contents' : List UInt8} (noted : Noted linkage done)
    (applied : fixup.apply .riscv linkage contents = (after, .ok contents')) :
    Noted after (done ++ [fixup]) := by
  intro place value
  rw [upper_of_ok applied, noted place value]
  simp only [List.mem_append, List.mem_singleton]
  grind

/-- The upper half at a place, if no other has been written there. -/
theorem upperHalf?_eq_some (noted : Noted linkage done) {upper : Fixup} (listed : upper ∈ done)
    (isUpper : upper.IsUpper)
    (single : ∀ other ∈ done, other.IsUpper → other.place = upper.place → other = upper) :
    linkage.upperHalf? upper.place = some (upper.symbol + upper.addend - upper.place) := by
  cases found : linkage.upperHalf? upper.place with
  | none =>
      have written := (noted _ _).mpr ⟨upper, listed, isUpper, rfl, rfl⟩
      exact absurd written (upperHalf?_eq_none_iff.mp found _)
  | some value =>
      rcases (noted _ _).mp (Linkage.upper_of_upperHalf? found)
        with ⟨other, listed', isUpper', here, rfl⟩
      rw [single other listed' isUpper' here.symm]

theorem upperHalf?_eq_none (noted : Noted linkage done) {place : Word}
    (absent : ∀ upper ∈ done, upper.IsUpper → upper.place ≠ place) :
    linkage.upperHalf? place = none := by
  rw [upperHalf?_eq_none_iff]
  intro value written
  rcases (noted place value).mp written with ⟨upper, listed, isUpper, here, -⟩
  exact absent upper listed isUpper here.symm

end Noted

/-! ## Runs -/

section Runs

variable {fixups done rest : List Fixup} {patching : Patching}

theorem applyFrom_cons_ok {fixup : Fixup} {next : Patching}
    (step : patching.step .riscv fixup = (next, .ok ())) :
    applyFrom patching (fixup :: rest) = applyFrom next rest := by
  simp only [applyFrom, Stepwise.forList, step]

theorem applyFrom_cons_error {fixup : Fixup} {next : Patching} {error : FixupError}
    (step : patching.step .riscv fixup = (next, .error error)) :
    applyFrom patching (fixup :: rest) = .error error := by
  simp only [applyFrom, Stepwise.forList, step]
  rfl

/-- What a lower half is patched with, if upper halves come first, is the upper half that it
would be patched with if all upper halves had been written. -/
theorem upperHalf?_eq_of_uppersFirst (independent : Independent fixups)
    (ordered : UppersFirst fixups) {lower : Fixup} (split : fixups = done ++ lower :: rest)
    (isLower : lower.IsLower) {linkage reference : Linkage} (noted : Noted linkage done)
    (all : Noted reference fixups) :
    linkage.upperHalf? lower.symbol = reference.upperHalf? lower.symbol := by
  have within {fixup : Fixup} (listed : fixup ∈ done) : fixup ∈ fixups := by
    rw [split]
    exact List.mem_append_left _ listed
  by_cases partner : ∃ upper ∈ fixups, lower.Refers upper
  · rcases partner with ⟨upper, listed, refers⟩
    rcases refers with ⟨-, isUpper, names⟩
    have before : upper ∈ done := by
      rw [split] at listed ordered
      rcases List.mem_append.mp listed with before | behind
      · exact before
      · rcases List.mem_cons.mp behind with rfl | behind
        · exact absurd isUpper isLower.not_isUpper
        · have later := (List.pairwise_cons.mp (List.pairwise_append.mp ordered).2.1).1
          exact absurd ⟨isLower, isUpper, names⟩ (later upper behind)
    rw [names, all.upperHalf?_eq_some listed isUpper,
      noted.upperHalf?_eq_some before isUpper]
    · exact fun other listed' isUpper' same =>
        independent.upper_eq (within listed') listed isUpper' isUpper same
    · exact fun other listed' isUpper' same =>
        independent.upper_eq listed' listed isUpper' isUpper same
  · have absent (upper : Fixup) (listed : upper ∈ fixups) (isUpper : upper.IsUpper) :
        upper.place ≠ lower.symbol :=
      fun same => partner ⟨upper, listed, isLower, isUpper, same.symm⟩
    rw [all.upperHalf?_eq_none absent,
      noted.upperHalf?_eq_none fun upper listed => absent upper (within listed)]

/-- With upper halves first, applying fixups is applying them with all upper halves known. -/
theorem applyFrom_eq_foldl (independent : Independent fixups) (ordered : UppersFirst fixups)
    {reference : Linkage} (all : Noted reference fixups) (split : fixups = done ++ rest)
    (noted : Noted patching.linkage done) :
    (applyFrom patching rest).toOption =
      rest.foldl (applyWith reference) (some patching.contents) := by
  induction rest generalizing done patching with
  | nil => rfl
  | cons fixup rest ih =>
      have listed : fixup ∈ fixups := by rw [split]; simp
      have known : (fixup.apply .riscv patching.linkage patching.contents).2 =
          (fixup.apply .riscv reference patching.contents).2 :=
        apply_congr (independent.direct fixup listed) (fun isLower =>
          upperHalf?_eq_of_uppersFirst independent ordered split isLower noted all) _
      have first : applyWith reference (some patching.contents) fixup =
          (fixup.apply .riscv patching.linkage patching.contents).2.toOption := by
        rw [known]
        rfl
      rw [List.foldl_cons, first]
      cases applied : fixup.apply .riscv patching.linkage patching.contents with
      | mk after result =>
          cases result with
          | error error =>
              rcases step_of_apply_error applied with ⟨next, step, -⟩
              rw [applyFrom_cons_error step]
              exact (foldl_applyWith_none reference rest).symm
          | ok contents =>
              rcases step_of_apply_ok applied with ⟨next, step, rfl, rfl⟩
              rw [applyFrom_cons_ok step]
              exact ih (by rw [split, List.append_assoc]; rfl) (noted.step applied)

/-- What a run without failure has done. -/
structure Passed (done : List Fixup) (linkage : Linkage) : Prop where
  noted : Noted linkage done
  paired : ∀ lower ∈ done, lower.IsLower → ∃ upper ∈ done, lower.Refers upper
  ordered : UppersFirst done

/-- A lower half that was patched refers to an upper half before it. -/
theorem Noted.refers {linkage after : Linkage} {fixup : Fixup} {contents contents' : List UInt8}
    (noted : Noted linkage done)
    (applied : fixup.apply .riscv linkage contents = (after, .ok contents'))
    (isLower : fixup.IsLower) : ∃ upper ∈ done, fixup.Refers upper := by
  rcases isLower with ⟨layout, known⟩
  rcases made_of_form (standsFor_iff.mp known) applied with ⟨planned, patch, plans, -⟩
  simp only [plan] at plans
  split at plans
  · cases plans
  · next value found =>
      rcases (noted _ _).mp (Linkage.upper_of_upperHalf? found)
        with ⟨upper, listed, isUpper, here, -⟩
      exact ⟨upper, listed, ⟨layout, known⟩, isUpper, here⟩

theorem Passed.step {linkage after : Linkage} {fixup : Fixup} {contents contents' : List UInt8}
    (passed : Passed done linkage) (single : (done ++ [fixup]).Pairwise OneUpper)
    (applied : fixup.apply .riscv linkage contents = (after, .ok contents')) :
    Passed (done ++ [fixup]) after where
  noted := passed.noted.step applied
  paired := by
    intro lower listed isLower
    have before : ∃ upper ∈ done, lower.Refers upper := by
      rcases List.mem_append.mp listed with earlier | last
      · exact passed.paired lower earlier isLower
      · rcases List.mem_singleton.mp last
        exact passed.noted.refers applied isLower
    rcases before with ⟨upper, listed', refers⟩
    exact ⟨upper, List.mem_append_left _ listed', refers⟩
  ordered := by
    refine List.pairwise_append.mpr ⟨passed.ordered, List.pairwise_singleton _ _, ?_⟩
    intro lower listed upper last refers
    rcases List.mem_singleton.mp last
    -- the lower half has been patched, so the upper half at that place is another one
    rcases passed.paired lower listed refers.1 with ⟨other, listed', refers'⟩
    have apart := (List.pairwise_append.mp single).2.2 other listed' fixup List.mem_cons_self
    exact apart refers'.2.1 refers.2.1 (refers'.2.2.symm.trans refers.2.2)

theorem passed_of_run {next : Patching} (fresh : patching.linkage.upperHalves = [])
    (single : done.Pairwise OneUpper)
    (ran : Stepwise.forList (Patching.step .riscv) patching done = (next, .ok ())) :
    Passed done next.linkage := by
  refine Stepwise.forList_ok (motive := fun now state => Passed now state.linkage) ?_ ?_ ran
  · intro now fixup rest state after split passed step
    refine passed.step (single.sublist ?_) (step_eq_ok step)
    rw [split]
    exact (List.singleton_sublist.mpr List.mem_cons_self).append_left now
  · refine ⟨fun place value => ?_, by simp, List.Pairwise.nil⟩
    simp [Linkage.Upper, fresh]

end Runs

theorem Linkage.stubFor_eq_error {linkage : Linkage} {target : Word} {error : FixupError}
    (failed : linkage.stubFor target = .error error) :
    error = .noStubs ∨ error = .stubsExhausted := by
  unfold Linkage.stubFor at failed
  split at failed
  · exact Or.inl (Except.error.inj failed).symm
  · next table stubs =>
      split at failed
      · next reason full =>
          cases failed
          exact Or.inr (StubTable.stubFor_eq_error full).1
      · cases failed

theorem route_ne_unpaired (fixup : Fixup) (linkage : Linkage) (destination bias : Word)
    (fits : Word → Bool) (place : Word) :
    (fixup.route linkage destination bias fits).2 ≠ .error (.unpairedLow place) := by
  unfold route
  simp only
  split
  · simp
  · split
    · next error failed =>
        rcases Linkage.stubFor_eq_error failed with rfl | rfl <;> simp
    · split <;> simp

theorem map_ne_error {result : Except FixupError Word} {make : Word → Patch} {error : FixupError}
    (other : result ≠ .error error) : result.map make ≠ .error error := by
  cases result with
  | error reason => simpa [Except.map] using other
  | ok value => simp [Except.map]

theorem fitting_ne_unpaired (fixup : Fixup) (value : Word) (fits : Word → Bool) (place : Word) :
    fixup.fitting value fits ≠ .error (.unpairedLow place) := by
  unfold fitting
  split <;> simp

/-- Why a lower half cannot be patched. -/
theorem unpaired_of_plan {fixup : Fixup} {linkage after : Linkage} {form : Form} {place : Word}
    (plans : fixup.plan linkage form = (after, .error (.unpairedLow place))) :
    ∃ layout, form = .relativeLow12 layout ∧ place = fixup.place ∧
      linkage.upperHalf? fixup.symbol = none := by
  have planned := congrArg Prod.snd plans
  cases form with
  | relativeLow12 layout =>
      simp only [plan] at planned
      split at planned
      · next absent =>
          simp only [Except.error.injEq, FixupError.unpairedLow.injEq] at planned
          exact ⟨layout, rfl, planned.symm, absent⟩
      · cases planned
  | call32 | branch26 | callPair =>
      simp only [plan] at planned
      exact absurd planned (map_ne_error (route_ne_unpaired fixup linkage _ _ _ place))
  | data32 _ _ | page21 | branch12 | jump20 | high20 | relativeHigh20 =>
      simp only [plan] at planned
      exact absurd planned (map_ne_error (fitting_ne_unpaired fixup _ _ place))
  | _ => cases planned

theorem unpaired_of_apply {fixup : Fixup} {linkage after : Linkage} {contents : List UInt8}
    {place : Word}
    (failed : fixup.apply .riscv linkage contents = (after, .error (.unpairedLow place))) :
    fixup.IsLower ∧ place = fixup.place ∧ linkage.upperHalf? fixup.symbol = none := by
  cases fails_of_apply failed with
  | unplanned form _ _ known plans =>
      rcases unpaired_of_plan plans with ⟨layout, rfl, here, absent⟩
      exact ⟨⟨layout, standsFor_iff.mpr known⟩, here, absent⟩

/-- A lower half is reported as unpaired if no upper half that it refers to has been written. -/
theorem unpaired_of_applyFrom {fixups : List Fixup} {patching : Patching} {place : Word}
    (fresh : patching.linkage.upperHalves = []) (single : fixups.Pairwise OneUpper)
    (failed : applyFrom patching fixups = .error (.unpairedLow place)) :
    ∃ done lower rest, fixups = done ++ lower :: rest ∧ lower.IsLower ∧ lower.place = place ∧
      ∀ upper ∈ done, ¬lower.Refers upper := by
  rw [applyFrom] at failed
  cases ran : Stepwise.forList (Patching.step .riscv) patching fixups with
  | mk after outcome =>
      cases outcome with
      | ok result => simp [ran, Except.map] at failed
      | error error =>
          simp only [ran, Except.map, Except.error.injEq] at failed
          subst failed
          rcases Stepwise.forList_error ran with ⟨done, lower, rest, before, rfl, passed, step⟩
          have noted := (passed_of_run fresh (List.pairwise_append.mp single).1 passed).noted
          rcases unpaired_of_apply (step_eq_error step).1 with ⟨isLower, here, absent⟩
          refine ⟨done, lower, rest, rfl, isLower, here.symm, ?_⟩
          intro upper listed refers
          have written := (noted lower.symbol _).mpr ⟨upper, listed, refers.2.1, refers.2.2, rfl⟩
          exact upperHalf?_eq_none_iff.mp absent _ written

/-- Fixups that are independent of one another are applied with the same outcome in any two
orders in which no lower half comes before the upper half that it refers to.  In all other
orders they fail, and only a lower half without an upper half before it is reported as
unpaired. -/
theorem order_decides_pairs (stubs : Option StubTable) (original : List UInt8)
    {fixups fixups' : List Fixup} (same : fixups.Perm fixups')
    (independent : Independent fixups) :
    (UppersFirst fixups → UppersFirst fixups' →
      (applyAll stubs original fixups).toOption = (applyAll stubs original fixups').toOption) ∧
    (¬UppersFirst fixups → (applyAll stubs original fixups).toOption = none) ∧
    (∀ place, applyAll stubs original fixups = .error (.unpairedLow place) →
      ∃ done lower rest, fixups = done ++ lower :: rest ∧ lower.IsLower ∧ lower.place = place ∧
        ∀ upper ∈ done, ¬lower.Refers upper) := by
  refine ⟨?_, ?_, ?_⟩
  · intro ordered ordered'
    have start : Noted ({ stubs } : Linkage) [] := by simp [Noted, Linkage.Upper]
    have all := noted_uppers fixups
    rw [applyAll, applyAll, applyFrom_eq_foldl independent ordered all rfl start,
      applyFrom_eq_foldl (independent.perm same) ordered' (all.perm same) rfl start]
    exact foldl_applyWith_perm _ _ same independent.separate
  · intro unordered
    rw [applyAll, applyFrom]
    cases ran : Stepwise.forList (Patching.step .riscv) ⟨{ stubs }, original, []⟩ fixups with
    | mk after outcome =>
        cases outcome with
        | error error => rfl
        | ok done => exact absurd (passed_of_run rfl independent.single ran).ordered unordered
  · exact fun place failed => unpaired_of_applyFrom rfl independent.single failed

/-- A pair and a word that points to itself. -/
theorem order_decides_pairs_of_three :
    let place : Word := 0x1000000000
    let upper : Fixup := { kind := 23, offset := 0, place, symbol := place, addend := 0x1234 }
    let lower : Fixup :=
      { kind := 24, offset := 4, place := place + 4, symbol := place, addend := 0 }
    let word : Fixup :=
      { kind := 2, offset := 8, place := place + 8, symbol := place, addend := 8 }
    let original := Endian.bytes 4 0x00000517 ++ Endian.bytes 12 0x00050513
    Independent [upper, lower, word] ∧ UppersFirst [upper, lower, word] ∧
      UppersFirst [word, upper, lower] ∧
      (applyAll none original [upper, lower, word]).toOption =
        (applyAll none original [word, upper, lower]).toOption := by
  intro place upper lower word original
  have same : [upper, lower, word].Perm [word, upper, lower] :=
    (List.perm_append_comm : ([upper, lower] ++ [word]).Perm ([word] ++ [upper, lower]))
  have independent : Independent [upper, lower, word] := by
    refine ⟨?_, by decide, by decide⟩
    refine .cons ?_ (.cons ?_ (.cons ?_ .nil))
    · simp only [List.mem_cons, List.not_mem_nil, or_false]
      rintro fixup (rfl | rfl)
      · exact separate_of_le (by decide)
      · exact separate_of_le (by decide)
    · simp only [List.mem_cons, List.not_mem_nil, or_false]
      rintro fixup rfl
      exact separate_of_le (by decide)
    · simp
  exact ⟨independent, by decide, by decide,
    (order_decides_pairs none original same independent).1 (by decide) (by decide)⟩

/-- A lower half that is patched before its upper half is reported as unpaired, although the
upper half follows. -/
theorem lower_before_upper_fails :
    let place : Word := 0x1000000000
    let upper : Fixup := { kind := 23, offset := 0, place, symbol := place, addend := 0x1234 }
    let lower : Fixup :=
      { kind := 24, offset := 4, place := place + 4, symbol := place, addend := 0 }
    let original := Endian.bytes 4 0x00000517 ++ Endian.bytes 4 0x00050513
    Independent [upper, lower] ∧ lower.Refers upper ∧ [upper, lower].Perm [lower, upper] ∧
      applyAll none original [upper, lower] =
        .ok (Endian.bytes 4 0x00001517 ++ Endian.bytes 4 0x23450513) ∧
      applyAll none original [lower, upper] = .error (.unpairedLow lower.place) := by
  intro place upper lower original
  have separate : Separate .riscv upper lower := separate_of_le (by decide)
  exact ⟨⟨List.pairwise_pair.mpr separate, by decide, by decide⟩, by decide, .swap _ _ _,
    by decide, by decide⟩

end Fixup
end ModuleHost
