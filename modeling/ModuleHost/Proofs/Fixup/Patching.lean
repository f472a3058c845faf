import ModuleHost.Host.Linking
import ModuleHost.Proofs.Fixup.Kinds
import ModuleHost.Proofs.Stepwise

namespace ModuleHost
namespace Fixup

/-!
# Patching a section

A fixup that is applied changes the bytes it covers and no others, and leaves there the
field that its form prescribes.  If the fixups of a section cover different bytes, each of
them finds the original bytes at its place and is not disturbed by those after it, so in
the end every place holds its field and every other byte is the original one.
-/

namespace Patch

theorem length_splice {contents bytes : List UInt8} {offset : Nat}
    (inside : offset + bytes.length ≤ contents.length) :
    (splice contents offset bytes).length = contents.length := by
  simp only [splice, List.length_append, List.length_take, List.length_drop]
  omega

theorem getElem?_splice {contents bytes : List UInt8} {offset : Nat}
    (inside : offset + bytes.length ≤ contents.length) (index : Nat) :
    (splice contents offset bytes)[index]? =
      if offset ≤ index ∧ index < offset + bytes.length then bytes[index - offset]?
      else contents[index]? := by
  have front : (contents.take offset).length = offset := by
    rw [List.length_take]
    omega
  by_cases before : index < offset
  · rw [if_neg (by omega), splice, List.append_assoc, List.getElem?_append_left (by omega),
      List.getElem?_take, if_pos before]
  · rw [splice, List.append_assoc, List.getElem?_append_right (by omega), front]
    by_cases within : index < offset + bytes.length
    · rw [if_pos (by omega), List.getElem?_append_left (by omega)]
    · rw [if_neg (by omega), List.getElem?_append_right (by omega), List.getElem?_drop]
      congr 1
      omega

/-- What is read at a range depends on the bytes of the range only. -/
theorem slice_congr {first second : List UInt8} {offset count : Nat}
    (same : ∀ index, offset ≤ index → index < offset + count → first[index]? = second[index]?) :
    Endian.slice first offset count = Endian.slice second offset count := by
  apply List.ext_getElem?
  intro index
  simp only [Endian.slice, List.getElem?_take, List.getElem?_drop]
  split
  · exact same _ (by omega) (by omega)
  · rfl

theorem slice_splice {contents bytes : List UInt8} {offset : Nat}
    (inside : offset + bytes.length ≤ contents.length) :
    Endian.slice (splice contents offset bytes) offset bytes.length = bytes := by
  apply List.ext_getElem?
  intro index
  rw [Endian.slice, List.getElem?_take, List.getElem?_drop, getElem?_splice inside]
  split
  · rw [if_pos (by omega), Nat.add_sub_cancel_left]
  · rw [List.getElem?_eq_none (by omega)]

/-- A patch that is made changes what it covers and leaves its field there. -/
theorem make?_eq_some {patch : Patch} {contents after : List UInt8} {offset : Nat}
    (made : patch.make? contents offset = some after) :
    (patch.width = 0 ∨ offset + patch.width ≤ contents.length) ∧
      after.length = contents.length ∧
      (∀ index, ¬(offset ≤ index ∧ index < offset + patch.width) →
        after[index]? = contents[index]?) ∧
      Endian.slice after offset patch.width = patch.replacement contents offset := by
  have width := length_replacement patch contents offset
  have general (made : (if offset + patch.width ≤ contents.length then
        some (splice contents offset (patch.replacement contents offset)) else none) =
          some after) :
      (patch.width = 0 ∨ offset + patch.width ≤ contents.length) ∧
        after.length = contents.length ∧
        (∀ index, ¬(offset ≤ index ∧ index < offset + patch.width) →
          after[index]? = contents[index]?) ∧
        Endian.slice after offset patch.width = patch.replacement contents offset := by
    split at made
    · next inside =>
        have spliced := Option.some.inj made
        have inside' : offset + (patch.replacement contents offset).length ≤ contents.length := by
          rw [width]
          exact inside
        refine ⟨Or.inr inside, ?_, ?_, ?_⟩
        · rw [← spliced, length_splice inside']
        · intro index outside
          rw [← spliced, getElem?_splice inside', width, if_neg outside]
        · have same := slice_splice inside'
          rw [width, spliced] at same
          exact same
    · cases made
  cases patch with
  | keep =>
      cases made
      exact ⟨Or.inl rfl, rfl, fun _ _ => rfl, by simp [Endian.slice, Patch.width, replacement]⟩
  | store bytes => exact general made
  | edit change => exact general made
  | editPair first second => exact general made

/-- Ranges that read the same hold the same bytes. -/
theorem getElem?_of_slice_eq {first second : List UInt8} {offset count index : Nat}
    (same : Endian.slice first offset count = Endian.slice second offset count)
    (lower : offset ≤ index) (upper : index < offset + count) : first[index]? = second[index]? := by
  have byte := congrArg (·[index - offset]?) same
  simp only [Endian.slice, List.getElem?_take, List.getElem?_drop,
    if_pos (show index - offset < count by omega), Nat.add_sub_cancel' lower] at byte
  exact byte

/-- What a patch puts at its place depends on what it finds there only. -/
theorem replacement_congr (patch : Patch) {first second : List UInt8} {offset : Nat}
    (same : Endian.slice first offset patch.width = Endian.slice second offset patch.width) :
    patch.replacement first offset = patch.replacement second offset := by
  cases patch with
  | keep => rfl
  | store bytes => rfl
  | edit change =>
      simp only [width] at same
      simp only [replacement, instructionAt, same]
  | editPair change change' =>
      have front := congrArg (List.take 4) same
      have back := congrArg (List.drop 4) same
      simp only [width, Endian.take_slice _ _ (show 4 ≤ 8 by decide)] at front
      simp only [width, Endian.drop_slice] at back
      simp only [replacement, instructionAt, front, back]

/-- Whether a patch lies inside a section depends on the section's length only. -/
theorem make?_eq_none_congr (patch : Patch) {first second : List UInt8} (offset : Nat)
    (same : first.length = second.length) :
    patch.make? first offset = none ↔ patch.make? second offset = none := by
  cases patch <;> simp only [make?, same, ite_eq_right_iff, reduceCtorEq]

/-- A patch that is made again changes nothing. -/
theorem make?_again {patch : Patch} {field : Field} (realizes : patch.Realizes field)
    (size : field.size = patch.width) {contents after : List UInt8} {offset : Nat}
    (made : patch.make? contents offset = some after) : patch.make? after offset = some after := by
  rcases make?_eq_some made with ⟨-, length, -, left⟩
  have inside : patch.make? after offset ≠ none := by
    rw [Ne, patch.make?_eq_none_congr offset length, made]
    simp
  rcases Option.ne_none_iff_exists'.mp inside with ⟨later, again⟩
  rcases make?_eq_some again with ⟨-, -, outside, left'⟩
  have settled : Endian.slice later offset patch.width = Endian.slice after offset patch.width := by
    rw [left', left]
    have here := realizes contents offset
    have there := realizes after offset
    rw [left] at there
    exact here.again there (by rw [length_replacement, size]) (by rw [length_replacement, size])
  rw [again, Option.some.injEq]
  apply List.ext_getElem?
  intro index
  by_cases covered : offset ≤ index ∧ index < offset + patch.width
  · exact getElem?_of_slice_eq settled covered.1 covered.2
  · exact outside index covered

/-- A patch that covers other bytes leaves a patch the same bytes to find. -/
theorem slice_of_make? {patch : Patch} {contents after : List UInt8} {offset : Nat}
    (made : patch.make? contents offset = some after) {offset' count : Nat}
    (apart : ∀ index, offset ≤ index ∧ index < offset + patch.width →
      ¬(offset' ≤ index ∧ index < offset' + count)) :
    Endian.slice after offset' count = Endian.slice contents offset' count :=
  slice_congr fun index lower upper =>
    (make?_eq_some made).2.2.1 index fun covered => apart index covered ⟨lower, upper⟩

/-- A patch leaves the same bytes at its place before and after a patch of other bytes. -/
theorem slice_of_make?_after {first second : Patch} {contents back front both : List UInt8}
    {offset offset' : Nat} (alone : first.make? contents offset = some front)
    (other : second.make? contents offset' = some back)
    (after : first.make? back offset = some both)
    (apart : ∀ index, offset' ≤ index ∧ index < offset' + second.width →
      ¬(offset ≤ index ∧ index < offset + first.width)) :
    Endian.slice both offset first.width = Endian.slice front offset first.width := by
  rw [(make?_eq_some after).2.2.2, (make?_eq_some alone).2.2.2]
  exact replacement_congr _ (slice_of_make? other apart)

/-- Patches of different bytes can be made in either order. -/
theorem bind_make?_comm {first second : Patch} {contents : List UInt8} {offset offset' : Nat}
    (apart : ∀ index, offset ≤ index ∧ index < offset + first.width →
      ¬(offset' ≤ index ∧ index < offset' + second.width)) :
    (first.make? contents offset).bind (second.make? · offset') =
      (second.make? contents offset').bind (first.make? · offset) := by
  have apart' : ∀ index, offset' ≤ index ∧ index < offset' + second.width →
      ¬(offset ≤ index ∧ index < offset + first.width) :=
    fun index covered covered' => apart index covered' covered
  cases one : first.make? contents offset with
  | none =>
      cases two : second.make? contents offset' with
      | none => rfl
      | some after =>
          exact ((first.make?_eq_none_congr offset (make?_eq_some two).2.1).mpr one).symm
  | some front =>
      have length := (make?_eq_some one).2.1
      cases two : second.make? contents offset' with
      | none => exact (second.make?_eq_none_congr offset' length).mpr two
      | some back =>
          have length' := (make?_eq_some two).2.1
          have beyond : second.make? front offset' ≠ none := by
            rw [Ne, second.make?_eq_none_congr offset' length, two]
            simp
          have beyond' : first.make? back offset ≠ none := by
            rw [Ne, first.make?_eq_none_congr offset length', one]
            simp
          rcases Option.ne_none_iff_exists'.mp beyond with ⟨both, three⟩
          rcases Option.ne_none_iff_exists'.mp beyond' with ⟨both', four⟩
          rw [Option.bind_some, Option.bind_some, three, four, Option.some.injEq]
          have there := slice_of_make?_after two one three apart
          have here := slice_of_make?_after one two four apart'
          have kept := (make?_eq_some one).2.2.1
          have kept' := (make?_eq_some two).2.2.1
          have keeps := (make?_eq_some three).2.2.1
          have keeps' := (make?_eq_some four).2.2.1
          apply List.ext_getElem?
          intro index
          by_cases inFirst : offset ≤ index ∧ index < offset + first.width
          · rw [keeps index (apart index inFirst)]
            exact (getElem?_of_slice_eq here inFirst.1 inFirst.2).symm
          · rw [keeps' index inFirst]
            by_cases inSecond : offset' ≤ index ∧ index < offset' + second.width
            · exact getElem?_of_slice_eq there inSecond.1 inSecond.2
            · rw [keeps index inSecond, kept index inFirst, kept' index inSecond]

end Patch

/-! ## Applying one fixup -/

/-- The byte at an index is one that the fixup covers. -/
def Covers (machine : Machine) (fixup : Fixup) (index : Nat) : Prop :=
  fixup.offset ≤ index ∧ index < fixup.offset + kindWidth machine fixup.kind

/-- The place of a fixup holds what its type prescribes. -/
def Applied (machine : Machine) (linkage : Linkage) (original contents : List UInt8)
    (fixup : Fixup) : Prop :=
  ∃ form field, StandsFor machine fixup.kind form ∧
    (form.width = 0 ∨ fixup.offset + form.width ≤ original.length) ∧
    Prescribes linkage.Leads linkage.Upper fixup.symbol fixup.addend fixup.place form field ∧
    field.Holds (Endian.slice original fixup.offset form.width)
      (Endian.slice contents fixup.offset form.width)

theorem Applied.mono {machine : Machine} {linkage after : Linkage}
    {original contents : List UInt8} {fixup : Fixup} (extension : linkage.Extends after)
    (applied : fixup.Applied machine linkage original contents) :
    fixup.Applied machine after original contents := by
  rcases applied with ⟨form, field, known, inside, prescribes, holds⟩
  exact ⟨form, field, known, inside, prescribes.mono extension.leads extension.upper, holds⟩

/-- The field of a fixup whose form is known. -/
theorem Applied.of_form {machine : Machine} {linkage : Linkage} {original contents : List UInt8}
    {fixup : Fixup} {form : Form} (known : Form.ofKind? machine fixup.kind = some form)
    (applied : fixup.Applied machine linkage original contents) :
    ∃ field, (form.width = 0 ∨ fixup.offset + form.width ≤ original.length) ∧
      Prescribes linkage.Leads linkage.Upper fixup.symbol fixup.addend fixup.place form field ∧
      field.Holds (Endian.slice original fixup.offset form.width)
        (Endian.slice contents fixup.offset form.width) := by
  rcases applied with ⟨form', field, stands, inside, prescribes, holds⟩
  have known' := standsFor_iff.mp stands
  rw [known] at known'
  rcases Option.some.inj known'
  exact ⟨field, inside, prescribes, holds⟩

/-- A fixup is applied as far as it finds and leaves the bytes it covers. -/
theorem Applied.congr {machine : Machine} {linkage : Linkage}
    {original original' contents contents' : List UInt8} {fixup : Fixup}
    (length : original'.length = original.length)
    (found : ∀ index, Covers machine fixup index → original'[index]? = original[index]?)
    (left : ∀ index, Covers machine fixup index → contents'[index]? = contents[index]?)
    (applied : fixup.Applied machine linkage original contents) :
    fixup.Applied machine linkage original' contents' := by
  rcases applied with ⟨form, field, known, inside, prescribes, holds⟩
  have covers (index : Nat) (lower : fixup.offset ≤ index)
      (upper : index < fixup.offset + form.width) : Covers machine fixup index :=
    ⟨lower, kindWidth_of_form (standsFor_iff.mp known) ▸ upper⟩
  refine ⟨form, field, known, length ▸ inside, prescribes, ?_⟩
  rw [Patch.slice_congr fun index lower upper => found index (covers index lower upper),
    Patch.slice_congr fun index lower upper => left index (covers index lower upper)]
  exact holds

/-- The upper half that a fixup writes. -/
def Wrote (machine : Machine) (fixup : Fixup) (place value : Word) : Prop :=
  StandsFor machine fixup.kind .relativeHigh20 ∧ place = fixup.place ∧
    value = fixup.symbol + fixup.addend - fixup.place

/-- A fixup is applied by making the patch that is planned for its form. -/
theorem made_of_apply {fixup : Fixup} {machine : Machine} {linkage after : Linkage}
    {contents contents' : List UInt8}
    (applied : fixup.apply machine linkage contents = (after, .ok contents')) :
    ∃ form planned patch, Form.ofKind? machine fixup.kind = some form ∧
      fixup.plan linkage form = (planned, .ok patch) ∧
      patch.make? contents fixup.offset = some contents' ∧ after = fixup.note planned form := by
  unfold apply at applied
  split at applied
  · simp at applied
  · next form known =>
      split at applied
      · simp at applied
      · next planned patch plans =>
          split at applied
          · simp at applied
          · next made =>
              simp only [Prod.mk.injEq, Except.ok.injEq] at applied
              rcases applied with ⟨rfl, rfl⟩
              exact ⟨form, planned, patch, known, plans, made, rfl⟩

/-- The patch of a fixup whose form is known. -/
theorem made_of_form {fixup : Fixup} {machine : Machine} {linkage after : Linkage}
    {contents contents' : List UInt8} {form : Form}
    (known : Form.ofKind? machine fixup.kind = some form)
    (applied : fixup.apply machine linkage contents = (after, .ok contents')) :
    ∃ planned patch, fixup.plan linkage form = (planned, .ok patch) ∧
      patch.make? contents fixup.offset = some contents' ∧ after = fixup.note planned form := by
  rcases made_of_apply applied with ⟨form', planned, patch, known', plans, made, noted⟩
  rw [known] at known'
  rcases Option.some.inj known'
  exact ⟨planned, patch, plans, made, noted⟩

theorem upper_of_note {fixup : Fixup} {machine : Machine} {linkage : Linkage} {form : Form}
    (known : Form.ofKind? machine fixup.kind = some form) {place value : Word}
    (written : (fixup.note linkage form).Upper place value) :
    linkage.Upper place value ∨ fixup.Wrote machine place value := by
  cases form with
  | relativeHigh20 =>
      rcases List.mem_cons.mp written with same | older
      · simp only [Prod.mk.injEq] at same
        exact Or.inr ⟨standsFor_iff.mpr known, same.1, same.2⟩
      · exact Or.inl older
  | _ => exact Or.inl written

theorem apply_eq_ok {fixup : Fixup} {machine : Machine} {linkage after : Linkage}
    {contents contents' : List UInt8}
    (applied : fixup.apply machine linkage contents = (after, .ok contents')) :
    contents'.length = contents.length ∧
      (∀ index, ¬Covers machine fixup index → contents'[index]? = contents[index]?) ∧
      fixup.Applied machine after contents contents' ∧
      ∀ place value, after.Upper place value →
        linkage.Upper place value ∨ fixup.Wrote machine place value := by
  rcases made_of_apply applied with ⟨form, planned, patch, known, plans, made, rfl⟩
  rcases prescribes_of_plan plans with ⟨width, field, realizes, prescribes⟩
  rcases Patch.make?_eq_some made with ⟨inside, length, outside, left⟩
  rw [width] at inside outside left
  have noted := extends_note fixup planned form
  have kept := (asks_plan fixup linkage form).upperHalves_eq
  rw [plans] at kept
  refine ⟨length, ?_, ?_, ?_⟩
  · intro index uncovered
    rw [Covers, kindWidth_of_form known] at uncovered
    exact outside index uncovered
  · have holds := realizes contents fixup.offset
    rw [width, ← left] at holds
    exact ⟨form, field, standsFor_iff.mpr known, inside,
      prescribes.mono noted.leads noted.upper, holds⟩
  · intro place value written
    have here := upper_of_note known written
    rw [Linkage.Upper, kept] at here
    exact here

/-! ## Applying the fixups of a section -/

/-- No byte is covered by both fixups. -/
def Separate (machine : Machine) (first second : Fixup) : Prop :=
  ∀ index, ¬(Covers machine first index ∧ Covers machine second index)

/-- One fixup ends where the other begins, or before. -/
theorem separate_of_le {machine : Machine} {first second : Fixup}
    (behind : first.offset + kindWidth machine first.kind ≤ second.offset) :
    Separate machine first second :=
  fun _ both => Nat.lt_irrefl _
    (Nat.lt_of_lt_of_le both.1.2 (Nat.le_trans behind both.2.1))

/-- The contents of a section after some fixups have been applied. -/
structure Patched (machine : Machine) (linkage : Linkage) (original contents : List UInt8)
    (done : List Fixup) : Prop where
  length_eq : contents.length = original.length
  untouched : ∀ index, (∀ fixup ∈ done, ¬Covers machine fixup index) →
    contents[index]? = original[index]?
  applied : ∀ fixup ∈ done, fixup.Applied machine linkage original contents

variable {machine : Machine} {linkage after : Linkage} {original contents contents' : List UInt8}
variable {done : List Fixup}

theorem patched_start (linkage : Linkage) (original : List UInt8) :
    Patched machine linkage original original [] :=
  ⟨rfl, fun _ _ => rfl, fun _ listed => absurd listed List.not_mem_nil⟩

theorem Patched.mono (patched : Patched machine linkage original contents done)
    (extension : linkage.Extends after) : Patched machine after original contents done :=
  ⟨patched.length_eq, patched.untouched,
    fun fixup listed => (patched.applied fixup listed).mono extension⟩

/-- One more fixup, separate from those before it. -/
theorem Patched.step {fixup : Fixup} (patched : Patched machine linkage original contents done)
    (separate : ∀ other ∈ done, Separate machine other fixup)
    (applied : fixup.apply machine linkage contents = (after, .ok contents')) :
    Patched machine after original contents' (done ++ [fixup]) := by
  have extension := extends_apply fixup machine linkage contents
  rw [applied] at extension
  rcases apply_eq_ok applied with ⟨length, outside, here, _⟩
  refine ⟨length.trans patched.length_eq, ?_, ?_⟩
  · intro index uncovered
    rw [outside index (uncovered fixup (by simp))]
    exact patched.untouched index fun other listed => uncovered other (by simp [listed])
  · intro other listed
    rcases List.mem_append.mp listed with earlier | last
    · have before := (patched.applied other earlier).mono extension
      refine before.congr rfl (fun _ _ => rfl) fun index covered => ?_
      exact outside index fun both => separate other earlier index ⟨covered, both⟩
    · rcases List.mem_singleton.mp last
      refine here.congr patched.length_eq.symm (fun index covered => ?_) fun _ _ => rfl
      exact (patched.untouched index fun other earlier both =>
        separate other earlier index ⟨both, covered⟩).symm

theorem step_eq_ok {fixup : Fixup} {patching result : Patching}
    (step : patching.step machine fixup = (result, .ok ())) :
    fixup.apply machine patching.linkage patching.contents =
      (result.linkage, .ok result.contents) := by
  unfold Patching.step at step
  simp only at step
  split at step
  · next linkage' contents' applied =>
      simp only [Prod.mk.injEq, and_true] at step
      rw [applied, ← step]
  · simp at step

theorem step_eq_error {fixup : Fixup} {patching result : Patching} {error : FixupError}
    (step : patching.step machine fixup = (result, .error error)) :
    fixup.apply machine patching.linkage patching.contents = (result.linkage, .error error) ∧
      result.contents = patching.contents := by
  unfold Patching.step at step
  simp only at step
  split at step
  · simp at step
  · next linkage' reason failed =>
      simp only [Prod.mk.injEq, Except.error.injEq] at step
      rcases step with ⟨rfl, rfl⟩
      exact ⟨failed, rfl⟩

/-- A step does what applying the fixup does. -/
theorem step_of_apply_ok {fixup : Fixup} {patching : Patching}
    (applied : fixup.apply machine patching.linkage patching.contents = (after, .ok contents')) :
    ∃ next, patching.step machine fixup = (next, .ok ()) ∧ next.linkage = after ∧
      next.contents = contents' := by
  simp only [Patching.step, applied]
  exact ⟨_, rfl, rfl, rfl⟩

theorem step_of_apply_error {fixup : Fixup} {patching : Patching} {error : FixupError}
    (failed : fixup.apply machine patching.linkage patching.contents = (after, .error error)) :
    ∃ next, patching.step machine fixup = (next, .error error) ∧ next.linkage = after ∧
      next.contents = patching.contents := by
  simp only [Patching.step, failed]
  exact ⟨_, rfl, rfl, rfl⟩

/-- All fixups of a run, behind those applied before. -/
theorem Patched.run {fixups : List Fixup} {patching result : Patching}
    (patched : Patched machine patching.linkage original patching.contents done)
    (separate : (done ++ fixups).Pairwise (Separate machine))
    (ran : Stepwise.forList (Patching.step machine) patching fixups = (result, .ok ())) :
    Patched machine result.linkage original result.contents (done ++ fixups) := by
  refine Stepwise.forList_ok
    (motive := fun now state =>
      Patched machine state.linkage original state.contents (done ++ now)) ?_ ?_ ran
  · intro now fixup rest state next split here step
    have others : ∀ other ∈ done ++ now, Separate machine other fixup := by
      rw [split, ← List.append_assoc] at separate
      intro other listed
      exact (List.pairwise_append.mp separate).2.2 other listed fixup List.mem_cons_self
    rw [← List.append_assoc]
    exact here.step others (step_eq_ok step)
  · rw [List.append_nil]
    exact patched

/-- Every upper half that is noted in a run was noted before or written by a fixup. -/
theorem upper_of_run {fixups : List Fixup} {patching result : Patching}
    (ran : Stepwise.forList (Patching.step machine) patching fixups = (result, .ok ()))
    (place value : Word) (written : result.linkage.Upper place value) :
    patching.linkage.Upper place value ∨ ∃ fixup ∈ fixups, fixup.Wrote machine place value := by
  have whole := Stepwise.forList_ok
    (motive := fun now state => ∀ place value, state.linkage.Upper place value →
      patching.linkage.Upper place value ∨ ∃ fixup ∈ now, fixup.Wrote machine place value)
    (by
      intro now fixup rest state next split here step place value written
      rcases (apply_eq_ok (step_eq_ok step)).2.2.2 place value written with earlier | wrote
      · rcases here place value earlier with first | ⟨other, listed, wrote⟩
        · exact Or.inl first
        · exact Or.inr ⟨other, List.mem_append_left _ listed, wrote⟩
      · exact Or.inr ⟨fixup, by simp, wrote⟩)
    (fun place value written => Or.inl written) ran
  exact whole place value written

/-- A run keeps the length of the contents. -/
theorem length_of_run {fixups : List Fixup} {patching result : Patching}
    (ran : Stepwise.forList (Patching.step machine) patching fixups = (result, .ok ())) :
    result.contents.length = patching.contents.length := by
  refine Stepwise.forList_ok
    (motive := fun _ state => state.contents.length = patching.contents.length) ?_ rfl ran
  intro now fixup rest state next split here step
  exact (apply_eq_ok (step_eq_ok step)).1.trans here

end Fixup
end ModuleHost
