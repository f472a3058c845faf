import ModuleHost.Proofs.Fixup.InPlace

namespace ModuleHost
namespace Fixup

/-!
# Fixups as transactions

A fixup that changes its section where it is does so as a whole or not at all.  What can go wrong
is found out before the first byte is written: when it fails, the section and the upper halves
are as before.  When it succeeds, it has changed the bytes that it covers and no others, and what
it has left there is what it would leave there again.  In either case the page of stubs gains at
most one stub.  A run of fixups is no such transaction: it keeps what was done in front of the
fixup that fails.

A fixup that covers nothing does not look at the section, so it succeeds at any offset.
-/

variable {fixup : Fixup} {machine : Machine} {linkage after planned : Linkage}
variable {contents contents' : List UInt8} {form : Form} {patch : Patch}

/-! ## Applying a fixup again -/

/-- A call that went through a stub finds the stub again; one that did not needs none. -/
theorem route_again {later : Linkage} {destination bias value : Word} {fits : Word → Bool}
    (routed : fixup.route linkage destination bias fits = (planned, .ok value))
    (same : later.stubs = planned.stubs) :
    fixup.route later destination bias fits = (later, .ok value) := by
  unfold route at routed ⊢
  simp only at routed ⊢
  split at routed
  · next near =>
      simp only [Prod.mk.injEq, Except.ok.injEq] at routed
      rw [if_pos near, routed.2]
  · next far =>
      rw [if_neg far]
      split at routed
      · simp at routed
      · next linkage' stub made =>
          split at routed
          · next reaching =>
              simp only [Prod.mk.injEq, Except.ok.injEq] at routed
              rcases routed with ⟨rfl, rfl⟩
              simp only [Linkage.stubFor_again made same, if_pos reaching]
          · simp at routed

/-- Once the patch of a form has been made, the same patch is planned. -/
theorem plan_again (plans : fixup.plan linkage form = (planned, .ok patch)) :
    fixup.plan (fixup.note planned form) form = (fixup.note planned form, .ok patch) := by
  cases form with
  | call32 =>
      rcases map_route_eq_ok plans with ⟨value, routed, rfl⟩
      simp only [plan, note, route_again routed rfl]
      rfl
  | branch26 =>
      rcases map_route_eq_ok plans with ⟨value, routed, rfl⟩
      simp only [plan, note, route_again routed rfl]
      rfl
  | callPair =>
      simp only [plan] at plans
      rcases map_route_eq_ok plans with ⟨value, routed, rfl⟩
      simp only [plan, note, route_again routed rfl]
      rfl
  | relativeLow12 layout =>
      -- A lower half notes nothing, so its upper half is still the newest at that place.
      simp only [plan] at plans
      split at plans
      · cases plans
      · next value paired =>
          cases plans
          simp only [plan, note, paired]
  | _ =>
      simp only [plan, Prod.mk.injEq, true_and] at plans ⊢
      exact plans.2

/-- A fixup that has been applied can be applied again, and that changes neither the section nor
the stubs. -/
theorem apply_again (applied : fixup.apply machine linkage contents = (after, .ok contents')) :
    ∃ later, fixup.apply machine after contents' = (later, .ok contents') ∧
      later.stubs = after.stubs := by
  rcases made_of_apply applied with ⟨form, planned, patch, known, plans, made, rfl⟩
  rcases prescribes_of_plan plans with ⟨width, field, realizes, prescribes⟩
  have remade := Patch.make?_again realizes (prescribes.size_eq.trans width.symm) made
  refine ⟨fixup.note (fixup.note planned form) form, ?_, stubs_note _ _ _⟩
  simp only [apply, known, plan_again plans, remade]

/-! ## One stub at most -/

section Pages

variable {stubMachine : Machine} {base : Address} {before : Memory}
variable {site after : Site stubMachine base}

/-- The stubs there were, where and what they were, and at most one more. -/
inductive Keeps : Option (StubPage stubMachine base) → Option (StubPage stubMachine base) → Prop
  | absent : Keeps none none
  | grown (page after : StubPage stubMachine base) (added : List (Word × Address))
      (few : added.length ≤ 1) (entries : after.entries = page.entries ++ added)
      (stubs : ∀ target address, (target, address) ∈ page.entries →
        page.memory.read address (stubSize stubMachine) = stubBytes stubMachine target ∧
        after.memory.read address (stubSize stubMachine) = stubBytes stubMachine target)
      (elsewhere : ∀ address,
        (∀ entry ∈ added, ¬(Range.mk entry.2 (stubSize stubMachine)).Has address) →
          after.memory.byteAt address = page.memory.byteAt address) :
      Keeps (some page) (some after)

theorem StubPage.Sound.read_of_mem {page : StubPage stubMachine base}
    (sound : page.Sound before) {target : Word} {address : Address}
    (known : (target, address) ∈ page.entries) :
    page.memory.read address (stubSize stubMachine) = stubBytes stubMachine target := by
  rcases List.getElem?_of_mem known with ⟨index, found⟩
  exact sound.read_stub found

theorem Keeps.refl {stubs : Option (StubPage stubMachine base)}
    (sound : ∀ page, stubs = some page → page.Sound before) : Keeps stubs stubs := by
  cases stubs with
  | none => exact .absent
  | some page =>
      exact .grown page page [] (Nat.zero_le 1) (List.append_nil _).symm
        (fun _ _ known => ⟨(sound page rfl).read_of_mem known, (sound page rfl).read_of_mem known⟩)
        fun _ _ => rfl

theorem keeps_ask {page : StubPage stubMachine base} (sound : page.Sound before)
    (target : Word) : Keeps (some page) (some (page.ask target).1) := by
  have refl : Keeps (some page) (some page) :=
    Keeps.refl fun _ same => Option.some.inj same ▸ sound
  have answers := page.answers_ask target
  generalize page.ask target = answer at answers
  cases answers with
  | found known => exact refl
  | refused new full => exact refl
  | added new room =>
      have later := sound.withStub new room
      refine .grown page _ [(target, _)] (Nat.le_refl 1) rfl (fun other address known =>
        ⟨sound.read_of_mem known, later.read_of_mem (List.mem_append_left _ known)⟩) ?_
      intro address outside
      rw [StubPage.withStub, Memory.byteAt_write, length_stubBytes, if_neg]
      intro within
      refine outside _ List.mem_cons_self ⟨within.1, ?_⟩
      have size := within.2
      lia

theorem Site.Asks.keeps (asks : site.Asks after) (sound : site.Sound before) :
    Keeps site.stubs after.stubs := by
  rcases asks with same | ⟨page, target, found, asked⟩
  · rw [same]
    exact Keeps.refl sound
  · rw [found, asked]
    exact keeps_ask (sound page found) target

/-- A page that has no new target is as before. -/
theorem StubPage.ask_of_table {page : StubPage stubMachine base} {target : Word}
    (same : (page.ask target).1.table = page.table) : (page.ask target).1 = page := by
  have answers := page.answers_ask target
  generalize page.ask target = answer at answers same
  cases answers with
  | found known => rfl
  | refused new full => rfl
  | added new room =>
      have targets := congrArg (·.targets.length) same
      simp only [table, targets_withStub, List.length_append, List.length_singleton] at targets
      omega

theorem Site.Asks.stubs_eq (asks : site.Asks after)
    (same : after.linkage.stubs = site.linkage.stubs) : after.stubs = site.stubs := by
  rcases asks with same | ⟨page, target, found, asked⟩
  · exact same
  · simp only [Site.linkage, found, asked, Option.map_some, Option.some.injEq] at same
    rw [asked, found, StubPage.ask_of_table same]

end Pages

/-! ## Outcomes -/

theorem width_of_form (form : Form) : form.width = 0 ∨ form.width = 4 ∨ form.width = 8 := by
  cases form <;> simp [Form.width]

section Outcomes

open Program

variable {stubMachine : Machine} {base : Address} {before : Memory}
variable {site result : Site stubMachine base}

/-- What is left of a site by a fixup that fails. -/
structure Refused (machine : Machine) (fixup : Fixup) (error : FixupError)
    (site result : Site stubMachine base) : Prop where
  reason : Fails fixup machine site.linkage site.contents result.linkage error
  contents : result.contents = site.contents
  upperHalves : result.upperHalves = site.upperHalves

/-- What a fixup that succeeds makes of a site. -/
structure Settled (machine : Machine) (fixup : Fixup) (site result : Site stubMachine base) :
    Prop where
  width : kindWidth machine fixup.kind = 0 ∨ kindWidth machine fixup.kind = 4 ∨
    kindWidth machine fixup.kind = 8
  /-- The bytes that are covered, if there are any, lie inside the section. -/
  inside : 0 < kindWidth machine fixup.kind →
    fixup.offset + kindWidth machine fixup.kind ≤ site.contents.length
  length : result.contents.length = site.contents.length
  outside : ∀ index, ¬Covers machine fixup index →
    result.contents[index]? = site.contents[index]?
  applied : fixup.Applied machine result.linkage site.contents result.contents
  /-- Applied again, the fixup succeeds and finds everything in its place. -/
  again : ∃ later, exec (InPlace.apply machine fixup) result = (.ok (), later) ∧
    later.contents = result.contents ∧ later.stubs = result.stubs

theorem refused_of_exec (sound : site.Sound before) {error : FixupError}
    (ran : exec (InPlace.apply machine fixup) site = (.error error, result)) :
    Refused machine fixup error site result := by
  have mirrors := mirrors_of_exec sound ran
  exact ⟨fails_of_apply mirrors.applied, mirrors.contents error rfl,
    upperHalves_of_error mirrors.applied⟩

theorem settled_of_exec (sound : site.Sound before)
    (ran : exec (InPlace.apply machine fixup) site = (.ok (), result)) :
    Settled machine fixup site result := by
  have mirrors := mirrors_of_exec sound ran
  have applied : fixup.apply machine site.linkage site.contents =
      (result.linkage, .ok result.contents) := mirrors.applied
  rcases apply_eq_ok applied with ⟨length, outside, held, -⟩
  have ⟨form, _, stands, inside, _⟩ := held
  have width := kindWidth_of_form (standsFor_iff.mp stands)
  refine ⟨?_, ?_, length, outside, held, ?_⟩
  · rw [width]
    exact width_of_form form
  · rw [width]
    exact fun covering => inside.resolve_left (Nat.ne_of_gt covering)
  · rcases apply_again applied with ⟨linkage, remade, same⟩
    rcases rerun : exec (InPlace.apply machine fixup) result with ⟨outcome, later⟩
    have mirrors' := mirrors_of_exec (sound.asks mirrors.asks) rerun
    have settles := mirrors'.applied.symm.trans remade
    cases outcome with
    | error error => simp [Except.map] at settles
    | ok done =>
        simp only [Except.map, Prod.mk.injEq, Except.ok.injEq] at settles
        exact ⟨later, rfl, settles.2, mirrors'.asks.stubs_eq (settles.1 ▸ same)⟩

/-- A fixup that changes its section where it is does what the function says.  One that fails
leaves the section and the upper halves as they were.  One that succeeds leaves its field in the
bytes it covers, which are none, four or eight by its kind and lie inside the section, and
changes no others; applied again, it changes neither the section nor the stubs.  Stubs that were
made before stay what and where they were, and at most one is added. -/
theorem apply_fails_whole_or_settles (sound : site.Sound before)
    {outcome : Except FixupError Unit}
    (ran : exec (InPlace.apply machine fixup) site = (outcome, result)) :
    fixup.apply machine site.linkage site.contents =
        (result.linkage, outcome.map fun _ => result.contents) ∧
      (∀ error, outcome = .error error → Refused machine fixup error site result) ∧
      (outcome = .ok () → Settled machine fixup site result) ∧
      Keeps site.stubs result.stubs := by
  have mirrors := mirrors_of_exec sound ran
  refine ⟨mirrors.applied, ?_, ?_, mirrors.asks.keeps sound⟩
  · rintro error rfl
    exact refused_of_exec sound ran
  · rintro rfl
    exact settled_of_exec sound ran

/-- A call by way of a stub, and a call of which only the first instruction is there. -/
theorem apply_fails_whole_or_settles_calls :
    let far : Fixup :=
      { kind := 4, offset := 1, place := 0x1001, symbol := 0x7f0000000000, addend := -4 }
    let cut : Fixup := { kind := 18, offset := 0, place := 0x1000, symbol := 0x2000, addend := 0 }
    let call : Site .x86_64 0x10000 :=
      { stubs := some { memory := .filled 0 }, contents := 0xe8 :: List.replicate 4 0 }
    let half : Site .riscv 0x10000 := { contents := Endian.bytes 4 0x00000097 }
    (∃ after, exec (InPlace.apply .x86_64 far) call = (.ok (), after) ∧
      Settled .x86_64 far call after ∧ Keeps call.stubs after.stubs) ∧
    ∃ after, exec (InPlace.apply .riscv cut) half = (.error (.outOfBounds 0), after) ∧
      Refused .riscv cut (.outOfBounds 0) half after := by
  intro far cut call half
  have reached : (exec (InPlace.apply .x86_64 far) call).1 = .ok () := by
    decide +kernel
  have beyond : (exec (InPlace.apply .riscv cut) half).1 = .error (.outOfBounds 0) := by
    decide +kernel
  have sound : call.Sound (.filled 0) :=
    fun page same => Option.some.inj same ▸ StubPage.sound_empty _
  have sound' : half.Sound (.filled 0) := nofun
  have succeeds : exec (InPlace.apply .x86_64 far) call =
      (.ok (), (exec (InPlace.apply .x86_64 far) call).2) := by
    rw [← reached]
  have fails : exec (InPlace.apply .riscv cut) half =
      (.error (.outOfBounds 0), (exec (InPlace.apply .riscv cut) half).2) := by
    rw [← beyond]
  have settled := apply_fails_whole_or_settles sound succeeds
  have refused := apply_fails_whole_or_settles sound' fails
  exact ⟨⟨_, succeeds, settled.2.2.1 rfl, settled.2.2.2⟩, _, fails, refused.2.1 _ rfl⟩

/-- A fixup without effect succeeds at an offset beyond the end of the section. -/
theorem nothing_succeeds_beyond_section :
    let fixup : Fixup := { kind := 0, offset := 64, place := 0x1000, symbol := 0, addend := 0 }
    let site : Site .x86_64 0x10000 := { contents := List.replicate 8 0 }
    (exec (InPlace.apply .x86_64 fixup) site).1 = .ok () ∧
      ¬fixup.offset + kindWidth .x86_64 fixup.kind ≤ site.contents.length := by
  decide

/-! ## Runs -/

/-- A run that fails leaves the section as it was in front of the fixup that fails. -/
theorem refused_of_applyAll (sound : site.Sound before) {fixups : List Fixup}
    {error : FixupError}
    (ran : exec (InPlace.applyAll machine fixups) site = (.error error, result)) :
    ∃ done fixup rest reached, fixups = done ++ fixup :: rest ∧
      exec (InPlace.applyAll machine done) site = (.ok (), reached) ∧
      Refused machine fixup error reached result := by
  induction fixups generalizing site with
  | nil => cases ran
  | cons fixup rest later =>
      rw [InPlace.applyAll, exec_bind] at ran
      rcases step : exec (InPlace.apply machine fixup) site with ⟨outcome, next⟩
      rw [step] at ran
      cases outcome with
      | error reason =>
          cases ran
          exact ⟨[], fixup, rest, site, rfl, rfl, refused_of_exec sound step⟩
      | ok done =>
          rcases later (sound.asks (mirrors_of_exec sound step).asks) ran with
            ⟨done, other, rest', reached, rfl, passed, refused⟩
          refine ⟨fixup :: done, other, rest', reached, rfl, ?_, refused⟩
          rw [InPlace.applyAll, exec_bind, step]
          exact passed

theorem untouched_of_exec (sound : site.Sound before) {index : Nat}
    (uncovered : ¬Covers machine fixup index) :
    (exec (InPlace.apply machine fixup) site).2.contents[index]? = site.contents[index]? := by
  rcases ran : exec (InPlace.apply machine fixup) site with ⟨outcome, result⟩
  cases outcome with
  | error error => rw [(refused_of_exec sound ran).contents]
  | ok done => exact (settled_of_exec sound ran).outside index uncovered

/-- Whether a run fails or not, bytes that none of its fixups covers are as before. -/
theorem untouched_of_applyAll (sound : site.Sound before) {fixups : List Fixup} {index : Nat}
    (uncovered : ∀ fixup ∈ fixups, ¬Covers machine fixup index) :
    (exec (InPlace.applyAll machine fixups) site).2.contents[index]? =
      site.contents[index]? := by
  induction fixups generalizing site with
  | nil => rfl
  | cons fixup rest later =>
      have here := untouched_of_exec sound (uncovered fixup List.mem_cons_self)
      rw [InPlace.applyAll, exec_bind]
      rcases step : exec (InPlace.apply machine fixup) site with ⟨outcome, next⟩
      rw [step] at here
      cases outcome with
      | error error => exact here
      | ok done =>
          exact (later (sound.asks (mirrors_of_exec sound step).asks)
            fun other listed => uncovered other (List.mem_cons_of_mem _ listed)).trans here

end Outcomes

end Fixup
end ModuleHost
