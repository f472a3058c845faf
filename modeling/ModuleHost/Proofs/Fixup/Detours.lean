import Mathlib.Data.List.Nodup
import ModuleHost.Proofs.Fixup.Calls
import ModuleHost.Proofs.Fixup.Outcome

namespace ModuleHost
namespace Fixup

/-!
# Calls that take a detour

The calls of the machines differ in where they go, in what is added to the displacement and in
the displacements that they span.  A call that does not span the way asks for a stub, and no
other fixup does.  So the stubs of a module lead to the destinations of such calls, each to
another one, and a call fails for want of a stub only when the page is full of them.

A stub that is asked for is of use if the call spans the way to it.  That is so when both lie in
one window of no more than 128 MiB.
-/

/-- Where a call goes, directly or by way of a stub.  On x86-64 the addend tells where the
instruction ends and is no part of it. -/
def destination (fixup : Fixup) : Machine → Word
  | .x86_64 => fixup.symbol
  | .aarch64 | .riscv => fixup.symbol + fixup.addend

/-- What is added to the displacement of a call. -/
def bias (fixup : Fixup) : Machine → Word
  | .x86_64 => fixup.addend
  | .aarch64 | .riscv => 0

/-- The check that is made of the displacement of a call. -/
def reach : Machine → Word → Bool
  | .x86_64 => fitsSigned 32
  | .aarch64 => fitsSigned 28
  | .riscv => fitsHighLow

theorem spans_iff_reach (machine : Machine) (displacement : Word) :
    Spans machine displacement ↔ reach machine displacement = true := by
  cases machine with
  | x86_64 => exact spans_x86_64_iff displacement
  | aarch64 => exact spans_aarch64_iff displacement
  | riscv => exact spans_riscv_iff displacement

/-- The fixup is a call to the target, and its instructions do not span the way. -/
structure Detours (fixup : Fixup) (machine : Machine) (target : Word) : Prop where
  call : isCall machine fixup.kind = true
  destination_eq : fixup.destination machine = target
  far : ¬Spans machine (target + fixup.bias machine - fixup.place)

variable {fixup : Fixup} {machine : Machine} {linkage : Linkage}

/-! ## Asking for stubs -/

/-- A call is planned by finding a route to its destination. -/
theorem plan_callForm (fixup : Fixup) (machine : Machine) (linkage : Linkage) :
    ∃ make : Word → Patch, fixup.plan linkage (callForm machine) =
      ((fixup.route linkage (fixup.destination machine) (fixup.bias machine) (reach machine)).1,
        (fixup.route linkage (fixup.destination machine) (fixup.bias machine)
          (reach machine)).2.map make) := by
  cases machine with
  | x86_64 => exact ⟨_, rfl⟩
  | aarch64 => exact ⟨_, rfl⟩
  | riscv =>
      simp only [callForm, plan]
      exact ⟨_, rfl⟩

theorem stubs_plan_of_not_call {form : Form} (other : form.isCall = false) :
    (fixup.plan linkage form).1.stubs = linkage.stubs := by
  cases form with
  | call32 | branch26 | callPair => cases other
  | relativeLow12 layout =>
      simp only [plan]
      split <;> rfl
  | _ => rfl

/-- The stubs after a fixup are those that its plan has left. -/
theorem stubs_apply_of_form {form : Form} (known : Form.ofKind? machine fixup.kind = some form)
    (contents : List UInt8) : (fixup.apply machine linkage contents).1.stubs =
      (fixup.plan linkage form).1.stubs := by
  simp only [apply, known]
  cases plans : fixup.plan linkage form with
  | mk planned result =>
      cases result with
      | error error => rfl
      | ok patch =>
          simp only
          split
          · rfl
          · exact stubs_note fixup planned form

/-- A fixup leaves the stubs as they are, or it takes a detour and has asked for its stub. -/
theorem stubs_apply (fixup : Fixup) (machine : Machine) (linkage : Linkage)
    (contents : List UInt8) :
    (fixup.apply machine linkage contents).1.stubs = linkage.stubs ∨
      ∃ target after stub, fixup.Detours machine target ∧
        linkage.stubFor target = .ok (after, stub) ∧
        (fixup.apply machine linkage contents).1.stubs = after.stubs := by
  cases known : Form.ofKind? machine fixup.kind with
  | none => exact .inl (by simp only [apply, known])
  | some form =>
      rw [stubs_apply_of_form known]
      cases call : form.isCall with
      | false => exact .inl (stubs_plan_of_not_call call)
      | true =>
          have calls : isCall machine fixup.kind = true := by rw [isCall, known]; exact call
          cases known.symm.trans (callForm_of_isCall calls)
          rcases plan_callForm fixup machine linkage with ⟨make, plans⟩
          rw [plans]
          rcases stubFor_of_route fixup linkage (fixup.destination machine) (fixup.bias machine)
            (reach machine) with same | ⟨far, stub, made⟩
          · exact .inl (congrArg Linkage.stubs same)
          · exact .inr ⟨_, _, stub, ⟨calls, rfl, by simp [spans_iff_reach, far]⟩, made, rfl⟩

/-! ## The stubs of a run -/

/-- The stubs lead to the destinations of calls among the fixups that take a detour, no two to
the same one. -/
structure StubTable.Serves (table : StubTable) (machine : Machine) (fixups : List Fixup) :
    Prop where
  fits : table.Fits
  nodup : table.targets.Nodup
  asked : ∀ target ∈ table.targets, ∃ fixup ∈ fixups, fixup.Detours machine target

/-- The stubs, if there are any, serve the fixups. -/
def Linkage.Serves (linkage : Linkage) (machine : Machine) (fixups : List Fixup) : Prop :=
  ∀ table, linkage.stubs = some table → table.Serves machine fixups

theorem StubTable.Serves.mono {table : StubTable} {fixups more : List Fixup}
    (serves : table.Serves machine fixups) (kept : ∀ fixup ∈ fixups, fixup ∈ more) :
    table.Serves machine more := by
  refine ⟨serves.fits, serves.nodup, fun target listed => ?_⟩
  rcases serves.asked target listed with ⟨fixup, member, detours⟩
  exact ⟨fixup, kept fixup member, detours⟩

/-- A stub that is new leads where none has led before. -/
theorem StubTable.Serves.stubFor {table after : StubTable} {fixups : List Fixup} {target : Word}
    {address : Address} (serves : table.Serves machine fixups)
    (made : table.stubFor target = .ok (after, address)) (detours : fixup.Detours machine target) :
    after.Serves machine (fixups ++ [fixup]) := by
  have serves' := serves.mono fun other listed => List.mem_append_left [fixup] listed
  rcases StubTable.stubFor_eq_ok made with ⟨_, _, rfl, _⟩ | ⟨absent, room, rfl, _⟩
  · exact serves'
  · refine ⟨StubTable.fits_withMore room, ?_, fun other listed => ?_⟩
    · refine serves.nodup.append (List.nodup_singleton _) ?_
      rw [List.disjoint_singleton]
      exact List.idxOf?_eq_none_iff.mp absent
    · rcases List.mem_append.mp listed with earlier | new
      · exact serves'.asked other earlier
      · rw [List.mem_singleton.mp new]
        exact ⟨fixup, by simp, detours⟩

theorem Linkage.Serves.apply {fixups : List Fixup} (serves : linkage.Serves machine fixups)
    (fixup : Fixup) (contents : List UInt8) :
    (fixup.apply machine linkage contents).1.Serves machine (fixups ++ [fixup]) := by
  intro table stubs
  rcases stubs_apply fixup machine linkage contents with
    same | ⟨target, after, stub, detours, made, same⟩
  · rw [same] at stubs
    exact (serves table stubs).mono fun other listed => List.mem_append_left _ listed
  · rcases Linkage.stubFor_eq_ok made with ⟨before, table', address, stubs', made', rfl, _⟩
    cases same.symm.trans stubs
    exact (serves before stubs').stubFor made' detours

/-- Whatever fixups are applied, the stubs serve them. -/
theorem Linkage.Serves.run {done fixups : List Fixup} {patching result : Patching}
    (serves : patching.linkage.Serves machine done)
    (ran : Stepwise.forList (Patching.step machine) patching fixups = (result, .ok ())) :
    result.linkage.Serves machine (done ++ fixups) := by
  refine Stepwise.forList_ok
    (motive := fun now state => state.linkage.Serves machine (done ++ now)) ?_ ?_ ran
  · intro now fixup rest state next split here step
    have after := here.apply fixup state.contents
    rw [step_eq_ok step, List.append_assoc] at after
    exact after
  · rw [List.append_nil]
    exact serves

/-! ## Stubs in reach -/

/-- A displacement that does not wrap around is what it is between the addresses as numbers. -/
theorem toInt_displacement (landing place : Nat) (bias : Word)
    (lower : -2 ^ 63 ≤ (landing : Int) + bias.toInt - place)
    (upper : (landing : Int) + bias.toInt - place < 2 ^ 63) :
    (BitVec.ofNat 64 landing + bias - BitVec.ofNat 64 place).toInt =
      (landing : Int) + bias.toInt - place := by
  have whole : BitVec.ofNat 64 landing + bias - BitVec.ofNat 64 place =
      BitVec.ofInt 64 ((landing : Int) + bias.toInt - place) := by
    rw [Int.sub_eq_add_neg, BitVec.ofInt_add, BitVec.ofInt_add, BitVec.ofInt_neg,
      BitVec.ofInt_natCast, BitVec.ofInt_natCast, BitVec.ofInt_toInt, BitVec.sub_eq_add_neg]
  rw [whole, BitVec.toInt_ofInt]
  exact Int.bmod_eq_of_le (by omega) (by omega)

/-- A call spans the way to every place less than 128 MiB away. -/
theorem reach_of_near {landing place : Nat} (located : fixup.place = BitVec.ofNat 64 place)
    (plain : machine = .x86_64 → fixup.addend = -4#64) (behind : place < landing + 2 ^ 27)
    (before : landing < place + 2 ^ 27) :
    reach machine (BitVec.ofNat 64 landing + fixup.bias machine - fixup.place) = true := by
  rw [located]
  cases machine with
  | x86_64 =>
      have value := toInt_displacement landing place (fixup.bias .x86_64)
      rw [bias, plain rfl, show (-4#64).toInt = -4 by decide] at value
      rw [bias, plain rfl, reach, fitsSigned_iff, value (by omega) (by omega)]
      omega
  | aarch64 =>
      have value := toInt_displacement landing place 0
      rw [show (0 : Word).toInt = 0 by decide] at value
      rw [bias, reach, fitsSigned_iff, value (by omega) (by omega)]
      omega
  | riscv =>
      -- The check rounds the upper part, which is as if that had been added to the landing.
      have rounded : BitVec.ofNat 64 landing + 0 - BitVec.ofNat 64 place + 0x800#64 =
          BitVec.ofNat 64 landing + 0x800#64 - BitVec.ofNat 64 place := by
        grind
      have value := toInt_displacement landing place 0x800#64
      rw [show (0x800#64).toInt = 0x800 by decide] at value
      rw [bias, reach, fitsHighLow, rounded, fitsSigned_iff, value (by omega) (by omega)]
      omega

/-- If all stubs of a page would be in reach, a route is found, or the page is full of other
stubs. -/
theorem route_served {table : StubTable} (stubs : linkage.stubs = some table)
    (fits : table.Fits) {destination bias : Word} {reached : Word → Bool}
    (near : ∀ index < table.capacity,
      reached (BitVec.ofNat 64 (table.addressOf index) + bias - fixup.place) = true) :
    (∃ value, (fixup.route linkage destination bias reached).2 = .ok value) ∨
      (fixup.route linkage destination bias reached).2 = .error .stubsExhausted ∧
        reached (destination + bias - fixup.place) = false ∧
        destination ∉ table.targets ∧ table.targets.length = table.capacity := by
  unfold route
  simp only
  split
  · exact .inl ⟨_, rfl⟩
  · next far =>
      have far := Bool.eq_false_iff.mpr far
      unfold Linkage.stubFor
      simp only [stubs]
      cases made : table.stubFor destination with
      | error error =>
          rcases StubTable.stubFor_eq_error made with ⟨rfl, unknown, full⟩
          exact .inr ⟨rfl, far, unknown, Nat.le_antisymm fits full⟩
      | ok result =>
          rcases StubTable.addressOf_of_stubFor fits made with ⟨index, bounded, same⟩
          simp only
          rw [same, if_pos (near index bounded)]
          exact .inl ⟨_, rfl⟩

/-- A call inside its section succeeds if all stubs of the page would be in reach, unless it
needs one more than the page can hold. -/
theorem apply_served {table : StubTable} {contents : List UInt8}
    (call : isCall machine fixup.kind = true)
    (inside : fixup.offset + (callForm machine).width ≤ contents.length)
    (stubs : linkage.stubs = some table) (fits : table.Fits)
    (near : ∀ index < table.capacity, reach machine
      (BitVec.ofNat 64 (table.addressOf index) + fixup.bias machine - fixup.place) = true) :
    Succeeds (fixup.apply machine linkage contents) ∨
      (fixup.apply machine linkage contents).2 = .error .stubsExhausted ∧
        fixup.Detours machine (fixup.destination machine) ∧
        fixup.destination machine ∉ table.targets ∧ table.targets.length = table.capacity := by
  have known := callForm_of_isCall call
  have writes : 0 < (callForm machine).width := by cases machine <;> decide
  rcases plan_callForm fixup machine linkage with ⟨make, plans⟩
  have planned := congrArg Prod.snd plans
  rcases route_served stubs fits near with ⟨value, routed⟩ | ⟨exhausted, far, absent, full⟩
  · rw [routed] at planned
    exact .inl ((succeeds_iff known writes).mpr ⟨⟨make value, planned⟩, inside⟩)
  · rw [exhausted] at planned
    refine .inr ⟨?_, ⟨call, rfl, by simp [spans_iff_reach, far]⟩, absent, full⟩
    rw [result_of_form known, planned]
    rfl

end Fixup
end ModuleHost
