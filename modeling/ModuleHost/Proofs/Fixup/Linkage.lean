import Mathlib.Data.List.Infix
import ModuleHost.Fixup
import ModuleHost.Proofs.Fixup.Stub

namespace ModuleHost
namespace Fixup

/-!
# What fixups leave behind

From one fixup to the next only two things grow: the list of stub targets and the list
of upper halves.  Nothing already there is changed, whether the fixup succeeds or not,
so what an earlier fixup was told about a stub or an upper half stays true.
-/

/-- The stubs, if there are any, fit into their page. -/
def Linkage.Fits (linkage : Linkage) : Prop :=
  ∀ table, linkage.stubs = some table → table.Fits

/-- The same linkage with more stubs and more upper halves. -/
structure Linkage.Extends (before after : Linkage) : Prop where
  stubs : ∃ targets, after.stubs = before.stubs.map (·.withMore targets)
  upperHalves : before.upperHalves <:+ after.upperHalves
  fits : before.Fits → after.Fits

namespace Linkage.Extends

theorem refl (linkage : Linkage) : linkage.Extends linkage :=
  ⟨⟨[], by simp⟩, List.suffix_refl _, id⟩

theorem trans {first second third : Linkage} (extension : first.Extends second)
    (extension' : second.Extends third) : first.Extends third := by
  rcases extension.stubs with ⟨targets, stubs⟩
  rcases extension'.stubs with ⟨targets', stubs'⟩
  refine ⟨⟨targets ++ targets', ?_⟩, extension.upperHalves.trans extension'.upperHalves,
    extension'.fits ∘ extension.fits⟩
  rw [stubs', stubs, Option.map_map]
  simp only [Function.comp_def, StubTable.withMore_withMore]

/-- The page of the stubs, if there is one, stays where it is. -/
theorem base_eq {before after : Linkage} (extension : before.Extends after) :
    after.stubs.map StubTable.base = before.stubs.map StubTable.base := by
  rcases extension.stubs with ⟨targets, stubs⟩
  rw [stubs, Option.map_map]
  rfl

end Linkage.Extends

/-! ## One fixup -/

variable {linkage after : Linkage}

/-- A stub is made by the table, if there is one, and nothing else changes. -/
theorem Linkage.stubFor_eq_ok {target stub : Word}
    (made : linkage.stubFor target = .ok (after, stub)) :
    ∃ table table' address, linkage.stubs = some table ∧
      table.stubFor target = .ok (table', address) ∧
      after = { linkage with stubs := some table' } ∧ stub = BitVec.ofNat 64 address := by
  unfold Linkage.stubFor at made
  cases stubs : linkage.stubs with
  | none => simp [stubs] at made
  | some table =>
      cases found : table.stubFor target with
      | error error => simp [stubs, found] at made
      | ok result =>
          simp only [stubs, found, Except.ok.injEq, Prod.mk.injEq] at made
          exact ⟨table, result.1, result.2, rfl, found, made.1.symm, made.2.symm⟩

theorem Linkage.extends_stubFor {target stub : Word}
    (made : linkage.stubFor target = .ok (after, stub)) : linkage.Extends after := by
  rcases Linkage.stubFor_eq_ok made with ⟨table, table', address, stubs, found, rfl, -⟩
  rcases StubTable.withMore_of_stubFor found with ⟨targets, -, same, room⟩
  refine ⟨⟨targets, ?_⟩, List.suffix_refl _, ?_⟩
  · rw [stubs, Option.map_some, ← same]
  · intro fits table'' more
    rw [← Option.some.inj more]
    exact room (fits table stubs)

/-- Asked for again, a stub is the same, whatever has been noted in between. -/
theorem Linkage.stubFor_again {target stub : Word} {later : Linkage}
    (made : linkage.stubFor target = .ok (after, stub)) (same : later.stubs = after.stubs) :
    later.stubFor target = .ok (later, stub) := by
  rcases Linkage.stubFor_eq_ok made with ⟨table, table', address, -, found, rfl, rfl⟩
  have same : later.stubs = some table' := same
  simp only [Linkage.stubFor, same, StubTable.stubFor_again found]
  rw [← same]

/-- The linkage is as before, or one stub has been asked for and given. -/
def Linkage.Asks (before after : Linkage) : Prop :=
  after = before ∨ ∃ target stub, before.stubFor target = .ok (after, stub)

theorem Linkage.Asks.extends (asks : linkage.Asks after) : linkage.Extends after := by
  rcases asks with rfl | ⟨target, stub, made⟩
  · exact Linkage.Extends.refl after
  · exact Linkage.extends_stubFor made

theorem Linkage.Asks.upperHalves_eq (asks : linkage.Asks after) :
    after.upperHalves = linkage.upperHalves := by
  rcases asks with rfl | ⟨target, stub, made⟩
  · rfl
  · rcases Linkage.stubFor_eq_ok made with ⟨table, table', address, -, -, rfl, -⟩
    rfl

/-- A route leads by a stub only if the direct way does not fit. -/
theorem stubFor_of_route (fixup : Fixup) (linkage : Linkage) (destination bias : Word)
    (fits : Word → Bool) :
    (fixup.route linkage destination bias fits).1 = linkage ∨
      fits (destination + bias - fixup.place) = false ∧ ∃ stub,
        linkage.stubFor destination =
          .ok ((fixup.route linkage destination bias fits).1, stub) := by
  unfold route
  simp only
  split
  · exact .inl rfl
  · next far =>
      split
      · exact .inl rfl
      · next linkage' stub made =>
          split <;> exact .inr ⟨Bool.eq_false_iff.mpr far, stub, made⟩

theorem asks_route (fixup : Fixup) (linkage : Linkage) (destination bias : Word)
    (fits : Word → Bool) : linkage.Asks (fixup.route linkage destination bias fits).1 :=
  (stubFor_of_route fixup linkage destination bias fits).imp_right
    fun ⟨_, stub, made⟩ => ⟨destination, stub, made⟩

/-- Planning asks for one stub at most; no upper half is written before the patch is made. -/
theorem asks_plan (fixup : Fixup) (linkage : Linkage) (form : Form) :
    linkage.Asks (fixup.plan linkage form).1 := by
  cases form with
  | call32 => exact asks_route fixup linkage fixup.symbol fixup.addend (fitsSigned 32)
  | branch26 => exact asks_route fixup linkage (fixup.symbol + fixup.addend) 0 (fitsSigned 28)
  | callPair =>
      have routed := asks_route fixup linkage (fixup.symbol + fixup.addend) 0 fitsHighLow
      simp only [plan]
      exact routed
  | relativeLow12 layout =>
      simp only [plan]
      split <;> exact .inl rfl
  | _ => exact .inl rfl

theorem extends_note (fixup : Fixup) (linkage : Linkage) (form : Form) :
    linkage.Extends (fixup.note linkage form) := by
  cases form with
  | relativeHigh20 => exact ⟨(Linkage.Extends.refl linkage).stubs, List.suffix_cons _ _, id⟩
  | _ =>
      simp only [note]
      exact Linkage.Extends.refl linkage

@[simp] theorem stubs_note (fixup : Fixup) (linkage : Linkage) (form : Form) :
    (fixup.note linkage form).stubs = linkage.stubs := by
  cases form <;> rfl

theorem extends_apply (fixup : Fixup) (machine : Machine) (linkage : Linkage)
    (contents : List UInt8) : linkage.Extends (fixup.apply machine linkage contents).1 := by
  unfold apply
  split
  · exact Linkage.Extends.refl linkage
  · next form _ =>
      have planned := (asks_plan fixup linkage form).extends
      split
      · next made => rw [made] at planned; exact planned
      · next made =>
          rw [made] at planned
          split
          · exact planned
          · exact planned.trans (extends_note fixup _ form)

end Fixup
end ModuleHost
