import ModuleHost.Proofs.Fixup.Field
import ModuleHost.Proofs.Fixup.Linkage

namespace ModuleHost
namespace Fixup

/-!
# What relocation forms prescribe

`Prescribes` says for each form which field its place must hold, given the address of the
symbol, the addend and the place.  It does not say how the field comes about: where a call
may go by way of a stub, and which value a lower half belongs to, are relations that
whoever uses it supplies.  A planned fixup writes what is prescribed.
-/

/-- How many bytes a form patches. -/
def Form.width : Form → Nat
  | .nothing => 0
  | .data64 _ => 8
  | .callPair => 8
  | _ => 4

/-- The displacement of a call: to its destination if that fits, else to a stub that leads
there. -/
inductive Displacement (jumps : Word → Word → Prop) (fits : Word → Bool)
    (destination bias place : Word) : Word → Prop
  | direct (fitting : fits (destination + bias - place) = true) :
      Displacement jumps fits destination bias place (destination + bias - place)
  | detour (stub : Word) (far : fits (destination + bias - place) = false)
      (leading : jumps destination stub) (fitting : fits (stub + bias - place) = true) :
      Displacement jumps fits destination bias place (stub + bias - place)

section Prescription

variable (jumps : Word → Word → Prop) (halves : Word → Word → Prop)
variable (symbol addend place : Word)

/-- The field that a form prescribes.  `jumps target stub` says that the stub jumps to the
target, `halves place value` that the upper half of the value was written at the place. -/
inductive Prescribes : Form → Field → Prop
  | nothing : Prescribes .nothing .nothing
  | data64 : Prescribes (.data64 false) (.number 8 (symbol + addend))
  | relative64 : Prescribes (.data64 true) (.number 8 (symbol + addend - place))
  | data32 (extension : Extension) (fitting : extension.holds (symbol + addend) = true) :
      Prescribes (.data32 false extension) (.number 4 (symbol + addend))
  | relative32 (extension : Extension)
      (fitting : extension.holds (symbol + addend - place) = true) :
      Prescribes (.data32 true extension) (.number 4 (symbol + addend - place))
  | call32 (value : Word)
      (reaching : Displacement jumps (fitsSigned 32) symbol addend place value) :
      Prescribes .call32 (.number 4 value)
  | branch26 (value : Word)
      (reaching : Displacement jumps (fitsSigned 28) (symbol + addend) 0 place value) :
      Prescribes .branch26 (.immediate Piece.branch26 value)
  | page21 (fitting :
        fitsSigned 21 ((pageOf (symbol + addend) - pageOf place).sshiftRight 12) = true) :
      Prescribes .page21
        (.immediate Piece.page21 ((pageOf (symbol + addend) - pageOf place).sshiftRight 12))
  | pageOffsetAdd :
      Prescribes .pageOffsetAdd (.immediate Piece.immediate12 ((symbol + addend) &&& 0xfff#64))
  | pageOffsetAccess (scale : Nat) :
      Prescribes (.pageOffsetAccess scale)
        (.immediate Piece.immediate12 (((symbol + addend) &&& 0xfff#64) >>> scale))
  | branch12 (fitting : fitsSigned 13 (symbol + addend - place) = true) :
      Prescribes .branch12 (.immediate Piece.branch12 (symbol + addend - place))
  | jump20 (fitting : fitsSigned 21 (symbol + addend - place) = true) :
      Prescribes .jump20 (.immediate Piece.jump20 (symbol + addend - place))
  | callPair (value : Word)
      (reaching : Displacement jumps fitsHighLow (symbol + addend) 0 place value) :
      Prescribes .callPair
        (.immediates Piece.high20 (value + 0x800#64) (Piece.low12 .load) value)
  | high20 (fitting : fitsHighLow (symbol + addend) = true) :
      Prescribes .high20 (.immediate Piece.high20 (symbol + addend + 0x800#64))
  | low12 (layout : LowLayout) :
      Prescribes (.low12 layout) (.immediate (Piece.low12 layout) (symbol + addend))
  | relativeHigh20 (fitting : fitsHighLow (symbol + addend - place) = true) :
      Prescribes .relativeHigh20
        (.immediate Piece.high20 (symbol + addend - place + 0x800#64))
  | relativeLow12 (layout : LowLayout) (value : Word) (paired : halves symbol value) :
      Prescribes (.relativeLow12 layout) (.immediate (Piece.low12 layout) value)

end Prescription

variable {jumps jumps' halves halves' : Word → Word → Prop} {symbol addend place : Word}

theorem Prescribes.size_eq {form : Form} {field : Field}
    (prescribes : Prescribes jumps halves symbol addend place form field) :
    field.size = form.width := by
  cases prescribes <;> rfl

theorem Displacement.mono {fits : Word → Bool} {destination bias value : Word}
    (more : ∀ target stub, jumps target stub → jumps' target stub)
    (reaching : Displacement jumps fits destination bias place value) :
    Displacement jumps' fits destination bias place value := by
  cases reaching with
  | direct fitting => exact .direct fitting
  | detour stub far leading fitting => exact .detour stub far (more _ _ leading) fitting

theorem Prescribes.mono {form : Form} {field : Field}
    (more : ∀ target stub, jumps target stub → jumps' target stub)
    (more' : ∀ place value, halves place value → halves' place value)
    (prescribes : Prescribes jumps halves symbol addend place form field) :
    Prescribes jumps' halves' symbol addend place form field := by
  cases prescribes with
  | nothing => exact .nothing
  | data64 => exact .data64
  | relative64 => exact .relative64
  | data32 extension fitting => exact .data32 extension fitting
  | relative32 extension fitting => exact .relative32 extension fitting
  | call32 value reaching => exact .call32 value (reaching.mono more)
  | branch26 value reaching => exact .branch26 value (reaching.mono more)
  | page21 fitting => exact .page21 fitting
  | pageOffsetAdd => exact .pageOffsetAdd
  | pageOffsetAccess scale => exact .pageOffsetAccess scale
  | branch12 fitting => exact .branch12 fitting
  | jump20 fitting => exact .jump20 fitting
  | callPair value reaching => exact .callPair value (reaching.mono more)
  | high20 fitting => exact .high20 fitting
  | low12 layout => exact .low12 layout
  | relativeHigh20 fitting => exact .relativeHigh20 fitting
  | relativeLow12 layout value paired => exact .relativeLow12 layout value (more' _ _ paired)

namespace Linkage

/-- A stub of the module leads to a target. -/
def Leads (linkage : Linkage) (target stub : Word) : Prop :=
  ∃ table index, linkage.stubs = some table ∧ table.targets[index]? = some target ∧
    stub = BitVec.ofNat 64 (table.addressOf index)

/-- The upper half of a value was written at a place. -/
def Upper (linkage : Linkage) (place value : Word) : Prop :=
  (place, value) ∈ linkage.upperHalves

theorem Extends.leads {before after : Linkage} (extension : before.Extends after)
    (target stub : Word) (leading : before.Leads target stub) : after.Leads target stub := by
  rcases leading with ⟨table, index, stubs, found, rfl⟩
  rcases extension.stubs with ⟨targets, more⟩
  rw [stubs, Option.map_some] at more
  refine ⟨table.withMore targets, index, more, ?_, rfl⟩
  exact (List.getElem?_append_left (List.getElem?_eq_some_iff.mp found).1).trans found

theorem Extends.upper {before after : Linkage} (extension : before.Extends after)
    (place value : Word) (written : before.Upper place value) : after.Upper place value :=
  extension.upperHalves.subset written

theorem upper_of_upperHalf? {linkage : Linkage} {place value : Word}
    (found : linkage.upperHalf? place = some value) :
    linkage.Upper place value := by
  rcases Option.map_eq_some_iff.mp found with ⟨⟨place', value'⟩, first, rfl⟩
  have same : place' = place := by simpa using List.find?_some first
  exact same ▸ List.mem_of_find?_eq_some first

theorem leads_of_stubFor {linkage after : Linkage} {target stub : Word}
    (made : linkage.stubFor target = .ok (after, stub)) : after.Leads target stub := by
  rcases stubFor_eq_ok made with ⟨table, table', address, -, found, rfl, rfl⟩
  refine ⟨table', ?_⟩
  rcases StubTable.stubFor_eq_ok found with ⟨index, known, rfl, rfl⟩ | ⟨-, -, rfl, rfl⟩
  · rcases List.idxOf?_eq_some_iff.mp known with ⟨bounded, same, -⟩
    exact ⟨index, rfl, List.getElem?_eq_some_iff.mpr ⟨bounded, same⟩, rfl⟩
  · exact ⟨table.targets.length, rfl, List.getElem?_concat_length, rfl⟩

end Linkage

/-! ## Planning -/

variable {fixup : Fixup} {linkage after : Linkage}

theorem displacement_of_route {destination bias value : Word} {fits : Word → Bool}
    (routed : fixup.route linkage destination bias fits = (after, .ok value)) :
    Displacement after.Leads fits destination bias fixup.place value := by
  unfold route at routed
  simp only at routed
  split at routed
  · next fitting =>
      simp only [Prod.mk.injEq, Except.ok.injEq] at routed
      rcases routed with ⟨rfl, rfl⟩
      exact .direct fitting
  · next far =>
      split at routed
      · simp at routed
      · next linkage' stub made =>
          split at routed
          · next fitting =>
              simp only [Prod.mk.injEq, Except.ok.injEq] at routed
              rcases routed with ⟨rfl, rfl⟩
              exact .detour stub (Bool.eq_false_iff.mpr far) (Linkage.leads_of_stubFor made)
                fitting
          · simp at routed

theorem fitting_eq_ok {value result : Word} {fits : Word → Bool}
    (kept : fixup.fitting value fits = .ok result) : fits value = true ∧ result = value := by
  unfold fitting at kept
  split at kept
  · next fits => exact ⟨fits, (Except.ok.inj kept).symm⟩
  · cases kept

/-- The value of a form that is checked before it is written. -/
theorem map_fitting_eq_ok {value : Word} {fits : Word → Bool} {make : Word → Patch}
    {patch : Patch} (planned : (fixup.fitting value fits).map make = .ok patch) :
    fits value = true ∧ patch = make value := by
  cases kept : fixup.fitting value fits with
  | error error =>
      rw [kept] at planned
      cases planned
  | ok result =>
      rcases fitting_eq_ok kept with ⟨fits, rfl⟩
      rw [kept] at planned
      exact ⟨fits, (Except.ok.inj planned).symm⟩

/-- The value of a call. -/
theorem map_route_eq_ok {destination bias : Word} {fits : Word → Bool} {make : Word → Patch}
    {patch : Patch}
    (planned : ((fixup.route linkage destination bias fits).1,
      (fixup.route linkage destination bias fits).2.map make) = (after, Except.ok patch)) :
    ∃ value, fixup.route linkage destination bias fits = (after, .ok value) ∧
      patch = make value := by
  cases routed : fixup.route linkage destination bias fits with
  | mk linkage' result =>
      cases result with
      | error error =>
          rw [routed] at planned
          cases planned
      | ok value =>
          rw [routed] at planned
          simp only [Except.map, Prod.mk.injEq, Except.ok.injEq] at planned
          rcases planned with ⟨rfl, rfl⟩
          exact ⟨value, rfl, rfl⟩

theorem setWidth_extractLsb' (target : Word) (scale : Nat) :
    (target.extractLsb' 0 12 >>> scale).setWidth 64 = (target &&& 0xfff#64) >>> scale := by
  have low : (target.extractLsb' 0 12).setWidth 64 = target &&& 0xfff#64 := by
    apply BitVec.eq_of_getLsbD_eq
    intro bit bounded
    have mask : (0xfff#64).getLsbD bit = decide (bit < 12) := getLsbD_lowest 12 bounded
    rw [BitVec.getLsbD_setWidth, BitVec.getLsbD_extractLsb', BitVec.getLsbD_and, mask]
    grind
  rw [← low]
  apply BitVec.eq_of_getLsbD_eq
  intro bit _
  simp only [BitVec.getLsbD_setWidth, BitVec.getLsbD_ushiftRight]
  grind

/-- What is planned is what the form prescribes. -/
theorem prescribes_of_plan {form : Form} {patch : Patch}
    (planned : fixup.plan linkage form = (after, .ok patch)) :
    patch.width = form.width ∧ ∃ field, patch.Realizes field ∧
      Prescribes after.Leads after.Upper fixup.symbol fixup.addend fixup.place form field := by
  cases form with
  | nothing =>
      cases planned
      exact ⟨rfl, _, Patch.realizes_keep, .nothing⟩
  | data64 relative =>
      cases planned
      cases relative
      · exact ⟨Endian.length_bytes _ _, _, Patch.realizes_store 8 _, .data64⟩
      · exact ⟨Endian.length_bytes _ _, _, Patch.realizes_store 8 _, .relative64⟩
  | data32 relative extension =>
      simp only [plan, Prod.mk.injEq] at planned
      rcases map_fitting_eq_ok planned.2 with ⟨fits, rfl⟩
      cases relative
      · exact ⟨Endian.length_bytes _ _, _, Patch.realizes_store 4 _, .data32 extension fits⟩
      · exact ⟨Endian.length_bytes _ _, _, Patch.realizes_store 4 _, .relative32 extension fits⟩
  | call32 =>
      rcases map_route_eq_ok planned with ⟨value, routed, rfl⟩
      exact ⟨Endian.length_bytes _ _, _, Patch.realizes_store 4 _,
        .call32 value (displacement_of_route routed)⟩
  | branch26 =>
      rcases map_route_eq_ok planned with ⟨value, routed, rfl⟩
      exact ⟨rfl, _, Patch.realizes_edit fun insn => insn.encodes_branch26 value,
        .branch26 value (displacement_of_route routed)⟩
  | page21 =>
      simp only [plan, Prod.mk.injEq] at planned
      rcases map_fitting_eq_ok planned.2 with ⟨fits, rfl⟩
      exact ⟨rfl, _, Patch.realizes_edit fun insn => insn.encodes_page21 _, .page21 fits⟩
  | pageOffsetAdd =>
      cases planned
      have low := setWidth_extractLsb' (fixup.symbol + fixup.addend) 0
      rw [BitVec.ushiftRight_zero, BitVec.ushiftRight_zero] at low
      refine ⟨rfl, _, Patch.realizes_edit fun insn => ?_, .pageOffsetAdd⟩
      rw [← low]
      exact insn.encodes_immediate12 _
  | pageOffsetAccess scale =>
      cases planned
      refine ⟨rfl, _, Patch.realizes_edit fun insn => ?_, .pageOffsetAccess scale⟩
      rw [← setWidth_extractLsb']
      exact insn.encodes_immediate12 _
  | branch12 =>
      simp only [plan, Prod.mk.injEq] at planned
      rcases map_fitting_eq_ok planned.2 with ⟨fits, rfl⟩
      exact ⟨rfl, _, Patch.realizes_edit fun insn => insn.encodes_branch12 _, .branch12 fits⟩
  | jump20 =>
      simp only [plan, Prod.mk.injEq] at planned
      rcases map_fitting_eq_ok planned.2 with ⟨fits, rfl⟩
      exact ⟨rfl, _, Patch.realizes_edit fun insn => insn.encodes_jump20 _, .jump20 fits⟩
  | callPair =>
      simp only [plan] at planned
      rcases map_route_eq_ok planned with ⟨value, routed, rfl⟩
      exact ⟨rfl, _, Patch.realizes_editPair (fun insn => insn.encodes_high20 value)
        (fun insn => insn.encodes_low12 value .load),
        .callPair value (displacement_of_route routed)⟩
  | high20 =>
      simp only [plan, Prod.mk.injEq] at planned
      rcases map_fitting_eq_ok planned.2 with ⟨fits, rfl⟩
      exact ⟨rfl, _, Patch.realizes_edit fun insn => insn.encodes_high20 _, .high20 fits⟩
  | low12 layout =>
      cases planned
      exact ⟨rfl, _, Patch.realizes_edit fun insn => insn.encodes_low12 _ layout, .low12 layout⟩
  | relativeHigh20 =>
      simp only [plan, Prod.mk.injEq] at planned
      rcases map_fitting_eq_ok planned.2 with ⟨fits, rfl⟩
      exact ⟨rfl, _, Patch.realizes_edit fun insn => insn.encodes_high20 _, .relativeHigh20 fits⟩
  | relativeLow12 layout =>
      simp only [plan] at planned
      split at planned
      · cases planned
      · next value paired =>
          cases planned
          exact ⟨rfl, _, Patch.realizes_edit fun insn => insn.encodes_low12 value layout,
            .relativeLow12 layout value (Linkage.upper_of_upperHalf? paired)⟩

end Fixup
end ModuleHost
