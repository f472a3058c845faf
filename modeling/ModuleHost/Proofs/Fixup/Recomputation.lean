import ModuleHost.Proofs.Fixup.Calls
import ModuleHost.Proofs.Fixup.Immediate
import ModuleHost.Proofs.Fixup.Outcome

namespace ModuleHost
namespace Fixup

/-!
# Addresses recomputed from immediates

An address that is split over instructions is put together again by the processor.  What it
gets from patched instructions is the value that their fixups stand for, whatever instructions
were found there, and a value that the instructions cannot hold is refused.  A lower half that
refers to an upper half may be patched much later, and in another section.
-/

/-- The value lies in a range of signed numbers. -/
def InRange (low high : Int) (value : Word) : Prop :=
  low ≤ value.toInt ∧ value.toInt < high

theorem fitsSigned_iff_inRange (bits : Nat) (value : Word) :
    fitsSigned bits value = true ↔ InRange (-2 ^ (bits - 1)) (2 ^ (bits - 1)) value :=
  fitsSigned_iff bits value

/-- The two halves together reach half a lower part less far upwards, and more downwards. -/
theorem fitsHighLow_iff_inRange (value : Word) :
    fitsHighLow value = true ↔ InRange (-2 ^ 31 - 0x800) (2 ^ 31 - 0x800) value := by
  have lower := BitVec.le_toInt value
  have upper : value.toInt < 2 ^ 63 := BitVec.toInt_lt
  have sum := BitVec.toInt_add value 0x800#64
  have amount : (0x800#64).toInt = 0x800 := by decide
  rw [amount] at sum
  rw [Int.bmod_def] at sum
  rw [fitsHighLow, fitsSigned_iff, sum, InRange]
  split <;> omega

/-- The instructions that a form patches: how far from its offset they stand, and in which
format they are. -/
def Form.sites : Form → List (Nat × Format)
  | .branch26 => [(0, .branch)]
  | .page21 => [(0, .page)]
  | .pageOffsetAdd => [(0, .pageOffset 0)]
  | .pageOffsetAccess scale => [(0, .pageOffset scale)]
  | .branch12 => [(0, .conditional)]
  | .jump20 => [(0, .jump)]
  | .callPair => [(0, .upper), (4, .lower .load)]
  | .high20 | .relativeHigh20 => [(0, .upper)]
  | .low12 layout | .relativeLow12 layout => [(0, .lower layout)]
  | _ => []

/-- A fixup that was applied to a section. -/
structure Application (machine : Machine) (form : Form) where
  fixup : Fixup
  linkage : Linkage
  contents : List UInt8
  after : Linkage
  patched : List UInt8
  known : StandsFor machine fixup.kind form
  applied : fixup.apply machine linkage contents = (after, .ok patched)

namespace Application

variable {machine : Machine} {form : Form} (application : Application machine form)

theorem form_known : Form.ofKind? machine application.fixup.kind = some form :=
  standsFor_iff.mp application.known

def target : Word :=
  application.fixup.symbol + application.fixup.addend

def displacement : Word :=
  application.target - application.fixup.place

/-- The instruction that was found at a distance from the offset. -/
def found (distance : Nat) : Instruction :=
  Patch.instructionAt application.contents (application.fixup.offset + distance)

/-- The instruction that was left there. -/
def left (distance : Nat) : Instruction :=
  Patch.instructionAt application.patched (application.fixup.offset + distance)

/-- The place holds what is prescribed. -/
theorem prescribed : ∃ field,
    Prescribes application.after.Leads application.after.Upper application.fixup.symbol
      application.fixup.addend application.fixup.place form field ∧
    field.Holds (Endian.slice application.contents application.fixup.offset form.width)
      (Endian.slice application.patched application.fixup.offset form.width) := by
  rcases apply_eq_ok application.applied with ⟨-, -, held, -⟩
  rcases held.of_form application.form_known with ⟨field, -, prescribes, holds⟩
  exact ⟨field, prescribes, holds⟩

/-- The place of a lower half that refers to an upper half. -/
theorem encodes_relativeLow12 {layout : LowLayout}
    (lower : Application machine (.relativeLow12 layout)) {value : Word}
    (noted : lower.linkage.upperHalf? lower.fixup.symbol = some value) :
    Encodes (Piece.low12 layout) value (lower.found 0) (lower.left 0) := by
  rcases made_of_form lower.form_known lower.applied with ⟨planned, patch, plans, made, -⟩
  simp only [plan, noted, Prod.mk.injEq, Except.ok.injEq] at plans
  rcases plans with ⟨-, rfl⟩
  have realizes : (Patch.edit (·.withLow12 layout value)).Realizes
      (.immediate (Piece.low12 layout) value) :=
    Patch.realizes_edit fun insn => insn.encodes_low12 value layout
  have holds := realizes lower.contents lower.fixup.offset
  rw [← (Patch.make?_eq_some made).2.2.2] at holds
  exact holds

/-- Both instructions of a pair. -/
theorem encodes_callPair (call : Application machine .callPair) {value : Word}
    (holds : (Field.immediates Piece.high20 (value + 0x800#64) (Piece.low12 .load) value).Holds
      (Endian.slice call.contents call.fixup.offset 8)
      (Endian.slice call.patched call.fixup.offset 8)) :
    Encodes Piece.high20 (value + 0x800#64) (call.found 0) (call.left 0) ∧
      Encodes (Piece.low12 .load) value (call.found 4) (call.left 4) := by
  rw [Field.Holds, Endian.take_slice _ _ (by decide), Endian.take_slice _ _ (by decide),
    Endian.drop_slice, Endian.drop_slice] at holds
  exact holds

/-- Whatever is patched, an instruction keeps what is not its immediate. -/
theorem rest_eq {site : Nat × Format} (listed : site ∈ form.sites) :
    application.left site.1 &&& site.2.rest = application.found site.1 &&& site.2.rest := by
  rcases application.prescribed with ⟨field, prescribes, holds⟩
  cases prescribes with
  | callPair value reaching =>
      rcases encodes_callPair application holds with ⟨first, second⟩
      simp only [Form.sites, List.mem_cons, List.not_mem_nil, or_false] at listed
      rcases listed with rfl | rfl
      · exact Encodes.rest_eq .upper first
      · exact Encodes.rest_eq (.lower .load) second
  | nothing | data64 | relative64 | data32 _ _ | relative32 _ _ | call32 _ _ => cases listed
  | _ =>
      rcases List.mem_singleton.mp listed
      exact Encodes.rest_eq _ holds

/-! ## What is read from one patched place -/

theorem read_high20 (upper : Application machine .high20) :
    fitsHighLow upper.target = true ∧ Format.upper.read (upper.left 0) =
      ((upper.target + 0x800#64).extractLsb' 12 20 ++ 0#12).signExtend 64 := by
  rcases upper.prescribed with ⟨field, prescribes, holds⟩
  cases prescribes with
  | high20 fitting => exact ⟨fitting, Encodes.read_upper holds⟩

theorem read_relativeHigh20 (upper : Application machine .relativeHigh20) :
    fitsHighLow upper.displacement = true ∧ Format.upper.read (upper.left 0) =
      ((upper.displacement + 0x800#64).extractLsb' 12 20 ++ 0#12).signExtend 64 := by
  rcases upper.prescribed with ⟨field, prescribes, holds⟩
  cases prescribes with
  | relativeHigh20 fitting => exact ⟨fitting, Encodes.read_upper holds⟩

theorem read_low12 {layout : LowLayout} (lower : Application machine (.low12 layout)) :
    (Format.lower layout).read (lower.left 0) = (lower.target.extractLsb' 0 12).signExtend 64 := by
  rcases lower.prescribed with ⟨field, prescribes, holds⟩
  cases prescribes with
  | low12 layout => exact Encodes.read_lower holds

/-- A call leads to its target, or to the stub of its target if that is out of reach. -/
theorem read_callPair (call : Application machine .callPair) : ∃ landing,
    Format.upper.read (call.left 0) + (Format.lower .load).read (call.left 4) =
      landing - call.fixup.place ∧
    (fitsHighLow call.displacement = true → landing = call.target) ∧
    (fitsHighLow call.displacement = false → call.after.Leads call.target landing) := by
  rcases call.prescribed with ⟨field, prescribes, holds⟩
  cases prescribes with
  | callPair value reaching =>
      rcases encodes_callPair call holds with ⟨first, second⟩
      rcases reaching.landing_unbiased with ⟨landing, rfl, fits, near, far⟩
      refine ⟨landing, ?_, near, far⟩
      rw [first.read_upper, second.read_lower, high_add_low fits]

theorem read_branch12 (branch : Application machine .branch12) :
    Format.conditional.read (branch.left 0) = branch.displacement &&& ~~~1#64 := by
  rcases branch.prescribed with ⟨field, prescribes, holds⟩
  cases prescribes with
  | branch12 fitting => exact Encodes.read_conditional holds fitting

theorem read_jump20 (jump : Application machine .jump20) :
    Format.jump.read (jump.left 0) = jump.displacement &&& ~~~1#64 := by
  rcases jump.prescribed with ⟨field, prescribes, holds⟩
  cases prescribes with
  | jump20 fitting => exact Encodes.read_jump holds fitting

theorem read_branch26 (call : Application machine .branch26)
    (near : fitsSigned 28 call.displacement = true) :
    Format.branch.read (call.left 0) = call.displacement &&& ~~~3#64 := by
  rcases call.prescribed with ⟨field, prescribes, holds⟩
  cases prescribes with
  | branch26 value reaching =>
      rcases reaching.landing_unbiased with ⟨landing, rfl, fits, direct, -⟩
      rw [direct near] at holds fits
      exact Encodes.read_branch holds fits

theorem read_page21 (page : Application machine .page21) :
    pageOf page.fixup.place + Format.page.read (page.left 0) = pageOf page.target := by
  rcases page.prescribed with ⟨field, prescribes, holds⟩
  cases prescribes with
  | page21 fitting =>
      have read : Format.page.read (page.left 0) =
          pageOf (pageOf page.target - pageOf page.fixup.place) := Encodes.read_page holds fitting
      rw [read, pageOf_distance, BitVec.add_comm, BitVec.sub_add_cancel]

theorem read_pageOffsetAdd (add : Application machine .pageOffsetAdd) :
    ((Format.pageOffset 0).read (add.left 0)).toNat = add.target.toNat % 4096 := by
  rcases add.prescribed with ⟨field, prescribes, holds⟩
  cases prescribes with
  | pageOffsetAdd =>
      have read := Encodes.read_pageOffset 0 holds
      rwa [Nat.pow_zero, Nat.div_one, Nat.mul_one] at read

theorem read_pageOffsetAccess {scale : Nat}
    (access : Application machine (.pageOffsetAccess scale)) :
    ((Format.pageOffset scale).read (access.left 0)).toNat =
      access.target.toNat % 4096 / 2 ^ scale * 2 ^ scale := by
  rcases access.prescribed with ⟨field, prescribes, holds⟩
  cases prescribes with
  | pageOffsetAccess scale => exact Encodes.read_pageOffset scale holds

end Application

/-! ## Upper halves that were noted earlier -/

/-- A fixup that was tried on some section, with whatever outcome. -/
structure Attempt where
  machine : Machine
  fixup : Fixup
  contents : List UInt8

/-- The fixup is for another upper half at the place. -/
def Attempt.Renews (attempt : Attempt) (place : Word) : Prop :=
  StandsFor attempt.machine attempt.fixup.kind .relativeHigh20 ∧
    attempt.fixup.place = place

namespace Linkage

/-- What is remembered after some attempts. -/
def through (linkage : Linkage) (attempts : List Attempt) : Linkage :=
  attempts.foldl
    (fun linkage attempt => (attempt.fixup.apply attempt.machine linkage attempt.contents).1)
    linkage

theorem upperHalf?_through {attempts : List Attempt} {place : Word}
    (kept : ∀ attempt ∈ attempts, ¬attempt.Renews place) (linkage : Linkage) :
    (linkage.through attempts).upperHalf? place = linkage.upperHalf? place := by
  induction attempts generalizing linkage with
  | nil => rfl
  | cons attempt rest ih =>
      refine (ih (fun other listed => kept other (List.mem_cons_of_mem _ listed)) _).trans ?_
      exact upperHalf?_apply place (kept attempt List.mem_cons_self)

end Linkage

namespace Application

variable {machine : Machine}

/-- The upper half that was written is the one that its place stands for. -/
theorem upperHalf?_after (upper : Application machine .relativeHigh20) :
    upper.after.upperHalf? upper.fixup.place = some upper.displacement := by
  simp only [Linkage.upperHalf?, upperHalves_of_ok upper.form_known upper.applied, note]
  rw [List.find?_cons_of_pos (by simp)]
  rfl

end Application

/-! ## The immediates of a machine -/

/-- From patched RISC-V instructions the processor gets the address or the displacement that the
fixups stand for; branches and jumps drop its lowest bit, and a call out of reach gets that of
its stub.  What is not an immediate stays, and a value overflows just when it is out of range. -/
theorem riscv_immediates_recomputed :
    -- the two halves of an address
    (∀ (layout : LowLayout) (upper : Application .riscv .high20)
        (lower : Application .riscv (.low12 layout)), lower.target = upper.target →
      Format.upper.read (upper.left 0) + (Format.lower layout).read (lower.left 0) =
        upper.target) ∧
    -- the upper half of a displacement, and a lower half that names its place
    (∀ (layout : LowLayout) (upper : Application .riscv .relativeHigh20)
        (between : List Attempt) (lower : Application .riscv (.relativeLow12 layout)),
      lower.linkage = upper.after.through between → lower.fixup.symbol = upper.fixup.place →
      (∀ attempt ∈ between, ¬attempt.Renews upper.fixup.place) →
      Format.upper.read (upper.left 0) + (Format.lower layout).read (lower.left 0) =
        upper.displacement) ∧
    -- the two halves of a call's displacement, to its target or to a stub
    (∀ call : Application .riscv .callPair, ∃ landing,
      Format.upper.read (call.left 0) + (Format.lower .load).read (call.left 4) =
        landing - call.fixup.place ∧
      (InRange (-2 ^ 31 - 0x800) (2 ^ 31 - 0x800) call.displacement → landing = call.target) ∧
      (¬InRange (-2 ^ 31 - 0x800) (2 ^ 31 - 0x800) call.displacement →
        call.after.Leads call.target landing)) ∧
    -- displacements that are even
    (∀ branch : Application .riscv .branch12,
      Format.conditional.read (branch.left 0) = branch.displacement &&& ~~~1#64) ∧
    (∀ jump : Application .riscv .jump20,
      Format.jump.read (jump.left 0) = jump.displacement &&& ~~~1#64) ∧
    -- all other bits
    (∀ (form : Form) (application : Application .riscv form), ∀ site ∈ form.sites,
      application.left site.1 &&& site.2.rest = application.found site.1 &&& site.2.rest) ∧
    -- values out of range
    (∀ (fixup : Fixup) (linkage : Linkage) (contents : List UInt8),
      let target := fixup.symbol + fixup.addend
      let displacement := target - fixup.place
      let outcome := fixup.apply .riscv linkage contents
      (StandsFor .riscv fixup.kind .branch12 →
        (Overflows outcome ↔ ¬InRange (-2 ^ 12) (2 ^ 12) displacement)) ∧
      (StandsFor .riscv fixup.kind .jump20 →
        (Overflows outcome ↔ ¬InRange (-2 ^ 20) (2 ^ 20) displacement)) ∧
      (StandsFor .riscv fixup.kind .high20 →
        (Overflows outcome ↔ ¬InRange (-2 ^ 31 - 0x800) (2 ^ 31 - 0x800) target)) ∧
      (StandsFor .riscv fixup.kind .relativeHigh20 →
        (Overflows outcome ↔ ¬InRange (-2 ^ 31 - 0x800) (2 ^ 31 - 0x800) displacement))) := by
  refine ⟨?_, ?_, ?_, fun branch => branch.read_branch12, fun jump => jump.read_jump20,
    fun form application site listed => application.rest_eq listed, ?_⟩
  · intro layout upper lower same
    rw [upper.read_high20.2, lower.read_low12, same, high_add_low upper.read_high20.1]
  · intro layout upper between lower later names kept
    have noted : lower.linkage.upperHalf? lower.fixup.symbol = some upper.displacement := by
      rw [later, names, Linkage.upperHalf?_through kept, upper.upperHalf?_after]
    have read := (lower.encodes_relativeLow12 noted).read_lower
    rw [upper.read_relativeHigh20.2, read, high_add_low upper.read_relativeHigh20.1]
  · intro call
    rcases call.read_callPair with ⟨landing, sum, near, far⟩
    refine ⟨landing, sum, ?_, ?_⟩
    · exact fun within => near ((fitsHighLow_iff_inRange _).mpr within)
    · exact fun beyond => far (Bool.eq_false_iff.mpr (mt (fitsHighLow_iff_inRange _).mp beyond))
  · intro fixup linkage contents target displacement outcome
    refine ⟨?_, ?_, ?_, ?_⟩ <;> intro known
    · exact (overflows_iff (standsFor_iff.mp known) rfl).trans
        (not_congr (fitsSigned_iff_inRange 13 _))
    · exact (overflows_iff (standsFor_iff.mp known) rfl).trans
        (not_congr (fitsSigned_iff_inRange 21 _))
    · exact (overflows_iff (standsFor_iff.mp known) rfl).trans
        (not_congr (fitsHighLow_iff_inRange _))
    · exact (overflows_iff (standsFor_iff.mp known) rfl).trans
        (not_congr (fitsHighLow_iff_inRange _))

/-- The halves of a displacement in two sections, with a failure and another upper half in
between.  The lower half is negative. -/
theorem riscv_immediates_recomputed_apart :
    ∃ (upper : Application .riscv .relativeHigh20)
      (lower : Application .riscv (.relativeLow12 .store)),
      upper.left 0 = 0x00002517#32 ∧ lower.left 0 = 0x80b53023#32 ∧
      Format.upper.read (upper.left 0) + (Format.lower .store).read (lower.left 0) =
        upper.displacement ∧ upper.displacement = 0x1800#64 := by
  let place : Word := 0xffffffffa0001000
  let upper : Application .riscv .relativeHigh20 :=
    { fixup := { kind := 23, offset := 0, place, symbol := place + 0x1800, addend := 0 }
      linkage := {}
      contents := Endian.bytes 4 0x00000517
      after := { upperHalves := [(place, 0x1800)] }
      patched := Endian.bytes 4 0x00002517
      known := by decide
      applied := by decide }
  let between : List Attempt :=
    [⟨.riscv, { kind := 999, offset := 0, place, symbol := 0, addend := 0 }, []⟩,
      ⟨.riscv, { kind := 23, offset := 0, place := place + 8, symbol := place, addend := 0 },
        Endian.bytes 4 0x00000517⟩]
  let lower : Application .riscv (.relativeLow12 .store) :=
    { fixup := { kind := 25, offset := 4, place := 0x4004, symbol := place, addend := 0 }
      linkage := upper.after.through between
      contents := Endian.bytes 8 0x00b5302300000000
      after := upper.after.through between
      patched := Endian.bytes 8 0x80b5302300000000
      known := by decide
      applied := by decide }
  have kept : ∀ attempt ∈ between, ¬attempt.Renews upper.fixup.place := by
    intro attempt listed
    simp only [between, List.mem_cons, List.not_mem_nil, or_false] at listed
    rcases listed with rfl | rfl
    · exact fun renews => absurd renews.1 (by decide)
    · exact fun renews => absurd renews.2 (by decide)
  have later : lower.linkage = upper.after.through between := by decide
  exact ⟨upper, lower, by decide, by decide,
    riscv_immediates_recomputed.2.1 .store upper between lower later rfl kept, by decide⟩

/-- From patched AArch64 instructions the processor gets the displacement in words, the page and
the offset in it that the fixups stand for, the offset in units of the access.  What is not an
immediate stays, and a page overflows just when it is out of reach. -/
theorem aarch64_immediates_recomputed :
    -- branches that reach their target themselves
    (∀ call : Application .aarch64 .branch26, InRange (-2 ^ 27) (2 ^ 27) call.displacement →
      Format.branch.read (call.left 0) = call.displacement &&& ~~~3#64) ∧
    -- pages of addresses
    (∀ page : Application .aarch64 .page21,
      pageOf page.fixup.place + Format.page.read (page.left 0) = pageOf page.target) ∧
    -- offsets in a page, which make up the address
    (∀ add : Application .aarch64 .pageOffsetAdd,
      ((Format.pageOffset 0).read (add.left 0)).toNat = add.target.toNat % 4096) ∧
    (∀ (page : Application .aarch64 .page21) (add : Application .aarch64 .pageOffsetAdd),
      add.target = page.target →
      pageOf page.fixup.place + Format.page.read (page.left 0) +
        (Format.pageOffset 0).read (add.left 0) = page.target) ∧
    (∀ (scale : Nat) (access : Application .aarch64 (.pageOffsetAccess scale)),
      ((Format.pageOffset scale).read (access.left 0)).toNat =
        access.target.toNat % 4096 / 2 ^ scale * 2 ^ scale) ∧
    -- all other bits
    (∀ (form : Form) (application : Application .aarch64 form), ∀ site ∈ form.sites,
      application.left site.1 &&& site.2.rest = application.found site.1 &&& site.2.rest) ∧
    -- pages out of reach
    (∀ (fixup : Fixup) (linkage : Linkage) (contents : List UInt8),
      let pages := (pageOf (fixup.symbol + fixup.addend) - pageOf fixup.place).toInt / 4096
      StandsFor .aarch64 fixup.kind .page21 →
      (Overflows (fixup.apply .aarch64 linkage contents) ↔
        ¬(-2 ^ 20 ≤ pages ∧ pages < 2 ^ 20))) := by
  refine ⟨?_, fun page => page.read_page21, fun add => add.read_pageOffsetAdd, ?_,
    fun scale access => access.read_pageOffsetAccess,
    fun form application site listed => application.rest_eq listed, ?_⟩
  · intro call near
    exact call.read_branch26 ((fitsSigned_iff_inRange 28 _).mpr near)
  · intro page add same
    have page' := toNat_pageOf page.target
    have offset := add.read_pageOffsetAdd
    rw [same] at offset
    rw [page.read_page21]
    apply BitVec.eq_of_toNat_eq
    rw [BitVec.toNat_add, page', offset, Nat.div_add_mod', Nat.mod_eq_of_lt page.target.isLt]
  · intro fixup linkage contents pages known
    refine (overflows_iff (standsFor_iff.mp known) rfl).trans (not_congr ?_)
    rw [fitsSigned_iff, BitVec.toInt_sshiftRight, Int.shiftRight_eq_div_pow]
    rfl

/-- The two halves of an address five pages on. -/
theorem aarch64_immediates_recomputed_pair :
    ∃ (page : Application .aarch64 .page21) (add : Application .aarch64 .pageOffsetAdd),
      page.left 0 = 0xb0000020#32 ∧ add.left 0 = 0x91048c00#32 ∧
      pageOf page.fixup.place + Format.page.read (page.left 0) +
        (Format.pageOffset 0).read (add.left 0) = page.target ∧
      page.target = 0xffffffffa0006123#64 := by
  let page : Application .aarch64 .page21 :=
    { fixup :=
        { kind := 275, offset := 0, place := 0xffffffffa0001004, symbol := 0xffffffffa0006100
          addend := 0x23 }
      linkage := {}
      contents := Endian.bytes 4 0x90000000
      after := {}
      patched := Endian.bytes 4 0xb0000020
      known := by decide
      applied := by decide }
  let add : Application .aarch64 .pageOffsetAdd :=
    { fixup := { page.fixup with kind := 277, place := 0xffffffffa0001008 }
      linkage := {}
      contents := Endian.bytes 4 0x91000000
      after := {}
      patched := Endian.bytes 4 0x91048c00
      known := by decide
      applied := by decide }
  exact ⟨page, add, by decide, by decide,
    aarch64_immediates_recomputed.2.2.2.1 page add rfl, by decide⟩

end Fixup
end ModuleHost
