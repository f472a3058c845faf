import ModuleHost.Proofs.Fixup.Outcome
import ModuleHost.Proofs.Fixup.StubPage
import ModuleHost.Proofs.Program

namespace ModuleHost
namespace Fixup

/-!
# Fixups in place

Here a fixup changes the bytes of its section, the page of stubs and the list of upper halves
where they are, store by store, so that a store that has been made before a failure would stay.
Each program checks in the same order as its form is planned, and stores behind its last check;
a RISC-V call stores twice.  What comes of it is what the function says, and the bytes are those
that the function returns, or all of the old ones.
-/

open Program

namespace Patch

/-- What is behind the bytes that were put in is found as before. -/
theorem slice_splice_behind {contents bytes : List UInt8} {offset : Nat}
    (inside : offset + bytes.length ≤ contents.length) (count : Nat) :
    Endian.slice (splice contents offset bytes) (offset + bytes.length) count =
      Endian.slice contents (offset + bytes.length) count :=
  slice_congr fun index lower _ => by
    rw [getElem?_splice inside, if_neg fun within => Nat.not_lt_of_le lower within.2]

theorem splice_splice {contents first : List UInt8} {offset : Nat}
    (inside : offset + first.length ≤ contents.length) (second : List UInt8) :
    splice (splice contents offset first) (offset + first.length) second =
      splice contents offset (first ++ second) := by
  have front : (contents.take offset ++ first).length = offset + first.length := by
    rw [List.length_append, List.length_take_of_le (by omega)]
  have taken : (splice contents offset first).take (offset + first.length) =
      contents.take offset ++ first := by
    rw [splice, List.take_left' front]
  have dropped : (splice contents offset first).drop (offset + first.length + second.length) =
      contents.drop (offset + (first ++ second).length) := by
    rw [splice, ← List.drop_drop, List.drop_left' front, List.drop_drop, List.length_append,
      Nat.add_assoc]
  rw [splice, taken, dropped, splice, List.append_assoc (contents.take offset)]

end Patch

/-- What fixups find and change. -/
structure Site (stubMachine : Machine) (base : Address) where
  stubs : Option (StubPage stubMachine base) := none
  /-- Places and displacements of the upper halves written so far, newest first. -/
  upperHalves : List (Word × Word) := []
  /-- The bytes of the section. -/
  contents : List UInt8

/-- A program that changes a site where it is, and may fail. -/
abbrev InPlace (stubMachine : Machine) (base : Address) :=
  Program (Site stubMachine base) FixupError

variable {stubMachine : Machine} {base : Address}

namespace Site

/-- What a linkage keeps of the site. -/
def linkage (site : Site stubMachine base) : Linkage where
  stubs := site.stubs.map StubPage.table
  upperHalves := site.upperHalves

/-- The page of stubs, if there is one, holds its stubs and is otherwise as it was `before`. -/
def Sound (before : Memory) (site : Site stubMachine base) : Prop :=
  ∀ page, site.stubs = some page → page.Sound before

/-- The page of stubs has been asked for one of them, or not at all. -/
def Asks (site after : Site stubMachine base) : Prop :=
  after.stubs = site.stubs ∨
    ∃ page target, site.stubs = some page ∧ after.stubs = some (page.ask target).1

/-- Make a patch in the section. -/
def make (site : Site stubMachine base) (patch : Patch) (offset : Nat) :
    Except FixupError Unit × Site stubMachine base :=
  match patch.make? site.contents offset with
  | none => (.error (.outOfBounds offset), site)
  | some contents => (.ok (), { site with contents })

variable {before : Memory} {site after : Site stubMachine base}

theorem Sound.asks (sound : site.Sound before) (asks : site.Asks after) : after.Sound before := by
  rcases asks with same | ⟨page, target, found, asked⟩
  · exact fun page found => sound page (same ▸ found)
  · intro page' found'
    rw [asked, Option.some.injEq] at found'
    exact found' ▸ (sound page found).ask target

end Site

/-! ## The programs -/

namespace InPlace

/-- The bytes of the section from an offset on, if all of them are there. -/
def field (offset count : Nat) : InPlace stubMachine base (List UInt8) := do
  let contents := (← get).contents
  if offset + count ≤ contents.length then return Endian.slice contents offset count
  else throw (.outOfBounds offset)

/-- Put bytes in the place of others, wherever that is. -/
def put (offset : Nat) (bytes : List UInt8) : InPlace stubMachine base Unit :=
  modify fun site => { site with contents := Patch.splice site.contents offset bytes }

/-- Put bytes in the place of others that are there. -/
def write (offset : Nat) (bytes : List UInt8) : InPlace stubMachine base Unit := do
  let _ ← field offset bytes.length
  put offset bytes

/-- Change the instruction at an offset. -/
def edit (offset : Nat) (change : Instruction → Instruction) : InPlace stubMachine base Unit := do
  let bytes ← field offset 4
  put offset (Endian.bytes 4 (change (BitVec.ofNat 32 (Endian.value bytes))).toNat)

/-- Change two instructions.  The first one is not changed unless the second one is there. -/
def editPair (offset : Nat) (first second : Instruction → Instruction) :
    InPlace stubMachine base Unit := do
  let _ ← field offset 8
  edit offset first
  edit (offset + 4) second

/-- Put an upper half into an instruction and note it with its place. -/
def putUpper (fixup : Fixup) (value : Word) : InPlace stubMachine base Unit := do
  edit fixup.offset (·.withHigh20 value)
  modify fun site => { site with upperHalves := (fixup.place, value) :: site.upperHalves }

/-- The address of the stub for a target, put into the page if there is none yet. -/
def stubFor (target : Word) : InPlace stubMachine base Word := do
  match (← get).stubs with
  | none => throw .noStubs
  | some page =>
    let (page, answer) := page.ask target
    modify fun site => { site with stubs := some page }
    match answer with
    | .ok address => return BitVec.ofNat 64 address
    | .error error => throw error

/-- The value, if it fits. -/
def check (fixup : Fixup) (value : Word) (fits : Word → Bool) : InPlace stubMachine base Word :=
  if fits value then return value else throw (.overflow fixup.kind value)

/-- The displacement to a destination, or else to its stub. -/
def reach (fixup : Fixup) (destination bias : Word) (fits : Word → Bool) :
    InPlace stubMachine base Word := do
  let direct := destination + bias - fixup.place
  if fits direct then return direct
  else
    let stub ← stubFor destination
    check fixup (stub + bias - fixup.place) fits

/-- Change the section as the form asks for. -/
def perform (fixup : Fixup) (form : Form) : InPlace stubMachine base Unit :=
  let target := fixup.symbol + fixup.addend
  let displacement := target - fixup.place
  match form with
  | .nothing => return
  | .data64 relative =>
    write fixup.offset (Endian.bytes 8 (if relative then displacement else target).toNat)
  | .data32 relative extension => do
    let value ← check fixup (if relative then displacement else target) extension.holds
    write fixup.offset (Endian.bytes 4 value.toNat)
  | .call32 => do
    let value ← reach fixup fixup.symbol fixup.addend (fitsSigned 32)
    write fixup.offset (Endian.bytes 4 value.toNat)
  | .branch26 => do
    let value ← reach fixup target 0 (fitsSigned 28)
    edit fixup.offset (·.withBranch26 value)
  | .page21 => do
    let pages ← check fixup ((pageOf target - pageOf fixup.place).sshiftRight 12) (fitsSigned 21)
    edit fixup.offset (·.withPage21 pages)
  | .pageOffsetAdd => edit fixup.offset (·.withImmediate12 (target.extractLsb' 0 12))
  | .pageOffsetAccess scale =>
    edit fixup.offset (·.withImmediate12 (target.extractLsb' 0 12 >>> scale))
  | .branch12 => do
    let value ← check fixup displacement (fitsSigned 13)
    edit fixup.offset (·.withBranch12 value)
  | .jump20 => do
    let value ← check fixup displacement (fitsSigned 21)
    edit fixup.offset (·.withJump20 value)
  | .callPair => do
    let value ← reach fixup target 0 fitsHighLow
    editPair fixup.offset (·.withHigh20 value) (·.withLow12 .load value)
  | .high20 => do
    let value ← check fixup target fitsHighLow
    edit fixup.offset (·.withHigh20 value)
  | .low12 layout => edit fixup.offset (·.withLow12 layout target)
  | .relativeHigh20 => do
    let value ← check fixup displacement fitsHighLow
    putUpper fixup value
  | .relativeLow12 layout => do
    match (← get).linkage.upperHalf? fixup.symbol with
    | none => throw (.unpairedLow fixup.place)
    | some value => edit fixup.offset (·.withLow12 layout value)

/-- Apply a fixup to the section. -/
def apply (machine : Machine) (fixup : Fixup) : InPlace stubMachine base Unit :=
  match Form.ofKind? machine fixup.kind with
  | none => throw (.unsupported machine fixup.kind)
  | some form => perform fixup form

/-- Apply one fixup after the other. -/
def applyAll (machine : Machine) : List Fixup → InPlace stubMachine base Unit
  | [] => return
  | fixup :: rest => do
    apply machine fixup
    applyAll machine rest

end InPlace

/-! ## Patches -/

variable {site after : Site stubMachine base} {patch : Patch} {offset count : Nat}

theorem Site.make_of_inside (inside : offset + patch.width ≤ site.contents.length) :
    site.make patch offset = (.ok (), { site with
      contents := Patch.splice site.contents offset
        (patch.replacement site.contents offset) }) := by
  unfold Site.make
  cases patch with
  | keep =>
      simp only [Patch.make?, Patch.replacement, Patch.splice, List.append_nil, List.length_nil,
        Nat.add_zero, List.take_append_drop]
  | _ => simp only [Patch.make?, if_pos inside]

theorem Site.make_of_beyond (patch : Patch) (writes : 0 < patch.width)
    (beyond : ¬offset + patch.width ≤ site.contents.length) :
    site.make patch offset = (.error (.outOfBounds offset), site) := by
  unfold Site.make
  cases patch with
  | keep => exact absurd writes (Nat.lt_irrefl 0)
  | _ => simp only [Patch.make?, if_neg beyond]

theorem exec_field_of_inside (inside : offset + count ≤ site.contents.length) :
    exec (InPlace.field offset count) site =
      (.ok (Endian.slice site.contents offset count), site) := by
  rw [InPlace.field, exec_bind, exec_get]
  simp only [if_pos inside, exec_pure]

theorem exec_field_of_beyond (beyond : ¬offset + count ≤ site.contents.length) :
    exec (InPlace.field offset count) site = (.error (.outOfBounds offset), site) := by
  rw [InPlace.field, exec_bind, exec_get]
  simp only [if_neg beyond, exec_throw]

theorem exec_write (site : Site stubMachine base) (offset : Nat) {bytes : List UInt8}
    (some_bytes : 0 < bytes.length) :
    exec (InPlace.write offset bytes) site = site.make (.store bytes) offset := by
  rw [InPlace.write, exec_bind]
  by_cases inside : offset + bytes.length ≤ site.contents.length
  · rw [exec_field_of_inside inside, Site.make_of_inside inside]
    rfl
  · rw [exec_field_of_beyond inside, Site.make_of_beyond (.store bytes) some_bytes inside]

theorem exec_edit (site : Site stubMachine base) (offset : Nat)
    (change : Instruction → Instruction) :
    exec (InPlace.edit offset change) site = site.make (.edit change) offset := by
  rw [InPlace.edit, exec_bind]
  by_cases inside : offset + (Patch.edit change).width ≤ site.contents.length
  · have inside' : offset + 4 ≤ site.contents.length := inside
    rw [exec_field_of_inside inside', Site.make_of_inside inside]
    rfl
  · have beyond : ¬offset + 4 ≤ site.contents.length := inside
    rw [exec_field_of_beyond beyond, Site.make_of_beyond (.edit change) (by decide : 0 < 4) inside]

/-- Two instructions are changed one after the other, or neither is. -/
theorem exec_editPair (site : Site stubMachine base) (offset : Nat)
    (first second : Instruction → Instruction) :
    exec (InPlace.editPair offset first second) site =
      site.make (.editPair first second) offset := by
  rw [InPlace.editPair, exec_bind]
  by_cases inside : offset + (Patch.editPair first second).width ≤ site.contents.length
  · have both : offset + 8 ≤ site.contents.length := inside
    have front : offset + (Patch.edit first).width ≤ site.contents.length :=
      Nat.le_trans (Nat.add_le_add_left (by decide : 4 ≤ 8) _) both
    have left := Patch.length_replacement (.edit first) site.contents offset
    have length : (Patch.splice site.contents offset
        (Patch.replacement (.edit first) site.contents offset)).length = site.contents.length :=
      Patch.length_splice (left ▸ front)
    have back : offset + 4 + (Patch.edit second).width ≤ (Patch.splice site.contents offset
        (Patch.replacement (.edit first) site.contents offset)).length := by
      rw [length]
      exact both
    rw [exec_field_of_inside both, Site.make_of_inside inside]
    simp only
    rw [exec_bind, exec_edit, Site.make_of_inside front]
    simp only
    rw [exec_edit, Site.make_of_inside back]
    -- The second instruction is found as it was before the first one was changed.
    have found := Patch.replacement_congr (.edit second)
      (Patch.slice_splice_behind (left ▸ front) 4)
    rw [left] at found
    have merged := Patch.splice_splice (left ▸ front)
      ((Patch.edit second).replacement site.contents (offset + 4))
    rw [left] at merged
    simp only [Patch.width] at found merged
    rw [found, merged]
    rfl
  · have beyond : ¬offset + 8 ≤ site.contents.length := inside
    rw [exec_field_of_beyond beyond,
      Site.make_of_beyond (.editPair first second) (by decide : 0 < 8) inside]

/-! ## Values -/

/-- A part of a program has come to what a function says and has not touched the section. -/
structure ComesTo {Result : Type} (site : Site stubMachine base)
    (said : Linkage × Except FixupError Result)
    (ran : Except FixupError Result × Site stubMachine base) : Prop where
  outcome : ran.1 = said.2
  linkage : ran.2.linkage = said.1
  contents : ran.2.contents = site.contents
  asks : site.Asks ran.2

variable {before : Memory} {fixup : Fixup} {form : Form}

theorem exec_check (site : Site stubMachine base) (fixup : Fixup) (value : Word)
    (fits : Word → Bool) :
    exec (InPlace.check fixup value fits) site = (fixup.fitting value fits, site) := by
  unfold InPlace.check fitting
  split <;> rfl

/-- A stub that is asked for is the one that a table would give. -/
theorem exec_stubFor (sound : site.Sound before) (target : Word) :
    let ran := exec (InPlace.stubFor target) site
    site.linkage.stubFor target = ran.1.map (fun stub => (ran.2.linkage, stub)) ∧
      (∀ error, ran.1 = .error error → ran.2.linkage = site.linkage) ∧
      ran.2.contents = site.contents ∧ site.Asks ran.2 := by
  rcases site with ⟨stubs, upperHalves, contents⟩
  cases stubs with
  | none => exact ⟨rfl, fun _ _ => rfl, rfl, .inl rfl⟩
  | some page =>
      have answers := (sound page rfl).stubFor_eq target
      cases asked : page.ask target with
      | mk page' answer =>
          have ran : exec (InPlace.stubFor target) ⟨some page, upperHalves, contents⟩ =
              (answer.map (BitVec.ofNat 64), ⟨some page', upperHalves, contents⟩) := by
            rw [InPlace.stubFor, exec_bind, exec_get]
            simp only [asked]
            rw [exec_bind, exec_modify]
            cases answer <;> rfl
          have asks : Site.Asks ⟨some page, upperHalves, contents⟩
              ⟨some page', upperHalves, contents⟩ :=
            .inr ⟨page, target, rfl, by rw [asked]⟩
          simp only [Linkage.stubFor, Site.linkage, Option.map_some, answers, asked, ran]
          cases answer with
          | ok address =>
              refine ⟨rfl, fun error refused => ?_, trivial, asks⟩
              cases refused
          | error error =>
              refine ⟨rfl, fun _ _ => ?_, trivial, asks⟩
              rcases StubPage.of_ask_error (congrArg Prod.snd asked) with ⟨_, new, full⟩
              rw [StubPage.ask_of_full new full] at asked
              rw [(Prod.mk.inj asked).1]

theorem comesTo_reach (sound : site.Sound before) (fixup : Fixup) (destination bias : Word)
    (fits : Word → Bool) :
    ComesTo site (fixup.route site.linkage destination bias fits)
      (exec (InPlace.reach fixup destination bias fits) site) := by
  unfold InPlace.reach route
  simp only
  by_cases near : fits (destination + bias - fixup.place) = true
  · rw [if_pos near, if_pos near]
    exact ⟨rfl, rfl, rfl, .inl rfl⟩
  · have asked := exec_stubFor sound destination
    rw [if_neg near, if_neg near, exec_bind]
    cases made : exec (InPlace.stubFor destination) site with
    | mk answer left =>
        rw [made] at asked
        rcases asked with ⟨table, unchanged, contents, asks⟩
        cases answer with
        | error error =>
            simp only [table, Except.map]
            exact ⟨rfl, unchanged error rfl, contents, asks⟩
        | ok stub =>
            simp only [table, Except.map, exec_check, fitting]
            split <;> exact ⟨rfl, rfl, contents, asks⟩

/-! ## Forms -/

/-- Make what was planned, and note an upper half that was written. -/
def Site.finish (site : Site stubMachine base) (fixup : Fixup) (form : Form) :
    Except FixupError Patch → Except FixupError Unit × Site stubMachine base
  | .error error => (.error error, site)
  | .ok patch =>
    match patch.make? site.contents fixup.offset with
    | none => (.error (.outOfBounds fixup.offset), site)
    | some contents => (.ok (), { site with
        contents, upperHalves := (fixup.note site.linkage form).upperHalves })

theorem Site.finish_of_quiet (patch : Patch)
    (quiet : (fixup.note site.linkage form).upperHalves = site.upperHalves) :
    site.finish fixup form (.ok patch) = site.make patch fixup.offset := by
  unfold Site.finish Site.make
  rw [quiet]

/-- A form is performed as it is planned: the stub that it needs is there, and then its patch is
made. -/
structure Performs (fixup : Fixup) (form : Form) (site planned : Site stubMachine base) :
    Prop where
  linkage : planned.linkage = (fixup.plan site.linkage form).1
  contents : planned.contents = site.contents
  asks : site.Asks planned
  ran : exec (InPlace.perform fixup form) site =
    planned.finish fixup form (fixup.plan site.linkage form).2

theorem performs_of_patch (patch : Patch)
    (plans : fixup.plan site.linkage form = (site.linkage, .ok patch))
    (ran : exec (InPlace.perform fixup form) site = site.make patch fixup.offset)
    (quiet : (fixup.note site.linkage form).upperHalves = site.upperHalves) :
    Performs fixup form site site :=
  ⟨by rw [plans], rfl, .inl rfl, by rw [ran, plans, Site.finish_of_quiet patch quiet]⟩

/-- An instruction that is changed without a check. -/
theorem performs_of_edit (change : Instruction → Instruction)
    (program : (InPlace.perform fixup form : InPlace stubMachine base Unit) =
      InPlace.edit fixup.offset change)
    (plans : fixup.plan site.linkage form = (site.linkage, .ok (.edit change)))
    (quiet : (fixup.note site.linkage form).upperHalves = site.upperHalves) :
    Performs fixup form site site :=
  performs_of_patch (.edit change) plans (program ▸ exec_edit site _ change) quiet

/-- A value that is checked, and what is done with it. -/
theorem performs_of_check (value : Word) (fits : Word → Bool) (make : Word → Patch)
    (store : Word → InPlace stubMachine base Unit)
    (program : InPlace.perform fixup form = InPlace.check fixup value fits >>= store)
    (plans : fixup.plan site.linkage form =
      (site.linkage, (fixup.fitting value fits).map make))
    (stores : exec (store value) site = site.finish fixup form (.ok (make value))) :
    Performs fixup form site site := by
  refine ⟨by rw [plans], rfl, .inl rfl, ?_⟩
  rw [program, plans, exec_bind, exec_check]
  by_cases fitting : fits value = true
  · rw [show fixup.fitting value fits = .ok value from if_pos fitting]
    exact stores
  · rw [Fixup.fitting, if_neg fitting]
    rfl

/-- A call that finds its way, and what is done with the displacement. -/
theorem performs_of_reach (sound : site.Sound before) (destination bias : Word)
    (fits : Word → Bool) (make : Word → Patch) (store : Word → InPlace stubMachine base Unit)
    (program : InPlace.perform fixup form = InPlace.reach fixup destination bias fits >>= store)
    (plans : fixup.plan site.linkage form =
      ((fixup.route site.linkage destination bias fits).1,
        (fixup.route site.linkage destination bias fits).2.map make))
    (stores : ∀ value (planned : Site stubMachine base),
      exec (store value) planned = planned.finish fixup form (.ok (make value))) :
    ∃ planned, Performs fixup form site planned := by
  have found := comesTo_reach sound fixup destination bias fits
  rcases ran : exec (InPlace.reach fixup destination bias fits) site with ⟨answer, planned⟩
  rw [ran] at found
  refine ⟨planned, ?_, found.contents, found.asks, ?_⟩
  · rw [plans]
    exact found.linkage
  · rw [program, plans, exec_bind, ran, ← found.outcome]
    cases answer with
    | error error => rfl
    | ok value => exact stores value planned

/-- An instruction that is changed to hold a value. -/
theorem performs_of_checked_edit (value : Word) (fits : Word → Bool)
    (change : Word → Instruction → Instruction)
    (program : (InPlace.perform fixup form : InPlace stubMachine base Unit) =
      InPlace.check fixup value fits >>= fun value => InPlace.edit fixup.offset (change value))
    (plans : fixup.plan site.linkage form =
      (site.linkage, (fixup.fitting value fits).map fun value => .edit (change value)))
    (quiet : (fixup.note site.linkage form).upperHalves = site.upperHalves) :
    Performs fixup form site site := by
  refine performs_of_check value fits (fun value => .edit (change value)) _ program plans ?_
  rw [Site.finish_of_quiet _ quiet]
  exact exec_edit site _ _

theorem exists_performs (sound : site.Sound before) (fixup : Fixup) (form : Form) :
    ∃ planned, Performs fixup form site planned := by
  have written (count number : Nat) (planned : Site stubMachine base) (positive : 0 < count) :
      exec (InPlace.write fixup.offset (Endian.bytes count number)) planned =
        planned.make (.store (Endian.bytes count number)) fixup.offset :=
    exec_write _ _ (by rwa [Endian.length_bytes])
  cases form with
  | nothing => exact ⟨site, performs_of_patch .keep rfl rfl rfl⟩
  | data64 relative =>
      exact ⟨site, performs_of_patch _ rfl (written 8 _ site (by decide)) rfl⟩
  | data32 relative extension =>
      refine ⟨site, performs_of_check _ extension.holds
        (fun value => .store (Endian.bytes 4 value.toNat)) _ rfl rfl ?_⟩
      rw [Site.finish_of_quiet _ rfl]
      exact written 4 _ site (by decide)
  | call32 =>
      refine performs_of_reach sound fixup.symbol fixup.addend (fitsSigned 32)
        (fun value => .store (Endian.bytes 4 value.toNat)) _ rfl rfl fun value planned => ?_
      rw [Site.finish_of_quiet _ rfl]
      exact written 4 _ planned (by decide)
  | branch26 =>
      refine performs_of_reach sound (fixup.symbol + fixup.addend) 0 (fitsSigned 28)
        (fun value => .edit (·.withBranch26 value)) _ rfl rfl fun value planned => ?_
      rw [Site.finish_of_quiet _ rfl]
      exact exec_edit planned _ _
  | callPair =>
      refine performs_of_reach sound (fixup.symbol + fixup.addend) 0 fitsHighLow
        (fun value => .editPair (·.withHigh20 value) (·.withLow12 .load value))
        (fun value => InPlace.editPair fixup.offset (·.withHigh20 value) (·.withLow12 .load value))
        (by simp only [InPlace.perform]) (by simp only [plan]) fun value planned => ?_
      rw [Site.finish_of_quiet _ rfl]
      exact exec_editPair planned _ _ _
  | page21 =>
      exact ⟨site, performs_of_checked_edit _ (fitsSigned 21)
        (fun pages insn => insn.withPage21 pages) rfl rfl rfl⟩
  | branch12 =>
      exact ⟨site, performs_of_checked_edit _ (fitsSigned 13)
        (fun value insn => insn.withBranch12 value) rfl rfl rfl⟩
  | jump20 =>
      exact ⟨site, performs_of_checked_edit _ (fitsSigned 21)
        (fun value insn => insn.withJump20 value) rfl rfl rfl⟩
  | high20 =>
      exact ⟨site, performs_of_checked_edit (fixup.symbol + fixup.addend) fitsHighLow
        (fun value insn => insn.withHigh20 value) (by simp only [InPlace.perform])
        (by simp only [plan]) rfl⟩
  | pageOffsetAdd =>
      exact ⟨site, performs_of_edit
        (·.withImmediate12 ((fixup.symbol + fixup.addend).extractLsb' 0 12))
        (by simp only [InPlace.perform]) (by simp only [plan]) rfl⟩
  | pageOffsetAccess scale =>
      exact ⟨site, performs_of_edit
        (·.withImmediate12 ((fixup.symbol + fixup.addend).extractLsb' 0 12 >>> scale))
        (by simp only [InPlace.perform]) (by simp only [plan]) rfl⟩
  | low12 layout =>
      exact ⟨site, performs_of_edit (·.withLow12 layout (fixup.symbol + fixup.addend))
        (by simp only [InPlace.perform]) (by simp only [plan]) rfl⟩
  | relativeHigh20 =>
      refine ⟨site, performs_of_check (fixup.symbol + fixup.addend - fixup.place) fitsHighLow
        (fun value => .edit (·.withHigh20 value)) (InPlace.putUpper fixup)
        (by simp only [InPlace.perform]) (by simp only [plan]) ?_⟩
      rw [InPlace.putUpper, exec_bind, exec_edit, Site.make, Site.finish]
      cases Patch.make? (.edit (·.withHigh20 (fixup.symbol + fixup.addend - fixup.place)))
        site.contents fixup.offset <;> rfl
  | relativeLow12 layout =>
      have ran : exec (InPlace.perform fixup (.relativeLow12 layout)) site =
          site.finish fixup (.relativeLow12 layout)
            (fixup.plan site.linkage (.relativeLow12 layout)).2 := by
        simp only [InPlace.perform, plan]
        rw [exec_bind, exec_get]
        dsimp only
        cases site.linkage.upperHalf? fixup.symbol with
        | none => rfl
        | some value => exact (exec_edit site _ _).trans (Site.finish_of_quiet _ rfl).symm
      refine ⟨site, ?_, rfl, .inl rfl, ran⟩
      simp only [plan]
      split <;> rfl

/-! ## Fixups -/

/-- What a fixup does in place is what the function says; on an error the section is left as
it was. -/
structure Mirrors (machine : Machine) (fixup : Fixup) (site : Site stubMachine base)
    (outcome : Except FixupError Unit) (after : Site stubMachine base) : Prop where
  applied : fixup.apply machine site.linkage site.contents =
    (after.linkage, outcome.map fun _ => after.contents)
  contents : ∀ error, outcome = .error error → after.contents = site.contents
  asks : site.Asks after

variable {machine : Machine} {outcome : Except FixupError Unit}

theorem mirrors_of_exec (sound : site.Sound before)
    (ran : exec (InPlace.apply machine fixup) site = (outcome, after)) :
    Mirrors machine fixup site outcome after := by
  unfold InPlace.apply at ran
  cases known : Form.ofKind? machine fixup.kind with
  | none =>
      simp only [known, exec_throw] at ran
      cases ran
      exact ⟨by simp only [apply, known, Except.map], fun _ _ => rfl, .inl rfl⟩
  | some form =>
      rcases exists_performs sound fixup form with ⟨planned, performs⟩
      simp only [known, performs.ran] at ran
      have noted (contents : List UInt8) : Site.linkage
          { planned with contents, upperHalves := (fixup.note planned.linkage form).upperHalves } =
            fixup.note planned.linkage form := by
        cases form <;> rfl
      cases plans : fixup.plan site.linkage form with
      | mk left result =>
          have linkage := performs.linkage
          rw [plans] at ran linkage
          cases result with
          | error error =>
              cases ran
              refine ⟨?_, fun _ _ => performs.contents, performs.asks⟩
              simp only [apply, known, plans, Except.map, linkage]
          | ok patch =>
              simp only [Site.finish] at ran
              cases made : patch.make? planned.contents fixup.offset with
              | none =>
                  rw [made] at ran
                  cases ran
                  refine ⟨?_, fun _ _ => performs.contents, performs.asks⟩
                  simp only [apply, known, plans, ← performs.contents, made, Except.map, linkage]
              | some contents =>
                  rw [made] at ran
                  cases ran
                  refine ⟨?_, fun error refused => ?_, performs.asks⟩
                  · simp only [apply, known, plans, ← performs.contents, made, Except.map, noted]
                    rw [linkage]
                  · cases refused

end Fixup
end ModuleHost
