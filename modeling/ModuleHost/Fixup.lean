import ModuleHost.Fixup.Patch
import ModuleHost.Fixup.Stub

namespace ModuleHost

/-!
# Fixups

A fixup is a relocation whose symbol has been given an address: it says what to
write at which place.  Applying one computes a patch from the relocation's form
and makes it in the bytes of the section.

Two things are remembered from one fixup to the next in a module.  Calls out of
reach share the stubs of the module's page.  On RISC-V the lower half of a
displacement is computed from the upper half it refers to, so every upper half is
noted with its place once it has been written.
-/

/-- A relocation with resolved symbol. -/
structure Fixup where
  kind : UInt32
  /-- Where to write, counted from the start of the section. -/
  offset : Nat
  /-- The address of that byte at run time. -/
  place : Word
  /-- The address of the symbol. -/
  symbol : Word
  addend : Word
  deriving DecidableEq, Repr

namespace Fixup

/-- The value lies in the range of a signed field of `bits` bits. -/
def fitsSigned (bits : Nat) (value : Word) : Bool :=
  let half := Int.ofNat (1 <<< (bits - 1))
  value.toInt < half && -half ≤ value.toInt

/-- A 32-bit field widened this way gives the value back. -/
def Extension.holds : Extension → Word → Bool
  | .signed, value => fitsSigned 32 value
  | .unsigned, value => value.toNat < 0x100000000
  | .either, value => fitsSigned 32 value || value.toNat < 0x100000000

/-- What is remembered between the fixups of a module. -/
structure Linkage where
  /-- The module's stubs, if it has a page for them. -/
  stubs : Option StubTable := none
  /-- Places and displacements of the upper halves written so far, newest first. -/
  upperHalves : List (Word × Word) := []
  deriving DecidableEq, Repr

namespace Linkage

/-- The stub that leads to a target. -/
def stubFor (linkage : Linkage) (target : Word) : Except FixupError (Linkage × Word) :=
  match linkage.stubs with
  | none => .error .noStubs
  | some table =>
    match table.stubFor target with
    | .error error => .error error
    | .ok (table, address) =>
      .ok ({ linkage with stubs := some table }, BitVec.ofNat 64 address)

/-- The displacement of the newest upper half written at a place. -/
def upperHalf? (linkage : Linkage) (place : Word) : Option Word :=
  (linkage.upperHalves.find? fun entry => entry.1 = place).map Prod.snd

/-- How many stubs there are. -/
def stubCount (linkage : Linkage) : Nat :=
  (linkage.stubs.map (·.targets.length)).getD 0

/-- The reports of the stubs made since there were `before` of them. -/
def noticesSince (linkage : Linkage) (before : Nat) : List Notice :=
  (linkage.stubs.map (·.noticesSince before)).getD []

end Linkage

/-- The field value of a call that reaches `destination`: directly if the
displacement fits, else by way of a stub, whose displacement must fit.  `bias` is
added to either displacement. -/
def route (fixup : Fixup) (linkage : Linkage) (destination bias : Word) (fits : Word → Bool) :
    Linkage × Except FixupError Word :=
  let direct := destination + bias - fixup.place
  if fits direct then (linkage, .ok direct)
  else
    match linkage.stubFor destination with
    | .error error => (linkage, .error error)
    | .ok (linkage, stub) =>
      let detour := stub + bias - fixup.place
      if fits detour then (linkage, .ok detour)
      else (linkage, .error (.overflow fixup.kind detour))

/-- The value, if it fits. -/
def fitting (fixup : Fixup) (value : Word) (fits : Word → Bool) : Except FixupError Word :=
  if fits value then .ok value else .error (.overflow fixup.kind value)

/-- An upper and a signed lower part of 12 bits reach the value. -/
def fitsHighLow (value : Word) : Bool :=
  fitsSigned 32 (value + 0x800#64)

/-- The start of the page that an address lies in. -/
def pageOf (address : Word) : Word :=
  address &&& ~~~ 0xfff#64

/-- The patch that a form asks for, with the stubs made on the way. -/
def plan (fixup : Fixup) (linkage : Linkage) (form : Form) : Linkage × Except FixupError Patch :=
  let target := fixup.symbol + fixup.addend
  let displacement := target - fixup.place
  match form with
  | .nothing => (linkage, .ok .keep)
  | .data64 relative =>
    let value := if relative then displacement else target
    (linkage, .ok (.store (Endian.bytes 8 value.toNat)))
  | .data32 relative extension =>
    let value := if relative then displacement else target
    (linkage, (fixup.fitting value extension.holds).map fun value =>
      .store (Endian.bytes 4 value.toNat))
  | .call32 =>
    let (linkage, value) := fixup.route linkage fixup.symbol fixup.addend (fitsSigned 32)
    (linkage, value.map fun value => .store (Endian.bytes 4 value.toNat))
  | .branch26 =>
    let (linkage, value) := fixup.route linkage target 0 (fitsSigned 28)
    (linkage, value.map fun value => .edit (·.withBranch26 value))
  | .page21 =>
    let pages := (pageOf target - pageOf fixup.place).sshiftRight 12
    (linkage, (fixup.fitting pages (fitsSigned 21)).map fun pages => .edit (·.withPage21 pages))
  | .pageOffsetAdd =>
    (linkage, .ok (.edit (·.withImmediate12 (target.extractLsb' 0 12))))
  | .pageOffsetAccess scale =>
    (linkage, .ok (.edit (·.withImmediate12 (target.extractLsb' 0 12 >>> scale))))
  | .branch12 =>
    (linkage, (fixup.fitting displacement (fitsSigned 13)).map fun value =>
      .edit (·.withBranch12 value))
  | .jump20 =>
    (linkage, (fixup.fitting displacement (fitsSigned 21)).map fun value =>
      .edit (·.withJump20 value))
  | .callPair =>
    let (linkage, value) := fixup.route linkage target 0 fitsHighLow
    (linkage, value.map fun value =>
      .editPair (·.withHigh20 value) (·.withLow12 .load value))
  | .high20 =>
    (linkage, (fixup.fitting target fitsHighLow).map fun value => .edit (·.withHigh20 value))
  | .low12 layout => (linkage, .ok (.edit (·.withLow12 layout target)))
  | .relativeHigh20 =>
    (linkage, (fixup.fitting displacement fitsHighLow).map fun value =>
      .edit (·.withHigh20 value))
  | .relativeLow12 layout =>
    match linkage.upperHalf? fixup.symbol with
    | none => (linkage, .error (.unpairedLow fixup.place))
    | some value => (linkage, .ok (.edit (·.withLow12 layout value)))

/-- What is noted once the patch of a form has been made. -/
def note (fixup : Fixup) (linkage : Linkage) (form : Form) : Linkage :=
  match form with
  | .relativeHigh20 =>
    let displacement := fixup.symbol + fixup.addend - fixup.place
    { linkage with upperHalves := (fixup.place, displacement) :: linkage.upperHalves }
  | _ => linkage

/-- Apply a fixup to the contents of its section.  On an error the contents stay as
they are; a stub made before the error stays too. -/
def apply (fixup : Fixup) (machine : Machine) (linkage : Linkage) (contents : List UInt8) :
    Linkage × Except FixupError (List UInt8) :=
  match Form.ofKind? machine fixup.kind with
  | none => (linkage, .error (.unsupported machine fixup.kind))
  | some form =>
    match fixup.plan linkage form with
    | (linkage, .error error) => (linkage, .error error)
    | (linkage, .ok patch) =>
      match patch.make? contents fixup.offset with
      | none => (linkage, .error (.outOfBounds fixup.offset))
      | some contents => (fixup.note linkage form, .ok contents)

/-- The reports of an application: the stub it made, then its error. -/
def notices (before : Linkage) (after : Linkage × Except FixupError (List UInt8)) : List Notice :=
  after.1.noticesSince before.stubCount ++
    match after.2 with
    | .error error => error.notices
    | .ok _ => []

end Fixup

end ModuleHost
