import ModuleHost.Object.Machine

namespace ModuleHost
namespace Fixup

/-!
# Relocation forms

A relocation kind is a machine's number for a form: which value is computed from
the symbol, the addend and the place, where its bits go, and which values fit.
Machines share the forms for data; the forms for instructions are their own.
-/

/-- How a 32-bit field is widened when it is read, hence which values it can hold. -/
inductive Extension
  | signed
  | unsigned
  /-- Either reading will do. -/
  | either
  deriving DecidableEq, Repr

/-- The two layouts of a 12-bit immediate on RISC-V. -/
inductive LowLayout
  | load
  | store
  deriving DecidableEq, Repr

/-- What a relocation does.  A form is relative when the place is subtracted. -/
inductive Form
  | nothing
  | data64 (relative : Bool)
  | data32 (relative : Bool) (extension : Extension)
  /-- The 32-bit displacement of an x86-64 call. -/
  | call32
  /-- The 26-bit displacement of an AArch64 branch. -/
  | branch26
  /-- The page displacement of an AArch64 address. -/
  | page21
  /-- The offset in the page, as AArch64 adds it. -/
  | pageOffsetAdd
  /-- The offset in the page, as AArch64 accesses of `2 ^ scale` bytes count it. -/
  | pageOffsetAccess (scale : Nat)
  /-- The displacement of a RISC-V conditional branch. -/
  | branch12
  /-- The displacement of a RISC-V jump. -/
  | jump20
  /-- The displacement of a RISC-V call, over two instructions. -/
  | callPair
  /-- The upper part of an address. -/
  | high20
  | low12 (layout : LowLayout)
  /-- The upper part of a displacement, which lower parts refer back to. -/
  | relativeHigh20
  | relativeLow12 (layout : LowLayout)
  deriving DecidableEq, Repr

namespace Form

/-- The forms that a machine's relocation kinds stand for. -/
def table : Machine → List (UInt32 × Form)
  | .x86_64 =>
    [(0, .nothing), (1, .data64 false), (2, .data32 true .signed), (4, .call32),
      (10, .data32 false .unsigned), (11, .data32 false .signed), (24, .data64 true)]
  | .aarch64 =>
    [(0, .nothing), (257, .data64 false), (258, .data32 false .either), (260, .data64 true),
      (261, .data32 true .signed), (275, .page21), (277, .pageOffsetAdd),
      (278, .pageOffsetAccess 0), (282, .branch26), (283, .branch26),
      (284, .pageOffsetAccess 1), (285, .pageOffsetAccess 2), (286, .pageOffsetAccess 3)]
  | .riscv =>
    [(0, .nothing), (1, .data32 false .either), (2, .data64 false), (16, .branch12),
      (17, .jump20), (18, .callPair), (19, .callPair), (23, .relativeHigh20),
      (24, .relativeLow12 .load), (25, .relativeLow12 .store), (26, .high20),
      (27, .low12 .load), (28, .low12 .store), (43, .nothing), (51, .nothing)]

/-- The form of a relocation kind. -/
def ofKind? (machine : Machine) (kind : UInt32) : Option Form :=
  ((table machine).find? fun entry => entry.1 = kind).map Prod.snd

/-- Whether the form transfers control, so that a stub may serve it. -/
def isCall : Form → Bool
  | call32 | branch26 | callPair => true
  | _ => false

end Form

/-- Whether a relocation kind of a machine is a call. -/
def isCall (machine : Machine) (kind : UInt32) : Bool :=
  (Form.ofKind? machine kind).any Form.isCall

end Fixup
end ModuleHost
