import Mathlib.Logic.Basic
import ModuleHost.Fixup
import ModuleHost.Proofs.Endian

namespace ModuleHost
namespace Fixup

/-!
# Fields of instructions and data

A field is described by where the bits of a value go: into a run of bytes, or into the
pieces of an instruction's immediate.  The descriptions are tables of bit positions, read
off the instruction formats; that the patches of the host follow them is proved here bit
by bit.
-/

/-- A run of bits of a value and its position in an instruction. -/
structure Piece where
  position : Nat
  source : Nat
  width : Nat
  deriving DecidableEq, Repr

/-- The bit of an instruction belongs to the piece. -/
def Piece.Has (piece : Piece) (bit : Nat) : Prop :=
  piece.position ≤ bit ∧ bit < piece.position + piece.width

/-- The pieces of an instruction hold a value, and its other bits are those of another
instruction. -/
structure Encodes (pieces : List Piece) (value : BitVec 64) (before after : Instruction) :
    Prop where
  inside : ∀ piece ∈ pieces, ∀ bit < piece.width,
    after.getLsbD (piece.position + bit) = value.getLsbD (piece.source + bit)
  outside : ∀ bit < 32, (∀ piece ∈ pieces, ¬piece.Has bit) →
    after.getLsbD bit = before.getLsbD bit

/-- A value that is put in its place again is there already. -/
theorem Encodes.again {pieces : List Piece} {value : BitVec 64}
    {before after later : Instruction} (first : Encodes pieces value before after)
    (second : Encodes pieces value after later) : later = after := by
  apply BitVec.eq_of_getLsbD_eq
  intro bit bounded
  by_cases covered : ∃ piece ∈ pieces, piece.Has bit
  · obtain ⟨piece, listed, lower, upper⟩ := covered
    have within : bit - piece.position < piece.width := by omega
    have here := first.inside piece listed _ within
    have there := second.inside piece listed _ within
    rw [Nat.add_sub_cancel' lower] at here there
    exact there.trans here.symm
  · exact second.outside bit bounded fun piece listed has => covered ⟨piece, listed, has⟩

namespace Piece

def branch26 : List Piece := [⟨0, 2, 26⟩]

def page21 : List Piece := [⟨29, 0, 2⟩, ⟨5, 2, 19⟩]

def immediate12 : List Piece := [⟨10, 0, 12⟩]

def high20 : List Piece := [⟨12, 12, 20⟩]

def low12 : LowLayout → List Piece
  | .load => [⟨20, 0, 12⟩]
  | .store => [⟨25, 5, 7⟩, ⟨7, 0, 5⟩]

def branch12 : List Piece := [⟨31, 12, 1⟩, ⟨25, 5, 6⟩, ⟨8, 1, 4⟩, ⟨7, 11, 1⟩]

def jump20 : List Piece := [⟨31, 20, 1⟩, ⟨21, 1, 10⟩, ⟨20, 11, 1⟩, ⟨12, 12, 8⟩]

end Piece

namespace Instruction

variable (insn : Instruction) (value : BitVec 64)

theorem encodes_branch26 :
    Encodes Piece.branch26 value insn (insn.withBranch26 value) := by
  constructor
  · intro piece listed bit small
    simp only [Piece.branch26, List.mem_cons, List.not_mem_nil, or_false] at listed
    rcases listed with rfl
    simp only [withBranch26, BitVec.getLsbD_append, BitVec.getLsbD_extractLsb']
    grind
  · intro bit bounded outside
    simp only [Piece.branch26, List.mem_cons, List.not_mem_nil, or_false, forall_eq,
      Piece.Has] at outside
    simp only [withBranch26, BitVec.getLsbD_append, BitVec.getLsbD_extractLsb']
    grind

theorem encodes_page21 :
    Encodes Piece.page21 value insn (insn.withPage21 value) := by
  constructor
  · intro piece listed bit small
    simp only [Piece.page21, List.mem_cons, List.not_mem_nil, or_false] at listed
    rcases listed with rfl | rfl <;>
      simp only [withPage21, BitVec.getLsbD_append, BitVec.getLsbD_extractLsb'] <;> grind
  · intro bit bounded outside
    simp only [Piece.page21, List.mem_cons, List.not_mem_nil, or_false, forall_eq_or_imp,
      forall_eq, Piece.Has] at outside
    simp only [withPage21, BitVec.getLsbD_append, BitVec.getLsbD_extractLsb']
    grind

theorem encodes_immediate12 (immediate : BitVec 12) :
    Encodes Piece.immediate12 (immediate.setWidth 64) insn (insn.withImmediate12 immediate) := by
  constructor
  · intro piece listed bit small
    simp only [Piece.immediate12, List.mem_cons, List.not_mem_nil, or_false] at listed
    rcases listed with rfl
    simp only [withImmediate12, BitVec.getLsbD_append, BitVec.getLsbD_extractLsb',
      BitVec.getLsbD_setWidth]
    grind
  · intro bit bounded outside
    simp only [Piece.immediate12, List.mem_cons, List.not_mem_nil, or_false, forall_eq,
      Piece.Has] at outside
    simp only [withImmediate12, BitVec.getLsbD_append, BitVec.getLsbD_extractLsb']
    grind

theorem encodes_high20 :
    Encodes Piece.high20 (value + 0x800#64) insn (insn.withHigh20 value) := by
  constructor
  · intro piece listed bit small
    simp only [Piece.high20, List.mem_cons, List.not_mem_nil, or_false] at listed
    rcases listed with rfl
    simp only [withHigh20, BitVec.getLsbD_append, BitVec.getLsbD_extractLsb']
    grind
  · intro bit bounded outside
    simp only [Piece.high20, List.mem_cons, List.not_mem_nil, or_false, forall_eq,
      Piece.Has] at outside
    simp only [withHigh20, BitVec.getLsbD_append, BitVec.getLsbD_extractLsb']
    grind

theorem encodes_branch12 :
    Encodes Piece.branch12 value insn (insn.withBranch12 value) := by
  constructor
  · intro piece listed bit small
    simp only [Piece.branch12, List.mem_cons, List.not_mem_nil, or_false] at listed
    rcases listed with rfl | rfl | rfl | rfl <;>
      simp only [withBranch12, BitVec.getLsbD_append, BitVec.getLsbD_extractLsb'] <;> grind
  · intro bit bounded outside
    simp only [Piece.branch12, List.mem_cons, List.not_mem_nil, or_false, forall_eq_or_imp,
      forall_eq, Piece.Has] at outside
    simp only [withBranch12, BitVec.getLsbD_append, BitVec.getLsbD_extractLsb']
    grind

theorem encodes_jump20 :
    Encodes Piece.jump20 value insn (insn.withJump20 value) := by
  constructor
  · intro piece listed bit small
    simp only [Piece.jump20, List.mem_cons, List.not_mem_nil, or_false] at listed
    rcases listed with rfl | rfl | rfl | rfl <;>
      simp only [withJump20, BitVec.getLsbD_append, BitVec.getLsbD_extractLsb'] <;> grind
  · intro bit bounded outside
    simp only [Piece.jump20, List.mem_cons, List.not_mem_nil, or_false, forall_eq_or_imp,
      forall_eq, Piece.Has] at outside
    simp only [withJump20, BitVec.getLsbD_append, BitVec.getLsbD_extractLsb']
    grind

theorem encodes_low12 (layout : LowLayout) :
    Encodes (Piece.low12 layout) value insn (insn.withLow12 layout value) := by
  cases layout with
  | load =>
      constructor
      · intro piece listed bit small
        simp only [Piece.low12, List.mem_cons, List.not_mem_nil, or_false] at listed
        rcases listed with rfl
        simp only [withLow12, BitVec.getLsbD_append, BitVec.getLsbD_extractLsb']
        grind
      · intro bit bounded outside
        simp only [Piece.low12, List.mem_cons, List.not_mem_nil, or_false, forall_eq,
          Piece.Has] at outside
        simp only [withLow12, BitVec.getLsbD_append, BitVec.getLsbD_extractLsb']
        grind
  | store =>
      constructor
      · intro piece listed bit small
        simp only [Piece.low12, List.mem_cons, List.not_mem_nil, or_false] at listed
        rcases listed with rfl | rfl <;>
          simp only [withLow12, BitVec.getLsbD_append, BitVec.getLsbD_extractLsb'] <;> grind
      · intro bit bounded outside
        simp only [Piece.low12, List.mem_cons, List.not_mem_nil, or_false, forall_eq_or_imp,
          forall_eq, Piece.Has] at outside
        simp only [withLow12, BitVec.getLsbD_append, BitVec.getLsbD_extractLsb']
        grind

end Instruction

/-- A mask of the lowest bits. -/
theorem getLsbD_lowest (count : Nat) {bit : Nat} (bounded : bit < 64) :
    (BitVec.ofNat 64 (2 ^ count - 1)).getLsbD bit = decide (bit < count) := by
  rw [BitVec.getLsbD_ofNat, Nat.testBit_two_pow_sub_one]
  simp [bounded]

/-! ## What a patched place holds -/

/-- What a relocation prescribes for its place. -/
inductive Field
  | nothing
  /-- The low bytes of a value, lowest first. -/
  | number (width : Nat) (value : Word)
  /-- An instruction whose immediate holds a value. -/
  | immediate (pieces : List Piece) (value : Word)
  /-- Two instructions, each with an immediate. -/
  | immediates (firstPieces : List Piece) (first : Word) (secondPieces : List Piece)
      (second : Word)

/-- How many bytes a field takes. -/
def Field.size : Field → Nat
  | nothing => 0
  | number width _ => width
  | immediate _ _ => 4
  | immediates _ _ _ _ => 8

/-- The instruction that four bytes stand for. -/
def instructionOf (bytes : List UInt8) : Instruction :=
  BitVec.ofNat 32 (Endian.value bytes)

/-- The bytes of a place hold a field, having been other bytes before. -/
def Field.Holds (field : Field) (before after : List UInt8) : Prop :=
  match field with
  | nothing => True
  | number width value => after.length = width ∧ Endian.value after = value.toNat % 256 ^ width
  | immediate pieces value => Encodes pieces value (instructionOf before) (instructionOf after)
  | immediates firstPieces first secondPieces second =>
    Encodes firstPieces first (instructionOf (before.take 4)) (instructionOf (after.take 4)) ∧
      Encodes secondPieces second (instructionOf (before.drop 4)) (instructionOf (after.drop 4))

/-- Whatever a patch finds at its place, it leaves the field there. -/
def Patch.Realizes (patch : Patch) (field : Field) : Prop :=
  ∀ contents offset,
    field.Holds (Endian.slice contents offset patch.width) (patch.replacement contents offset)

theorem instructionOf_bytes (insn : Instruction) :
    instructionOf (Endian.bytes 4 insn.toNat) = insn := by
  have bounded : insn.toNat < 256 ^ 4 := insn.isLt
  rw [instructionOf, Endian.value_bytes, Nat.mod_eq_of_lt bounded, BitVec.ofNat_toNat,
    BitVec.setWidth_eq]

theorem bytes_instructionOf {data : List UInt8} (four : data.length = 4) :
    Endian.bytes 4 (instructionOf data).toNat = data := by
  have bounded : Endian.value data < 2 ^ 32 := by
    have small := Endian.value_lt data
    rw [four] at small
    exact small
  rw [instructionOf, BitVec.toNat_ofNat, Nat.mod_eq_of_lt bounded, ← four, Endian.bytes_value]

theorem instructionOf_injective {first second : List UInt8} (four : first.length = 4)
    (four' : second.length = 4) (same : instructionOf first = instructionOf second) :
    first = second := by
  rw [← bytes_instructionOf four, same, bytes_instructionOf four']

/-- A field that is put in its place again is there already. -/
theorem Field.Holds.again {field : Field} {before after later : List UInt8}
    (first : field.Holds before after) (second : field.Holds after later)
    (size : after.length = field.size) (size' : later.length = field.size) : later = after := by
  cases field with
  | nothing => rw [List.eq_nil_of_length_eq_zero size, List.eq_nil_of_length_eq_zero size']
  | number width value =>
      exact Endian.eq_of_value_eq (size'.trans size.symm) (second.2.trans first.2.symm)
  | immediate pieces value => exact instructionOf_injective size' size (Encodes.again first second)
  | immediates firstPieces value secondPieces value' =>
      have front : later.take 4 = after.take 4 :=
        instructionOf_injective (by rw [List.length_take, size']; rfl)
          (by rw [List.length_take, size]; rfl) (first.1.again second.1)
      have back : later.drop 4 = after.drop 4 :=
        instructionOf_injective (by rw [List.length_drop, size']; rfl)
          (by rw [List.length_drop, size]; rfl) (first.2.again second.2)
      rw [← List.take_append_drop 4 later, front, back, List.take_append_drop]

namespace Patch

theorem realizes_keep : Patch.keep.Realizes .nothing :=
  fun _ _ => trivial

theorem realizes_store (width : Nat) (value : Word) :
    (Patch.store (Endian.bytes width value.toNat)).Realizes (.number width value) :=
  fun _ _ => ⟨Endian.length_bytes _ _, Endian.value_bytes _ _⟩

theorem realizes_edit {pieces : List Piece} {value : Word} {change : Instruction → Instruction}
    (encodes : ∀ insn, Encodes pieces value insn (change insn)) :
    (Patch.edit change).Realizes (.immediate pieces value) := by
  intro contents offset
  show Encodes pieces value _ (instructionOf (Endian.bytes 4 _))
  rw [instructionOf_bytes]
  exact encodes _

theorem realizes_editPair {firstPieces secondPieces : List Piece} {first second : Word}
    {change change' : Instruction → Instruction}
    (encodes : ∀ insn, Encodes firstPieces first insn (change insn))
    (encodes' : ∀ insn, Encodes secondPieces second insn (change' insn)) :
    (Patch.editPair change change').Realizes
      (.immediates firstPieces first secondPieces second) := by
  intro contents offset
  have front := Endian.take_slice contents offset (show 4 ≤ 8 by decide)
  have back := Endian.drop_slice contents offset 4 8
  constructor
  · rw [show Endian.slice contents offset (editPair change change').width =
      Endian.slice contents offset 8 from rfl, front, replacement,
      List.take_left' (Endian.length_bytes 4 _), instructionOf_bytes]
    exact encodes _
  · rw [show Endian.slice contents offset (editPair change change').width =
      Endian.slice contents offset 8 from rfl, back, replacement,
      List.drop_left' (Endian.length_bytes 4 _), instructionOf_bytes]
    exact encodes' _

end Patch

end Fixup
end ModuleHost
