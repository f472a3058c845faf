import ModuleHost.Proofs.Fixup.CallSite

namespace ModuleHost
namespace Fixup

/-!
# Immediates as processors read them

Relocations patch instructions of a few formats.  A format says which value a processor takes
from the immediate of an instruction, and which bits belong to something else: the operation,
its registers and its function codes.  Both are written down as the manuals have them, without
the tables of pieces that patches are checked against.  What is read from an instruction that
encodes a value follows from those tables.
-/

/-- The formats of the instructions that relocations patch. -/
inductive Format
  /-- RISC-V `lui` and `auipc`. -/
  | upper
  /-- RISC-V additions, loads and indirect jumps, or stores. -/
  | lower (layout : LowLayout)
  /-- RISC-V conditional branches. -/
  | conditional
  /-- RISC-V `jal`. -/
  | jump
  /-- AArch64 `b` and `bl`. -/
  | branch
  /-- AArch64 `adrp`. -/
  | page
  /-- AArch64 additions, and accesses of `2 ^ scale` bytes. -/
  | pageOffset (scale : Nat)
  deriving DecidableEq

namespace Format

/-- The immediate of an instruction, as wide as a register. -/
def read : Format → Instruction → Word
  | upper, insn => (insn.extractLsb' 12 20 ++ 0#12).signExtend 64
  | lower .load, insn => (insn.extractLsb' 20 12).signExtend 64
  | lower .store, insn => (insn.extractLsb' 25 7 ++ insn.extractLsb' 7 5).signExtend 64
  | conditional, insn =>
    (insn.extractLsb' 31 1 ++ insn.extractLsb' 7 1 ++ insn.extractLsb' 25 6 ++
      insn.extractLsb' 8 4 ++ 0#1).signExtend 64
  | jump, insn =>
    (insn.extractLsb' 31 1 ++ insn.extractLsb' 12 8 ++ insn.extractLsb' 20 1 ++
      insn.extractLsb' 21 10 ++ 0#1).signExtend 64
  | branch, insn => (insn.extractLsb' 0 26 ++ 0#2).signExtend 64
  | page, insn => (insn.extractLsb' 5 19 ++ insn.extractLsb' 29 2 ++ 0#12).signExtend 64
  | pageOffset scale, insn => (insn.extractLsb' 10 12).setWidth 64 <<< scale

/-- The bits that are not part of the immediate. -/
def rest : Format → Instruction
  | upper => 0x00000fff#32
  | lower .load => 0x000fffff#32
  | lower .store => 0x01fff07f#32
  | conditional => 0x01fff07f#32
  | jump => 0x00000fff#32
  | branch => 0xfc000000#32
  | page => 0x9f00001f#32
  | pageOffset _ => 0xffc003ff#32

/-- Where patches put the bits of a value. -/
def pieces : Format → List Piece
  | upper => Piece.high20
  | lower layout => Piece.low12 layout
  | conditional => Piece.branch12
  | jump => Piece.jump20
  | branch => Piece.branch26
  | page => Piece.page21
  | pageOffset _ => Piece.immediate12

end Format

instance (piece : Piece) (bit : Nat) : Decidable (piece.Has bit) :=
  inferInstanceAs (Decidable (_ ∧ _))

/-- The pieces of a format leave out just the bits that are not part of the immediate. -/
theorem Format.getLsbD_rest (format : Format) :
    ∀ bit < 32, format.rest.getLsbD bit = true ↔ ∀ piece ∈ format.pieces, ¬piece.Has bit := by
  cases format with
  | lower layout => cases layout <;> decide
  | pageOffset scale => exact (by decide : ∀ bit < 32,
      (0xffc003ff#32).getLsbD bit = true ↔ ∀ piece ∈ Piece.immediate12, ¬piece.Has bit)
  | _ => decide

/-! ## Reading what was encoded -/

/-- A value in the range of a signed field whose low bits are implied to be zero reads back
without those bits. -/
theorem signExtend_extract_append {implied stored : Nat} (positive : 0 < stored)
    (small : stored + implied ≤ 64) {value : Word}
    (fits : fitsSigned (stored + implied) value = true) :
    (value.extractLsb' implied stored ++ 0#(implied)).signExtend 64 =
      value &&& ~~~BitVec.ofNat 64 (2 ^ implied - 1) := by
  have same := signExtend_setWidth (by omega) small fits
  apply BitVec.eq_of_getLsbD_eq
  intro bit bounded
  have bitSame := congrArg (·.getLsbD bit) same
  simp only [BitVec.getLsbD_signExtend, BitVec.getLsbD_setWidth, BitVec.msb_eq_getLsbD_last]
    at bitSame
  rw [BitVec.getLsbD_and, BitVec.getLsbD_not, getLsbD_lowest implied bounded]
  simp only [BitVec.getLsbD_signExtend, BitVec.msb_eq_getLsbD_last, BitVec.getLsbD_append,
    BitVec.getLsbD_extractLsb', BitVec.getLsbD_zero]
  grind

section Reading

variable {before after : Instruction} {value : Word}

theorem Encodes.rest_eq (format : Format) (encodes : Encodes format.pieces value before after) :
    after &&& format.rest = before &&& format.rest := by
  apply BitVec.eq_of_getLsbD_eq
  intro bit bounded
  rw [BitVec.getLsbD_and, BitVec.getLsbD_and]
  cases kept : format.rest.getLsbD bit with
  | false => rw [Bool.and_false, Bool.and_false]
  | true => rw [encodes.outside bit bounded ((format.getLsbD_rest bit bounded).mp kept)]

theorem Encodes.read_upper (encodes : Encodes Piece.high20 value before after) :
    Format.upper.read after = (value.extractLsb' 12 20 ++ 0#12).signExtend 64 := by
  rw [Format.read, encodes.extractLsb'_piece 12 12 20 (by decide)]

theorem Encodes.read_lower {layout : LowLayout}
    (encodes : Encodes (Piece.low12 layout) value before after) :
    (Format.lower layout).read after = (value.extractLsb' 0 12).signExtend 64 := by
  cases layout with
  | load => rw [Format.read, encodes.extractLsb'_piece 20 0 12 (by decide)]
  | store =>
      rw [Format.read, encodes.extractLsb'_piece 25 5 7 (by decide),
        encodes.extractLsb'_piece 7 0 5 (by decide)]
      exact congrArg _ (BitVec.extractLsb'_append_extractLsb'_eq_extractLsb' (by decide))

theorem Encodes.read_conditional (encodes : Encodes Piece.branch12 value before after)
    (fits : fitsSigned 13 value = true) :
    Format.conditional.read after = value &&& ~~~1#64 := by
  rw [Format.read, encodes.extractLsb'_piece 31 12 1 (by decide),
    encodes.extractLsb'_piece 7 11 1 (by decide), encodes.extractLsb'_piece 25 5 6 (by decide),
    encodes.extractLsb'_piece 8 1 4 (by decide),
    BitVec.extractLsb'_append_extractLsb'_eq_extractLsb' (by decide),
    BitVec.extractLsb'_append_extractLsb'_eq_extractLsb' (by decide),
    BitVec.extractLsb'_append_extractLsb'_eq_extractLsb' (by decide)]
  exact signExtend_extract_append (by decide) (by decide) fits

theorem Encodes.read_jump (encodes : Encodes Piece.jump20 value before after)
    (fits : fitsSigned 21 value = true) : Format.jump.read after = value &&& ~~~1#64 := by
  rw [Format.read, encodes.extractLsb'_piece 31 20 1 (by decide),
    encodes.extractLsb'_piece 12 12 8 (by decide), encodes.extractLsb'_piece 20 11 1 (by decide),
    encodes.extractLsb'_piece 21 1 10 (by decide),
    BitVec.extractLsb'_append_extractLsb'_eq_extractLsb' (by decide),
    BitVec.extractLsb'_append_extractLsb'_eq_extractLsb' (by decide),
    BitVec.extractLsb'_append_extractLsb'_eq_extractLsb' (by decide)]
  exact signExtend_extract_append (by decide) (by decide) fits

theorem Encodes.read_branch (encodes : Encodes Piece.branch26 value before after)
    (fits : fitsSigned 28 value = true) : Format.branch.read after = value &&& ~~~3#64 := by
  rw [Format.read, encodes.extractLsb'_piece 0 2 26 (by decide)]
  exact signExtend_extract_append (by decide) (by decide) fits

/-- The distance of two pages is read back from the number of pages between them. -/
theorem Encodes.read_page {distance : Word}
    (encodes : Encodes Piece.page21 (distance.sshiftRight 12) before after)
    (fits : fitsSigned 21 (distance.sshiftRight 12) = true) :
    Format.page.read after = distance &&& ~~~0xfff#64 := by
  have wide : fitsSigned 33 distance = true := by
    rw [fitsSigned_iff, BitVec.toInt_sshiftRight, Int.shiftRight_eq_div_pow] at fits
    rw [fitsSigned_iff]
    omega
  have bits : (distance.sshiftRight 12).extractLsb' 0 21 = distance.extractLsb' 12 21 := by
    apply BitVec.eq_of_getLsbD_eq
    intro bit small
    simp only [BitVec.getLsbD_extractLsb', BitVec.getLsbD_sshiftRight]
    grind
  rw [Format.read, encodes.extractLsb'_piece 5 2 19 (by decide),
    encodes.extractLsb'_piece 29 0 2 (by decide),
    BitVec.extractLsb'_append_extractLsb'_eq_extractLsb' (by decide)]
  exact (congrArg (fun pages => (pages ++ 0#12).signExtend 64) bits).trans
    (signExtend_extract_append (by decide) (by decide) wide)

/-- An offset in a page is read back as far as accesses of the size can tell. -/
theorem Encodes.read_pageOffset (scale : Nat)
    (encodes : Encodes Piece.immediate12 ((value &&& 0xfff#64) >>> scale) before after) :
    ((Format.pageOffset scale).read after).toNat =
      value.toNat % 4096 / 2 ^ scale * 2 ^ scale := by
  have low : (value &&& 0xfff#64).toNat = value.toNat % 4096 :=
    (BitVec.toNat_and _ _).trans (Nat.and_two_pow_sub_one_eq_mod value.toNat 12)
  have bounded : value.toNat % 4096 < 4096 := Nat.mod_lt _ (by decide)
  have stored : value.toNat % 4096 / 2 ^ scale < 4096 :=
    Nat.lt_of_le_of_lt (Nat.div_le_self _ _) bounded
  have scaled : value.toNat % 4096 / 2 ^ scale * 2 ^ scale < 4096 :=
    Nat.lt_of_le_of_lt (Nat.div_mul_le_self _ _) bounded
  rw [Format.read, encodes.extractLsb'_piece 10 0 12 (by decide), BitVec.toNat_shiftLeft,
    BitVec.toNat_setWidth, BitVec.extractLsb'_toNat, BitVec.toNat_ushiftRight, low,
    Nat.shiftRight_zero, Nat.shiftRight_eq_div_pow, Nat.shiftLeft_eq, Nat.mod_eq_of_lt stored,
    Nat.mod_eq_of_lt (Nat.lt_trans stored (by decide)),
    Nat.mod_eq_of_lt (Nat.lt_trans scaled (by decide))]

end Reading

/-! ## Pages -/

theorem toNat_pageOf (address : Word) : (pageOf address).toNat = address.toNat / 4096 * 4096 := by
  have shifted : pageOf address = address >>> 12 <<< 12 := by
    apply BitVec.eq_of_getLsbD_eq
    intro bit bounded
    have mask : (0xfff#64).getLsbD bit = decide (bit < 12) := getLsbD_lowest 12 bounded
    rw [pageOf, BitVec.getLsbD_and, BitVec.getLsbD_not, mask]
    simp only [BitVec.getLsbD_shiftLeft, BitVec.getLsbD_ushiftRight]
    grind
  have bounded := address.isLt
  rw [shifted, BitVec.toNat_shiftLeft, BitVec.toNat_ushiftRight, Nat.shiftRight_eq_div_pow,
    Nat.shiftLeft_eq]
  omega

/-- Pages are apart by a multiple of their size. -/
theorem pageOf_distance (target place : Word) :
    pageOf (pageOf target - pageOf place) = pageOf target - pageOf place := by
  have first := toNat_pageOf target
  have second := toNat_pageOf place
  apply BitVec.eq_of_toNat_eq
  rw [toNat_pageOf, BitVec.toNat_sub]
  omega

end Fixup
end ModuleHost
