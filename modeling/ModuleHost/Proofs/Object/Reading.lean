import Mathlib.Algebra.BigOperators.Ring.List
import Mathlib.Algebra.Ring.Nat
import Mathlib.Data.List.GetD
import Mathlib.Data.List.TakeWhile
import ModuleHost.Proofs.Endian
import ModuleHost.Proofs.Object.Format
import ModuleHost.Proofs.Text.Utf8

namespace ModuleHost
namespace Object

/-!
# Reading the records of an image

Words that are read from a slice of an image, or from a slice of a slice, are numbers of
the image itself.  So each record that is decoded from a table is the one that starts at
its place in the image.
-/

open Endian (slice value value_lt word8At word16At word32At word64At)

/-- A run of bytes denotes the number at its place; bytes beyond the data count as zero. -/
theorem value_slice (image : List UInt8) (position width : Nat) :
    value (slice image position width) = numberAt image position width := by
  induction width generalizing position with
  | zero => simp [slice, value, numberAt]
  | succ width ih =>
      have shifted : numberAt image position (width + 1) =
          (image.getD position 0).toNat + 256 * numberAt image (position + 1) width := by
        simp only [numberAt, List.range_succ_eq_map, List.map_cons, List.map_map, List.sum_cons,
          Nat.add_zero, Nat.pow_zero, Nat.mul_one]
        rw [← List.sum_map_mul_left]
        congr 2
        refine List.map_congr_left fun place _ => ?_
        simp only [Function.comp_apply, Nat.succ_eq_add_one, Nat.pow_succ, Nat.add_assoc,
          Nat.add_comm 1 place]
        rw [Nat.mul_comm (256 ^ place) 256, Nat.mul_left_comm]
      rw [shifted, ← ih]
      by_cases inside : position < image.length
      · simp only [slice, List.drop_eq_getElem_cons inside, List.take_succ_cons, value,
          List.getD_eq_getElem image 0 inside]
      · have beyond : image.length ≤ position := Nat.le_of_not_lt inside
        simp [slice, List.drop_eq_nil_of_le beyond, value,
          List.drop_eq_nil_of_le (Nat.le_succ_of_le beyond), List.getElem?_eq_none beyond]

theorem numberAt_lt (image : List UInt8) (position width : Nat) :
    numberAt image position width < 256 ^ width := by
  rw [← value_slice]
  refine Nat.lt_of_lt_of_le (value_lt _) (Nat.pow_le_pow_right (by decide) ?_)
  exact List.length_take_le _ _

theorem slice_slice (data : List UInt8) (start length : Nat) {offset count : Nat}
    (inside : offset + count ≤ length) :
    slice (slice data start length) offset count = slice data (start + offset) count := by
  simp only [slice, List.drop_take, List.drop_drop, List.take_take]
  rw [Nat.min_eq_left (by omega)]

/-! ## Words of a slice -/

section

variable (data : List UInt8) (start length : Nat) {offset : Nat}

theorem word8At_slice (inside : offset + 1 ≤ length) :
    word8At (slice data start length) offset = .ofNat (numberAt data (start + offset) 1) := by
  rw [word8At, slice_slice data start length inside, value_slice]

theorem word16At_slice (inside : offset + 2 ≤ length) :
    word16At (slice data start length) offset = .ofNat (numberAt data (start + offset) 2) := by
  rw [word16At, slice_slice data start length inside, value_slice]

theorem word32At_slice (inside : offset + 4 ≤ length) :
    word32At (slice data start length) offset = .ofNat (numberAt data (start + offset) 4) := by
  rw [word32At, slice_slice data start length inside, value_slice]

theorem word64At_slice (inside : offset + 8 ≤ length) :
    word64At (slice data start length) offset = .ofNat (numberAt data (start + offset) 8) := by
  rw [word64At, slice_slice data start length inside, value_slice]

end

@[simp] theorem toNat_numberAt_two (image : List UInt8) (position : Nat) :
    (UInt16.ofNat (numberAt image position 2)).toNat = numberAt image position 2 :=
  UInt16.toNat_ofNat_of_lt (numberAt_lt image position 2)

@[simp] theorem toNat_numberAt_four (image : List UInt8) (position : Nat) :
    (UInt32.ofNat (numberAt image position 4)).toNat = numberAt image position 4 :=
  UInt32.toNat_ofNat_of_lt (numberAt_lt image position 4)

@[simp] theorem toNat_numberAt_eight (image : List UInt8) (position : Nat) :
    (UInt64.ofNat (numberAt image position 8)).toNat = numberAt image position 8 :=
  UInt64.toNat_ofNat_of_lt (numberAt_lt image position 8)

/-! ## Records -/

theorem decode_header (image : List UInt8) : Header.decode image = Format.headerRecord image := by
  simp only [Header.decode, Format.headerRecord, word16At, word32At, word64At, value_slice]
  rfl

theorem decode_section (image : List UInt8) (start : Nat) :
    Section.decode (slice image start sectionHeaderSize) = Format.sectionRecord image start := by
  simp [Section.decode, Format.sectionRecord, sectionHeaderSize, word32At_slice, word64At_slice]

theorem decode_symbol (image : List UInt8) (start : Nat) :
    Symbol.decode (slice image start symbolSize) = Format.symbolRecord image start := by
  simp [Symbol.decode, Format.symbolRecord, symbolSize, word8At_slice, word16At_slice,
    word32At_slice, word64At_slice]

theorem decode_relocation (image : List UInt8) (start : Nat) :
    Relocation.decode (slice image start relocationSize) =
      Format.relocationRecord image start := by
  simp [Relocation.decode, Format.relocationRecord, relocationSize, word64At_slice]

/-- The records of a table are the slices of the image at their places. -/
theorem records_slice (image : List UInt8) (start count : Nat) {size : Nat} (positive : 0 < size)
    (inside : start + count * size ≤ image.length) :
    records size (slice image start (count * size)) =
      (List.range count).map fun index => slice image (start + size * index) size := by
  have length : (slice image start (count * size)).length = count * size := by
    simp only [slice, List.length_take, List.length_drop]
    omega
  rw [records, length, Nat.mul_div_cancel count positive]
  refine List.map_congr_left fun index member => ?_
  have room : index * size + size ≤ count * size := by
    rw [← Nat.succ_mul]
    exact Nat.mul_le_mul_right size (List.mem_range.mp member)
  rw [slice_slice image start _ room, Nat.mul_comm index size]

/-! ## Names -/

/-- The strict lookup finds exactly the texts that the table spells. -/
theorem strictTextAt?_eq_some_iff {table : List UInt8} {offset : Nat} {text : String} :
    strictTextAt? table offset = some text ↔ Spells table offset text := by
  unfold strictTextAt?
  split
  · next nothing =>
      rcases nothing with ⟨rfl, rfl⟩
      constructor
      · rintro spelt
        exact .inl ⟨rfl, rfl, (Option.some.inj spelt).symm⟩
      · rintro (⟨_, _, rfl⟩ | ⟨front, back, whole, _⟩)
        · rfl
        · simp at whole
  · next something =>
      have bytes : table.drop offset = (table.drop offset).takeWhile (· ≠ 0) ++
          (table.drop offset).dropWhile (· ≠ 0) := List.takeWhile_append_dropWhile.symm
      simp only [Option.ite_none_right_eq_some, Text.decode?_eq_some_iff]
      constructor
      · rintro ⟨ended, spelt⟩
        have stops : (table.drop offset).dropWhile (· ≠ 0) ≠ [] := by
          intro endless
          rw [List.dropWhile_eq_nil_iff] at endless
          exact of_decide_eq_true (endless 0 ended) rfl
        rcases List.exists_cons_of_ne_nil stops with ⟨stop, back, rest⟩
        have zero : stop = 0 := by
          have head := List.head_dropWhile_not (fun byte : UInt8 => decide (byte ≠ 0)) stops
          simp only [rest, List.head_cons] at head
          simpa using head
        have inside : offset ≤ table.length := by
          refine Nat.le_of_not_lt fun beyond => ?_
          rw [List.drop_eq_nil_of_le (Nat.le_of_lt beyond)] at ended
          cases ended
        refine .inr ⟨table.take offset, back, ?_, List.length_take_of_le inside, ?_⟩
        · rw [← zero, ← rest, ← spelt, List.append_assoc, ← bytes, List.take_append_drop]
        · rw [← spelt]
          intro listed
          have kept := List.mem_takeWhile_imp listed
          simp at kept
      · rintro (⟨empty, start, _⟩ | ⟨front, back, whole, rfl, unbroken⟩)
        · exact absurd ⟨start, empty⟩ something
        · have rest : table.drop front.length = Text.encode text ++ 0 :: back := by
            rw [whole, List.append_assoc, List.drop_left]
          rw [rest]
          refine ⟨by simp, ?_⟩
          rw [List.takeWhile_append_of_pos, List.takeWhile_cons_of_neg (by simp),
            List.append_nil]
          intro byte listed
          refine decide_eq_true ?_
          rintro rfl
          exact unbroken listed

end Object
end ModuleHost
