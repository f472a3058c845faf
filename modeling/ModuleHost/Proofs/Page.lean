import Mathlib.Algebra.Group.Nat.Defs
import ModuleHost.Page

namespace ModuleHost

/-!
# Rounding up to pages

The rounding by masks is rounding by division, as long as it stays inside the address
space.
-/

theorem roundUp?_two_pow (value bits : Nat) :
    roundUp? value (2 ^ bits) =
      if value + (2 ^ bits - 1) < addressLimit then
        some ((value + (2 ^ bits - 1)) / 2 ^ bits * 2 ^ bits)
      else none := by
  have split := Nat.div_add_mod (value + (2 ^ bits - 1)) (2 ^ bits)
  simp only [roundUp?, Nat.and_two_pow_sub_one_eq_mod]
  rw [Nat.mul_comm] at split
  split
  · congr 1
    omega
  · rfl

theorem roundUp?_eq_some {value bits rounded : Nat}
    (rounds : roundUp? value (2 ^ bits) = some rounded) :
    rounded % 2 ^ bits = 0 ∧ value ≤ rounded := by
  have positive := Nat.two_pow_pos bits
  have split := Nat.div_add_mod (value + (2 ^ bits - 1)) (2 ^ bits)
  have small := Nat.mod_lt (value + (2 ^ bits - 1)) positive
  rw [Nat.mul_comm] at split
  rw [roundUp?_two_pow] at rounds
  split at rounds
  · rw [← Option.some.inj rounds]
    exact ⟨Nat.mul_mod_left _ _, by omega⟩
  · cases rounds

/-- The bytes of the whole pages that hold `size` bytes; an empty request takes a page. -/
def wholePages (size : Nat) : Nat :=
  (max size 1 + (pageSize - 1)) / pageSize * pageSize

/-- A request has a size in whole pages when that size is a machine word. -/
theorem pagesFor?_eq_some_iff {size rounded : Nat} :
    pagesFor? size = some rounded ↔ rounded = wholePages size ∧ wholePages size < addressLimit := by
  have closed := roundUp?_two_pow (max size 1) 12
  rw [show 2 ^ 12 = pageSize from rfl, ← pagesFor?, ← wholePages] at closed
  -- The limit is a multiple of the page size, so rounding down does not lead below it.
  have limit : max size 1 + (pageSize - 1) < addressLimit ↔ wholePages size < addressLimit := by
    simp only [wholePages, pageSize, addressLimit]
    omega
  rw [closed]
  split
  · next fits =>
      rw [Option.some.injEq, eq_comm]
      exact (and_iff_left (limit.mp fits)).symm
  · next exceeds =>
      refine ⟨fun absent => ?_, fun expected => absurd (limit.mpr expected.2) exceeds⟩
      cases absent

theorem eq_wholePages {size rounded : Nat} (rounds : pagesFor? size = some rounded) :
    rounded = wholePages size :=
  (pagesFor?_eq_some_iff.mp rounds).1

theorem wholePages_mod (size : Nat) : wholePages size % pageSize = 0 :=
  Nat.mul_mod_left _ _

theorem pageSize_le_wholePages (size : Nat) : pageSize ≤ wholePages size := by
  simp only [wholePages, pageSize]
  omega

theorem wholePages_of_le {size : Nat} (small : size ≤ pageSize) : wholePages size = pageSize := by
  simp only [wholePages, pageSize] at small ⊢
  omega

theorem le_wholePages (size : Nat) : size ≤ wholePages size := by
  simp only [wholePages, pageSize]
  omega

/-- The sizes of whole pages. -/
theorem pagesFor?_eq_some {size rounded : Nat} (rounds : pagesFor? size = some rounded) :
    rounded % pageSize = 0 ∧ size ≤ rounded ∧ 0 < rounded := by
  rw [eq_wholePages rounds]
  exact ⟨wholePages_mod size, le_wholePages size,
    Nat.lt_of_lt_of_le (by decide) (pageSize_le_wholePages size)⟩

end ModuleHost
