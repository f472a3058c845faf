import Mathlib.Algebra.Group.Nat.Defs
import ModuleHost.Endian

namespace ModuleHost
namespace Endian

/-!
# Numbers and their bytes
-/

/-- Reading back what was written loses only the part beyond the width. -/
theorem value_bytes (width number : Nat) :
    value (bytes width number) = number % 256 ^ width := by
  induction width generalizing number with
  | zero => simp [bytes, value, Nat.mod_one]
  | succ width ih =>
      have low : (UInt8.ofNat number).toNat = number % 256 := by simp
      rw [bytes, value, ih, low, Nat.pow_succ, Nat.mul_comm (256 ^ width) 256, Nat.mod_mul]

theorem bytes_add (front back number : Nat) :
    bytes (front + back) number = bytes front number ++ bytes back (number / 256 ^ front) := by
  induction front generalizing number with
  | zero => simp [bytes]
  | succ front ih =>
      rw [Nat.add_right_comm, bytes, bytes, ih, Nat.div_div_eq_div_mul, Nat.pow_succ,
        Nat.mul_comm (256 ^ front) 256, List.cons_append]

theorem value_lt (data : List UInt8) : value data < 256 ^ data.length := by
  induction data with
  | nil => simp [value]
  | cons byte rest ih =>
      have small := byte.toNat_lt
      rw [value, List.length_cons, Nat.pow_succ]
      omega

/-- Writing back what was read gives the same bytes. -/
theorem bytes_value (data : List UInt8) : bytes data.length (value data) = data := by
  induction data with
  | nil => rfl
  | cons byte rest ih =>
      have small := byte.toNat_lt
      have rest' : (byte.toNat + 256 * value rest) / 256 = value rest := by omega
      have low : UInt8.ofNat (byte.toNat + 256 * value rest) = byte := by
        apply UInt8.toNat_inj.mp
        rw [UInt8.toNat_ofNat']
        omega
      rw [value, List.length_cons, bytes, rest', low, ih]

/-- Bytes are determined by their number and what they denote. -/
theorem eq_of_value_eq {first second : List UInt8} (length : first.length = second.length)
    (same : value first = value second) : first = second := by
  rw [← bytes_value first, length, same, bytes_value]

/-- The front of a run of bytes, and what follows it. -/
theorem take_slice (data : List UInt8) (offset : Nat) {front count : Nat}
    (within : front ≤ count) : (slice data offset count).take front = slice data offset front := by
  rw [slice, List.take_take, Nat.min_eq_left within, slice]

theorem drop_slice (data : List UInt8) (offset front count : Nat) :
    (slice data offset count).drop front = slice data (offset + front) (count - front) := by
  rw [slice, List.drop_take, List.drop_drop, slice]

end Endian
end ModuleHost
