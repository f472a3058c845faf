namespace ModuleHost
namespace Endian

/-!
# Little-endian words

A word is stored lowest byte first.  `value` reads any run of bytes as one
number, `bytes` writes a number into a fixed width and drops what does not fit.
-/

/-- The number that a run of bytes denotes, lowest byte first. -/
def value : List UInt8 → Nat
  | [] => 0
  | byte :: rest => byte.toNat + 256 * value rest

/-- The lowest `width` bytes of a number, lowest first. -/
def bytes : (width : Nat) → Nat → List UInt8
  | 0, _ => []
  | width + 1, number => UInt8.ofNat number :: bytes width (number / 256)

/-- The run of `count` bytes that starts at `offset`, shorter where the data ends. -/
def slice (data : List UInt8) (offset count : Nat) : List UInt8 :=
  (data.drop offset).take count

def word8At (data : List UInt8) (offset : Nat) : UInt8 :=
  UInt8.ofNat (value (slice data offset 1))

def word16At (data : List UInt8) (offset : Nat) : UInt16 :=
  UInt16.ofNat (value (slice data offset 2))

def word32At (data : List UInt8) (offset : Nat) : UInt32 :=
  UInt32.ofNat (value (slice data offset 4))

def word64At (data : List UInt8) (offset : Nat) : UInt64 :=
  UInt64.ofNat (value (slice data offset 8))

@[simp] theorem length_bytes (width number : Nat) : (bytes width number).length = width := by
  induction width generalizing number with
  | zero => rfl
  | succ width ih => simp [bytes, ih]

end Endian
end ModuleHost
