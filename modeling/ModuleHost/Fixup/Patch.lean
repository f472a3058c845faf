import ModuleHost.Endian
import ModuleHost.Fixup.Instruction

namespace ModuleHost
namespace Fixup

/-!
# Patches

A patch is what a fixup does to the bytes of a section at its offset: nothing,
replace bytes, or edit one or two instructions in place.  A patch either lies
wholly inside the section and is made, or nothing is changed.
-/

inductive Patch
  | keep
  | store (bytes : List UInt8)
  | edit (change : Instruction → Instruction)
  | editPair (first second : Instruction → Instruction)

namespace Patch

/-- How many bytes a patch covers. -/
def width : Patch → Nat
  | keep => 0
  | store bytes => bytes.length
  | edit _ => 4
  | editPair _ _ => 8

/-- The instruction at an offset of a section. -/
def instructionAt (contents : List UInt8) (offset : Nat) : Instruction :=
  BitVec.ofNat 32 (Endian.value (Endian.slice contents offset 4))

/-- The bytes that a patch puts at its offset. -/
def replacement (patch : Patch) (contents : List UInt8) (offset : Nat) : List UInt8 :=
  match patch with
  | keep => []
  | store bytes => bytes
  | edit change => Endian.bytes 4 (change (instructionAt contents offset)).toNat
  | editPair first second =>
    Endian.bytes 4 (first (instructionAt contents offset)).toNat ++
      Endian.bytes 4 (second (instructionAt contents (offset + 4))).toNat

/-- Replace the bytes from an offset on. -/
def splice (contents : List UInt8) (offset : Nat) (bytes : List UInt8) : List UInt8 :=
  contents.take offset ++ bytes ++ contents.drop (offset + bytes.length)

/-- The section after the patch, if the patch lies inside it.  A patch that covers
nothing lies anywhere. -/
def make? (patch : Patch) (contents : List UInt8) (offset : Nat) : Option (List UInt8) :=
  match patch with
  | keep => some contents
  | patch =>
    if offset + patch.width ≤ contents.length then
      some (splice contents offset (patch.replacement contents offset))
    else none

@[simp] theorem length_replacement (patch : Patch) (contents : List UInt8) (offset : Nat) :
    (patch.replacement contents offset).length = patch.width := by
  cases patch <;> simp [replacement, width]

end Patch

end Fixup
end ModuleHost
