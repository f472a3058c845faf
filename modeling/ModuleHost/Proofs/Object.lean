import Mathlib.Logic.Basic
import ModuleHost.Object

namespace ModuleHost
namespace Object

/-!
# Validated images

A sequence of checks succeeds exactly if each check does, so what validation has looked at
is known of every object.  Here this is used for relocations: they refer to symbols of the
object's table.
-/

theorem bind_eq_ok {ε α β : Type} {first : Except ε α} {next : α → Except ε β} {result : β} :
    (first >>= next) = .ok result ↔ ∃ value, first = .ok value ∧ next value = .ok result := by
  cases first with
  | error error => exact ⟨nofun, fun ⟨_, done, _⟩ => nomatch done⟩
  | ok value =>
      constructor
      · intro done
        exact ⟨value, rfl, done⟩
      · rintro ⟨_, same, done⟩
        exact Except.ok.inj same ▸ done

variable {image : List UInt8} {object : Object}

/-- No relocation section of an object is at fault. -/
theorem relocationFault?_of_ofImage (parsed : ofImage image = .ok object) :
    object.image = image ∧ ∃ sectionCount symbolTable,
      object.sections.zipIdx.findSome? (fun (header, index) =>
        relocationFault? image sectionCount symbolTable object.symbols.length header index) =
          none := by
  simp only [ofImage, bind_eq_ok, require_eq_ok, demand_eq_ok, refuse_eq_ok, exists_const] at parsed
  rcases parsed with ⟨_, _, _, _, _, _, machine, _, _, _, _, _, names, _, _, rest⟩
  split at rest
  · simp only [bind_eq_ok, refuse_eq_ok, exists_const] at rest
    rcases rest with ⟨table, _, _, checked, made⟩
    cases made
    exact ⟨rfl, _, _, checked⟩
  · simp only [bind_eq_ok, refuse_eq_ok, demand_eq_ok, exists_const] at rest
    rcases rest with ⟨table, _, _, checked, made⟩
    cases made
    exact ⟨rfl, _, _, checked⟩

/-- A relocation refers to a symbol of the object. -/
theorem symbol_of_relocation (parsed : ofImage image = .ok object) {group : RelocationGroup}
    (listed : group ∈ object.relocationGroups) {relocation : Relocation}
    (member : relocation ∈ group.relocations) :
    ∃ symbol, object.symbols[relocation.symbolIndex]? = some symbol := by
  rcases relocationFault?_of_ofImage parsed with ⟨same, sectionCount, symbolTable, checked⟩
  simp only [relocationGroups, List.mem_map, List.mem_filter, decide_eq_true_eq] at listed
  rcases listed with ⟨header, ⟨present, kind⟩, rfl⟩
  rcases List.mem_iff_getElem?.mp present with ⟨index, found⟩
  have faultless : relocationFault? image sectionCount symbolTable object.symbols.length header
      index = none :=
    List.findSome?_eq_none_iff.mp checked (header, index)
      (List.mem_zipIdx_iff_getElem?.mpr found)
  unfold relocationFault? at faultless
  split at faultless
  · next other => exact absurd kind other
  · split at faultless
    · next sound =>
        rw [same] at member
        have bounded := List.all_eq_true.mp sound.2.2.2.2.2 relocation member
        exact ⟨_, List.getElem?_eq_getElem (of_decide_eq_true bounded)⟩
    · cases faultless

/-! ## Small objects -/

open Endian (bytes) in
/-- An object for x86-64 with one section to be loaded: a word that is relocated, by a
relocation of the given kind, to the address four bytes behind its own start.  The parts
are the header, the section headers, names, the word, symbols and the relocation. -/
def selfPointing (kind : Nat) : List UInt8 :=
  let header (kind flags offset size link info alignment entrySize : Nat) :=
    bytes 8 (kind <<< 32) ++ bytes 8 flags ++ bytes 8 0 ++ bytes 8 offset ++ bytes 8 size ++
      bytes 8 (info <<< 32 + link) ++ bytes 8 alignment ++ bytes 8 entrySize
  magic ++ bytes 12 0x10102 ++ bytes 2 1 ++ bytes 2 62 ++ bytes 4 1 ++ bytes 16 0 ++
    bytes 18 64 ++ bytes 2 64 ++ bytes 2 5 ++ bytes 2 1 ++
    header 0 0 0 0 0 0 0 0 ++ header 3 0 384 8 0 0 1 0 ++ header 1 3 392 8 0 0 8 0 ++
    header 2 0 400 48 1 1 8 24 ++ header 4 0 448 24 3 2 8 24 ++
    bytes 8 0 ++ bytes 8 0 ++ bytes 24 0 ++ bytes 24 (2 <<< 48) ++
    bytes 8 0 ++ bytes 8 (1 <<< 32 + kind) ++ bytes 8 4

open Endian (bytes) in
/-- An object for x86-64 with a word, the number one, in a section of the given flags and with
one global symbol `x`, to whose address the word is relocated.  With home 2 the symbol stands
for the word; with home 0 it is to be found in another object. -/
def sharing (flags home : Nat) : List UInt8 :=
  let header (kind flags offset size link info alignment entrySize : Nat) :=
    bytes 8 (kind <<< 32) ++ bytes 8 flags ++ bytes 8 0 ++ bytes 8 offset ++ bytes 8 size ++
      bytes 8 (info <<< 32 + link) ++ bytes 8 alignment ++ bytes 8 entrySize
  magic ++ bytes 12 0x10102 ++ bytes 2 1 ++ bytes 2 62 ++ bytes 4 1 ++ bytes 16 0 ++
    bytes 18 64 ++ bytes 2 64 ++ bytes 2 5 ++ bytes 2 1 ++
    header 0 0 0 0 0 0 0 0 ++ header 3 0 384 3 0 0 1 0 ++ header 1 flags 392 8 0 0 8 0 ++
    header 2 0 400 48 1 1 8 24 ++ header 4 0 448 24 3 2 8 24 ++
    bytes 8 0x7800 ++ bytes 8 1 ++ bytes 24 0 ++ bytes 24 (home <<< 48 + 0x10 <<< 32 + 1) ++
    bytes 8 0 ++ bytes 8 (1 <<< 32 + 1) ++ bytes 8 0

open Endian (bytes) in
/-- The header of a section without a name. -/
def unnamed (kind flags offset size link info alignment entrySize : Nat) : List UInt8 :=
  bytes 8 (kind <<< 32) ++ bytes 8 flags ++ bytes 8 0 ++ bytes 8 offset ++ bytes 8 size ++
    bytes 8 (info <<< 32 + link) ++ bytes 8 alignment ++ bytes 8 entrySize

open Endian (bytes) in
/-- An x86-64 object with the given section headers and what they describe.  The second section
holds the names, of sections and symbols alike. -/
def small (headers : List (List UInt8)) (contents : List UInt8) : List UInt8 :=
  magic ++ bytes 12 0x10102 ++ bytes 2 1 ++ bytes 2 62 ++ bytes 4 1 ++ bytes 16 0 ++
    bytes 18 64 ++ bytes 2 64 ++ bytes 2 headers.length ++ bytes 2 1 ++ headers.flatten ++ contents

open Endian (bytes) in
/-- An object with a word that is relocated to the address of a symbol `x` of another object,
and with an exit function at that word. -/
def departing : List UInt8 :=
  small [unnamed 0 0 0 0 0 0 0 0, unnamed 3 0 384 15 0 0 1 0, unnamed 1 3 400 8 0 0 8 0,
      unnamed 2 0 408 72 1 1 8 24, unnamed 4 0 480 24 3 2 8 24]
    (bytes 8 0x6c75646f6d007800 ++ bytes 8 0x746978655f65 ++ bytes 8 0 ++
      bytes 24 0 ++ bytes 24 (0x10 <<< 32 + 1) ++ bytes 24 (2 <<< 48 + 0x12 <<< 32 + 3) ++
      bytes 8 0 ++ bytes 8 (1 <<< 32 + 1) ++ bytes 8 0)

open Endian (bytes) in
/-- An object with an init function and an exit function. -/
def hooked : List UInt8 :=
  small [unnamed 0 0 0 0 0 0 0 0, unnamed 3 0 320 25 0 0 1 0, unnamed 1 6 352 8 0 0 16 0,
      unnamed 2 0 360 72 1 1 8 24]
    (bytes 8 0x5f656c75646f6d00 ++ bytes 8 0x646f6d0074696e69 ++ bytes 8 0x746978655f656c75 ++
      bytes 8 0 ++ bytes 8 0xc3c3 ++ bytes 24 0 ++ bytes 24 (2 <<< 48 + 0x12 <<< 32 + 1) ++
      bytes 24 (1 <<< 64 + 2 <<< 48 + 0x12 <<< 32 + 13))

open Endian (bytes) in
/-- An object whose code calls a weak symbol `x` of another object twice. -/
def calling : List UInt8 :=
  small [unnamed 0 0 0 0 0 0 0 0, unnamed 3 0 384 3 0 0 1 0, unnamed 1 6 392 16 0 0 16 0,
      unnamed 2 0 408 48 1 1 8 24, unnamed 4 0 456 48 3 2 8 24]
    (bytes 8 0x7800 ++ bytes 8 0xe8 ++ bytes 8 0xe8 ++ bytes 24 0 ++
      bytes 24 (0x20 <<< 32 + 1) ++
      bytes 8 1 ++ bytes 8 (1 <<< 32 + 4) ++ bytes 8 0xfffffffffffffffc ++
      bytes 8 9 ++ bytes 8 (1 <<< 32 + 4) ++ bytes 8 0xfffffffffffffffc)

open Endian (bytes) in
/-- An object with code, a word of zeros that is only read, two pages of zeros that are not, and
a section that is not loaded. -/
def mixed : List UInt8 :=
  small [unnamed 0 0 0 0 0 0 0 0, unnamed 3 0 448 3 0 0 1 0, unnamed 1 6 456 8 0 0 16 0,
      unnamed 8 2 464 8 0 0 8 0, unnamed 8 3 464 5000 0 0 4096 0, unnamed 1 0 456 8 0 0 8 0]
    (bytes 8 0 ++ bytes 8 0xc3)

open Endian (bytes) in
/-- An object that gives memory to section 0, which stands for no section, and that asks for a
weak symbol `x` of another object. -/
def nullLoaded : List UInt8 :=
  small [unnamed 0 3 264 8 0 0 8 0, unnamed 3 0 256 3 0 0 1 0, unnamed 2 0 272 48 1 1 8 24]
    (bytes 8 0x7800 ++ bytes 8 1 ++ bytes 24 0 ++ bytes 24 (0x20 <<< 32 + 1))

end Object
end ModuleHost
