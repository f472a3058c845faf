import Mathlib.Data.List.Nodup
import ModuleHost.Fixup.Stub

namespace ModuleHost
namespace Fixup

/-!
# The page of stubs

A table of stubs only grows at its end, and never beyond its page.  The stub at a position
is therefore always found at the same address, with the same bytes.
-/

/-- Where the literal of a stub begins. -/
def literalOffset : Machine → Nat
  | .x86_64 => 6
  | .aarch64 => 8
  | .riscv => 16

theorem length_stubFrame (machine : Machine) :
    (stubFrame machine).1.length = literalOffset machine := by
  cases machine <;> rfl

/-- The literal of a stub is its target. -/
theorem slice_literal (machine : Machine) (target : Word) :
    Endian.slice (stubBytes machine target) (literalOffset machine) 8 =
      Endian.bytes 8 target.toNat := by
  rw [stubBytes, Endian.slice, ← length_stubFrame, List.append_assoc, List.drop_left,
    List.take_left' (Endian.length_bytes 8 _)]

namespace StubTable

/-- The same page with more stubs on it. -/
def withMore (table : StubTable) (targets : List Word) : StubTable :=
  { table with targets := table.targets ++ targets }

@[simp] theorem withMore_nil (table : StubTable) : table.withMore [] = table := by
  simp [withMore]

@[simp] theorem withMore_withMore (table : StubTable) (first second : List Word) :
    (table.withMore first).withMore second = table.withMore (first ++ second) := by
  simp [withMore]

/-- The stubs fit into the page. -/
def Fits (table : StubTable) : Prop :=
  table.targets.length ≤ table.capacity

theorem fits_withMore {table : StubTable} {target : Word}
    (room : table.targets.length < table.capacity) : (table.withMore [target]).Fits := by
  rw [Fits, withMore, List.length_append]
  exact room

/-! ## Asking for stubs -/

theorem stubFor_of_known {table : StubTable} {index : Nat} {target : Word}
    (nodup : table.targets.Nodup) (known : table.targets[index]? = some target) :
    table.stubFor target = .ok (table, table.addressOf index) := by
  have first : table.targets.idxOf? target = some index := by
    rcases List.getElem?_eq_some_iff.mp known with ⟨inside, rfl⟩
    refine List.idxOf?_eq_some_iff.mpr ⟨inside, rfl, fun earlier before same => ?_⟩
    exact Nat.ne_of_lt before (nodup.getElem_inj_iff.mp same)
  simp only [stubFor, first]

theorem stubFor_of_new {table : StubTable} {target : Word} (new : target ∉ table.targets)
    (room : table.targets.length < table.capacity) :
    table.stubFor target =
      .ok (table.withMore [target], table.addressOf table.targets.length) := by
  rw [stubFor, List.idxOf?_eq_none_iff.mpr new]
  exact if_neg (Nat.not_le_of_lt room)

theorem stubFor_of_full {table : StubTable} {target : Word} (new : target ∉ table.targets)
    (full : table.capacity ≤ table.targets.length) :
    table.stubFor target = .error .stubsExhausted := by
  rw [stubFor, List.idxOf?_eq_none_iff.mpr new]
  exact if_pos full

/-- The stub that is asked for is there already, or it is put behind the others if there is
room for it. -/
theorem stubFor_eq_ok {table table' : StubTable} {target : Word} {address : Address}
    (made : table.stubFor target = .ok (table', address)) :
    (∃ index, table.targets.idxOf? target = some index ∧ table' = table ∧
      address = table.addressOf index) ∨
    (table.targets.idxOf? target = none ∧ table.targets.length < table.capacity ∧
      table' = table.withMore [target] ∧ address = table.addressOf table.targets.length) := by
  unfold stubFor at made
  cases known : table.targets.idxOf? target with
  | some index =>
      rw [known] at made
      cases made
      exact .inl ⟨index, rfl, rfl, rfl⟩
  | none =>
      rw [known] at made
      simp only at made
      split at made
      · cases made
      · next room =>
          cases made
          exact .inr ⟨rfl, Nat.lt_of_not_le room, rfl, rfl⟩

/-- No stub is made only if the page is full of stubs for other targets. -/
theorem stubFor_eq_error {table : StubTable} {target : Word} {error : FixupError}
    (failed : table.stubFor target = .error error) :
    error = .stubsExhausted ∧ target ∉ table.targets ∧
      table.capacity ≤ table.targets.length := by
  unfold stubFor at failed
  split at failed
  · cases failed
  · next absent =>
      split at failed
      · next full =>
          cases failed
          exact ⟨rfl, List.idxOf?_eq_none_iff.mp absent, full⟩
      · cases failed

/-- Every stub is at one of the addresses for which there is room. -/
theorem addressOf_of_stubFor {table table' : StubTable} {target : Word} {address : Address}
    (fits : table.Fits) (made : table.stubFor target = .ok (table', address)) :
    ∃ index < table.capacity, address = table.addressOf index := by
  rcases stubFor_eq_ok made with ⟨index, known, -, same⟩ | ⟨-, room, -, same⟩
  · rcases List.idxOf?_eq_some_iff.mp known with ⟨bounded, _⟩
    exact ⟨index, Nat.lt_of_lt_of_le bounded fits, same⟩
  · exact ⟨_, room, same⟩

/-- At most one stub is added, and only if there is room for it. -/
theorem withMore_of_stubFor {table table' : StubTable} {target : Word} {address : Address}
    (made : table.stubFor target = .ok (table', address)) :
    ∃ targets, targets.length ≤ 1 ∧ table' = table.withMore targets ∧
      (table.Fits → table'.Fits) := by
  rcases stubFor_eq_ok made with ⟨index, -, rfl, -⟩ | ⟨-, room, rfl, -⟩
  · exact ⟨[], Nat.zero_le 1, table'.withMore_nil.symm, id⟩
  · exact ⟨[target], Nat.le_refl 1, rfl, fun _ => fits_withMore room⟩

/-- Asked for again, the stub is found where it was put. -/
theorem stubFor_again {table table' : StubTable} {target : Word} {address : Address}
    (made : table.stubFor target = .ok (table', address)) :
    table'.stubFor target = .ok (table', address) := by
  rcases stubFor_eq_ok made with ⟨index, -, rfl, -⟩ | ⟨absent, -, rfl, rfl⟩
  · exact made
  · have last : (table.withMore [target]).targets.idxOf? target =
        some table.targets.length := by
      rw [List.idxOf?] at absent
      simp [withMore, List.idxOf?, List.findIdx?_append, absent]
    simp only [stubFor, last]
    rfl

/-! ## Addresses -/

/-- The stubs for which there is room lie wholly in the page. -/
theorem addressOf_add_le {table : StubTable} {index : Nat} (bounded : index < table.capacity) :
    table.addressOf index + stubSize table.machine ≤ table.base + pageSize := by
  rw [addressOf, Nat.add_assoc, ← Nat.succ_mul]
  refine Nat.add_le_add_left ?_ _
  calc (index + 1) * stubSize table.machine
      ≤ table.capacity * stubSize table.machine := Nat.mul_le_mul_right _ bounded
    _ ≤ pageSize := Nat.div_mul_le_self _ _

theorem addressOf_within {table : StubTable} {index : Nat} (bounded : index < table.capacity) :
    table.base ≤ table.addressOf index ∧ table.addressOf index < table.base + pageSize := by
  have positive : 0 < stubSize table.machine := by cases table.machine <;> decide
  exact ⟨Nat.le_add_right _ _,
    Nat.lt_of_lt_of_le (Nat.lt_add_of_pos_right positive) (addressOf_add_le bounded)⟩

/-- Stubs begin at multiples of eight, as their page does. -/
theorem addressOf_mod_eight {table : StubTable} (aligned : table.base % pageSize = 0)
    (index : Nat) : table.addressOf index % 8 = 0 := by
  have whole : stubSize table.machine % 8 = 0 := by cases table.machine <;> decide
  rw [pageSize] at aligned
  rw [addressOf, Nat.add_mod, Nat.mul_mod, whole]
  lia

/-! ## Bytes -/

theorem bytes_withMore (table : StubTable) (targets : List Word) :
    (table.withMore targets).bytes =
      table.bytes ++ targets.flatMap (stubBytes table.machine) := by
  rw [bytes, withMore, List.flatMap_append]
  rfl

theorem length_bytes (table : StubTable) :
    table.bytes.length = table.targets.length * stubSize table.machine := by
  unfold bytes
  induction table.targets with
  | nil => simp
  | cons target rest ih =>
      rw [List.flatMap_cons, List.length_append, length_stubBytes, ih, List.length_cons,
        Nat.succ_mul, Nat.add_comm]

theorem length_bytes_le {table : StubTable} (fits : table.Fits) :
    table.bytes.length ≤ pageSize := by
  rw [length_bytes]
  calc table.targets.length * stubSize table.machine
      ≤ table.capacity * stubSize table.machine := Nat.mul_le_mul_right _ fits
    _ ≤ pageSize := Nat.div_mul_le_self _ _

/-- The stub of a target lies at its position. -/
theorem slice_bytes {table : StubTable} {index : Nat} {target : Word}
    (found : table.targets[index]? = some target) :
    index * stubSize table.machine + stubSize table.machine ≤ table.bytes.length ∧
      Endian.slice table.bytes (index * stubSize table.machine) (stubSize table.machine) =
        stubBytes table.machine target := by
  constructor
  · rw [length_bytes, ← Nat.succ_mul]
    exact Nat.mul_le_mul_right _ (List.getElem?_eq_some_iff.mp found).1
  · unfold bytes
    generalize table.targets = targets at found
    induction targets generalizing index with
    | nil => cases found
    | cons first rest ih =>
        cases index with
        | zero =>
            rcases Option.some.inj found
            rw [Nat.zero_mul, Endian.slice, List.drop_zero, List.flatMap_cons,
              ← length_stubBytes table.machine target, List.take_left]
        | succ index =>
            have skipped : (stubBytes table.machine first ++
                rest.flatMap (stubBytes table.machine)).drop (stubSize table.machine) =
                rest.flatMap (stubBytes table.machine) := by
              rw [← length_stubBytes table.machine first, List.drop_left]
            rw [Endian.slice, List.flatMap_cons, Nat.succ_mul, Nat.add_comm (index * _),
              ← List.drop_drop, skipped]
            exact ih found

end StubTable

end Fixup
end ModuleHost
