import ModuleHost.Endian
import ModuleHost.Memory
import ModuleHost.Proofs.Arena.Leases

namespace ModuleHost

/-!
# Changes of memory

A change of memory is described by the ranges that it stays in.  What lies in a range
apart from them is read as before.
-/

namespace Range

/-- The address lies in the range. -/
def Has (range : Range) (address : Address) : Prop :=
  range.start ≤ address ∧ address < range.start + range.size

/-- All addresses of the inner range lie in the outer one. -/
def Within (inner outer : Range) : Prop :=
  outer.start ≤ inner.start ∧ inner.start + inner.size ≤ outer.start + outer.size

theorem Within.refl (range : Range) : Within range range :=
  ⟨Nat.le_refl _, Nat.le_refl _⟩

theorem Within.trans {inner middle outer : Range} (within : Within inner middle)
    (within' : Within middle outer) : Within inner outer :=
  ⟨Nat.le_trans within'.1 within.1, Nat.le_trans within.2 within'.2⟩

/-- Parts of ranges without a common address have none. -/
theorem Apart.mono {left right left' right' : Range} (apart : Apart left right)
    (within : Within left' left) (within' : Within right' right) : Apart left' right' := by
  unfold Apart at apart ⊢
  unfold Within at within within'
  lia

theorem Apart.not_has {left right : Range} (apart : Apart left right) {address : Address}
    (inside : left.Has address) : ¬right.Has address := by
  unfold Apart at apart
  unfold Has at inside ⊢
  lia

/-- Apart from the whole is apart from its front. -/
theorem Apart.front {range : Range} {start : Address} {count size : Nat}
    (apart : Apart range ⟨start, size⟩) (within : count ≤ size) :
    Apart range ⟨start, count⟩ := by
  unfold Apart at apart ⊢
  lia

end Range

namespace Memory

/-- Bytes outside the ranges are as before. -/
def ChangesIn (ranges : List Range) (before after : Memory) : Prop :=
  ∀ address, (∀ range ∈ ranges, ¬range.Has address) →
    after.byteAt address = before.byteAt address

namespace ChangesIn

variable {ranges : List Range} {first second third : Memory}

theorem trans (changes : ChangesIn ranges first second)
    (changes' : ChangesIn ranges second third) : ChangesIn ranges first third :=
  fun address outside => (changes' address outside).trans (changes address outside)

/-- A change in ranges that lie in others is a change in the others. -/
theorem cover {ranges' : List Range} (changes : ChangesIn ranges first second)
    (covered : ∀ range ∈ ranges, ∃ outer ∈ ranges', Range.Within range outer) :
    ChangesIn ranges' first second := by
  intro address outside
  apply changes
  intro range listed inside
  rcases covered range listed with ⟨outer, listed', within⟩
  exact outside outer listed'
    ⟨Nat.le_trans within.1 inside.1, Nat.lt_of_lt_of_le inside.2 within.2⟩

theorem mono {ranges' : List Range} (changes : ChangesIn ranges first second)
    (within : ranges ⊆ ranges') : ChangesIn ranges' first second :=
  changes.cover fun range listed => ⟨range, within listed, .refl range⟩

/-- A change in the front of a range is a change in the range. -/
theorem widen {start : Address} {count size : Nat}
    (changes : ChangesIn [⟨start, count⟩] first second) (within : count ≤ size) :
    ChangesIn [⟨start, size⟩] first second :=
  changes.cover (List.forall_mem_singleton.mpr
    ⟨_, List.mem_cons_self, Nat.le_refl _, Nat.add_le_add_left within start⟩)

/-- A byte of a range apart from the change. -/
theorem byteAt_eq {range changed : Range} (changes : ChangesIn [changed] first second)
    (apart : Range.Apart range changed) {address : Address} (inside : range.Has address) :
    second.byteAt address = first.byteAt address := by
  apply changes
  intro other listed
  rw [List.mem_singleton.mp listed]
  exact apart.not_has inside

end ChangesIn

theorem changesIn_write (memory : Memory) (start : Address) (bytes : List UInt8) :
    ChangesIn [⟨start, bytes.length⟩] memory (memory.write start bytes) := by
  intro address outside
  have beyond := outside _ List.mem_cons_self
  unfold Range.Has at beyond
  rw [byteAt_write, if_neg]
  lia

theorem changesIn_fill (memory : Memory) (start : Address) (count : Nat) (byte : UInt8) :
    ChangesIn [⟨start, count⟩] memory (memory.fill start count byte) := by
  intro address outside
  have beyond : ¬(start ≤ address ∧ address < start + count) := outside _ List.mem_cons_self
  rw [byteAt_fill, if_neg beyond]

/-! ## Writing -/

theorem ext_byteAt {first second : Memory}
    (same : ∀ address, first.byteAt address = second.byteAt address) : first = second :=
  congrArg mk (funext same)

theorem write_nil (memory : Memory) (start : Address) : memory.write start [] = memory := by
  apply ext_byteAt
  intro address
  rw [byteAt_write, if_neg fun inside => Nat.not_lt_zero _ inside.2]

/-- Writing on from where the last run ended is writing both runs at once. -/
theorem write_append (memory : Memory) (start : Address) (front back : List UInt8) :
    memory.write start (front ++ back) =
      (memory.write start front).write (start + front.length) back := by
  apply ext_byteAt
  intro address
  rw [byteAt_write, byteAt_write, byteAt_write, List.length_append]
  simp only [List.getD_eq_getElem?_getD]
  by_cases early : start ≤ address ∧ address - start < front.length
  · have behind : ¬start + front.length ≤ address := by lia
    rw [if_pos ⟨early.1, Nat.lt_add_right _ early.2⟩, if_neg fun late => behind late.1,
      if_pos early, List.getElem?_append_left early.2]
  · rw [if_neg early]
    by_cases late : start + front.length ≤ address ∧
        address - (start + front.length) < back.length
    · have beyond : front.length ≤ address - start := by lia
      rw [if_pos late, if_pos (by lia), List.getElem?_append_right beyond, Nat.sub_add_eq]
    · rw [if_neg late, if_neg (by lia)]

/-! ## Reading -/

theorem getElem?_read (memory : Memory) (start : Address) (count index : Nat) :
    (memory.read start count)[index]? =
      if index < count then some (memory.byteAt (start + index)) else none := by
  rw [read, List.getElem?_map]
  split
  · next inside => rw [List.getElem?_range inside, Option.map_some]
  · next beyond =>
      rw [List.getElem?_eq_none (by rw [List.length_range]; exact Nat.le_of_not_lt beyond),
        Option.map_none]

theorem read_add (memory : Memory) (start : Address) (front back : Nat) :
    memory.read start (front + back) =
      memory.read start front ++ memory.read (start + front) back := by
  rw [read, read, read, List.range_add, List.map_append, List.map_map]
  simp only [Function.comp_def, Nat.add_assoc]

theorem read_congr {first second : Memory} {start : Address} {count : Nat}
    (same : ∀ offset < count, second.byteAt (start + offset) = first.byteAt (start + offset)) :
    second.read start count = first.read start count := by
  apply List.map_congr_left
  intro offset listed
  exact same offset (List.mem_range.mp listed)

/-- Bytes apart from a change are read as before. -/
theorem ChangesIn.read_eq {ranges : List Range} {first second : Memory}
    (changes : ChangesIn ranges first second) {start : Address} {count : Nat}
    (apart : ∀ range ∈ ranges, Range.Apart ⟨start, count⟩ range) :
    second.read start count = first.read start count := by
  apply read_congr
  intro offset inside
  apply changes
  intro range listed
  exact (apart range listed).not_has
    ⟨Nat.le_add_right _ _, Nat.add_lt_add_left inside start⟩

theorem byteAt_write_self (memory : Memory) (start : Address) (bytes : List UInt8)
    {offset : Nat} (inside : offset < bytes.length) :
    (memory.write start bytes).byteAt (start + offset) = bytes.getD offset 0 := by
  rw [byteAt_write, Nat.add_sub_cancel_left, if_pos ⟨Nat.le_add_right _ _, inside⟩]

/-- What was written is read back, from any place inside it. -/
theorem read_write (memory : Memory) (start : Address) (bytes : List UInt8)
    {offset count : Nat} (within : offset + count ≤ bytes.length) :
    (memory.write start bytes).read (start + offset) count =
      Endian.slice bytes offset count := by
  apply List.ext_getElem?
  intro index
  rw [getElem?_read, Endian.slice, List.getElem?_take, List.getElem?_drop]
  split
  · next inside =>
      have bounded : offset + index < bytes.length :=
        Nat.lt_of_lt_of_le (Nat.add_lt_add_left inside _) within
      rw [Nat.add_assoc, byteAt_write_self memory start bytes bounded,
        List.getD_eq_getElem?_getD, List.getElem?_eq_getElem bounded, Option.getD_some]
  · rfl

theorem read_write_self (memory : Memory) (start : Address) (bytes : List UInt8) :
    (memory.write start bytes).read start bytes.length = bytes := by
  have whole := read_write memory start bytes (Nat.le_of_eq (Nat.zero_add bytes.length))
  rw [Nat.add_zero] at whole
  rw [whole, Endian.slice, List.drop_zero, List.take_length]

/-- A part of what is read. -/
theorem slice_read (memory : Memory) (start : Address) {offset width count : Nat}
    (within : offset + width ≤ count) :
    Endian.slice (memory.read start count) offset width = memory.read (start + offset) width := by
  apply List.ext_getElem?
  intro index
  rw [Endian.slice, List.getElem?_take, List.getElem?_drop, getElem?_read, getElem?_read]
  split
  · next inside => rw [if_pos (Nat.lt_of_lt_of_le (Nat.add_lt_add_left inside _) within),
      Nat.add_assoc]
  · rfl

end Memory

end ModuleHost
