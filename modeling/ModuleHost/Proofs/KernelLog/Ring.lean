import Mathlib.Algebra.GroupWithZero.Nat
import Mathlib.Data.List.Forall2
import Mathlib.Data.List.Infix
import ModuleHost.KernelLog.Ring
import ModuleHost.Proofs.Endian
import ModuleHost.Proofs.Text.Utf8

namespace ModuleHost
namespace KernelLog

/-!
# What the log ring keeps

The ring is a bounded queue of records.  Whatever was appended, it holds the longest run
of newest records whose bytes fit, and reading gives exactly these, oldest first, each with
its severity and time and with as much of its message as is kept.

The invariant is `Holds`: from the oldest position to the end the cells spell the records
one after another.  Positions that reading or dropping comes to are therefore boundaries
between records, and the lengths found there are those of whole records.
-/

namespace Entry

/-- The bytes of a record in the ring. -/
def stored (record : Entry) : List UInt8 :=
  encodeEntry record.severity record.timestamp (Text.encode record.message)

/-- How many bytes a record takes. -/
def storedSize (record : Entry) : Nat :=
  headerSize + min (Text.encode record.message).length messageLimit

/-- The record as it is read back. -/
def shortened (record : Entry) : Entry :=
  { record with
    message := Text.decodeLeading ((Text.encode record.message).take messageLimit) }

theorem length_stored (record : Entry) : record.stored.length = record.storedSize := by
  simp only [stored, encodeEntry, storedSize, headerSize, List.length_append, List.length_cons,
    List.length_take, Endian.length_bytes]
  omega

theorem headerSize_le (record : Entry) : headerSize ≤ record.storedSize :=
  Nat.le_add_right _ _

theorem storedSize_le (record : Entry) : record.storedSize ≤ headerSize + messageLimit :=
  Nat.add_le_add_left (Nat.min_le_right _ _) _

end Entry

/-- How many bytes records take. -/
def storedBytes (records : List Entry) : Nat :=
  (records.map Entry.storedSize).sum

@[simp] theorem storedBytes_nil : storedBytes [] = 0 :=
  rfl

@[simp] theorem storedBytes_cons (record : Entry) (records : List Entry) :
    storedBytes (record :: records) = record.storedSize + storedBytes records := by
  simp [storedBytes]

@[simp] theorem storedBytes_append (front back : List Entry) :
    storedBytes (front ++ back) = storedBytes front + storedBytes back := by
  simp [storedBytes]

/-! ## The newest records that fit -/

/-- The longest run of newest records that takes at most `limit` bytes. -/
def newest (limit : Nat) : List Entry → List Entry
  | [] => []
  | record :: rest =>
    if storedBytes (record :: rest) ≤ limit then record :: rest else newest limit rest

theorem newest_suffix (limit : Nat) (records : List Entry) : newest limit records <:+ records := by
  induction records with
  | nil => exact List.suffix_rfl
  | cons record rest ih =>
      rw [newest]
      split
      · exact List.suffix_rfl
      · exact ih.trans (List.suffix_cons record rest)

theorem storedBytes_newest_le (limit : Nat) (records : List Entry) :
    storedBytes (newest limit records) ≤ limit := by
  induction records with
  | nil => exact Nat.zero_le limit
  | cons record rest ih =>
      rw [newest]
      split
      · next fits => exact fits
      · exact ih

/-- Every run of newest records that fits is part of it. -/
theorem suffix_newest {limit : Nat} {records other : List Entry} (ends : other <:+ records)
    (fits : storedBytes other ≤ limit) : other <:+ newest limit records := by
  induction records with
  | nil => exact ends
  | cons record rest ih =>
      rw [newest]
      split
      · exact ends
      · next excess =>
          rcases List.suffix_cons_iff.mp ends with rfl | shorter
          · exact absurd fits excess
          · exact ih shorter

/-- The records are the longest run of newest ones that takes at most `limit` bytes. -/
structure Newest (limit : Nat) (records kept : List Entry) : Prop where
  ends : kept <:+ records
  fits : storedBytes kept ≤ limit
  longest : ∀ other, other <:+ records → storedBytes other ≤ limit → other <:+ kept

theorem newest_spec (limit : Nat) (records : List Entry) :
    Newest limit records (newest limit records) :=
  ⟨newest_suffix limit records, storedBytes_newest_le limit records, fun _ => suffix_newest⟩

/-- The run of newest records is determined by what it has to satisfy. -/
theorem newest_eq {limit : Nat} {records kept : List Entry} (ends : kept <:+ records)
    (fits : storedBytes kept ≤ limit)
    (longest : ∀ other, other <:+ records → storedBytes other ≤ limit → other <:+ kept) :
    newest limit records = kept :=
  (longest _ (newest_suffix limit records) (storedBytes_newest_le limit records)).eq_of_length
    (Nat.le_antisymm
      (longest _ (newest_suffix limit records) (storedBytes_newest_le limit records)).length_le
      (suffix_newest ends fits).length_le)

/-- With one more record, the older ones have what it leaves. -/
theorem newest_concat {limit : Nat} {record : Entry} (fits : record.storedSize ≤ limit)
    (records : List Entry) :
    newest limit (records ++ [record]) =
      newest (limit - record.storedSize) (newest limit records) ++ [record] := by
  have older : newest (limit - record.storedSize) (newest limit records) <:+ records :=
    (newest_suffix _ _).trans (newest_suffix _ _)
  have bounded := storedBytes_newest_le (limit - record.storedSize) (newest limit records)
  apply newest_eq
  · rcases older with ⟨front, same⟩
    exact ⟨front, by rw [← List.append_assoc, same]⟩
  · rw [storedBytes_append, storedBytes_cons, storedBytes_nil]
    omega
  · intro other ends within
    rcases List.suffix_concat_iff.mp ends with rfl | ⟨front, rfl, older'⟩
    · exact List.nil_suffix
    · rw [storedBytes_append, storedBytes_cons, storedBytes_nil] at within
      have recent := suffix_newest older' (show storedBytes front ≤ limit by omega)
      rcases suffix_newest recent (show storedBytes front ≤ limit - record.storedSize by omega)
        with ⟨more, same⟩
      exact ⟨more, by rw [← List.append_assoc, same]⟩

/-- The newest of all records is kept. -/
theorem getLast?_newest {limit : Nat} (large : headerSize + messageLimit ≤ limit)
    (records : List Entry) : (newest limit records).getLast? = records.getLast? := by
  rcases List.eq_nil_or_concat' records with rfl | ⟨front, record, rfl⟩
  · rfl
  · rw [newest_concat (Nat.le_trans record.storedSize_le large), List.getLast?_concat,
      List.getLast?_concat]

/-! ## Cells -/

namespace Ring

variable {capacity : Nat} {ring : Ring capacity} {position : Nat}

/-- Within one capacity a position has a cell of its own. -/
theorem byteAt_push (byte : UInt8) (recent : ring.written < position + capacity)
    (within : position ≤ ring.written) :
    (ring.push byte).byteAt position =
      if position = ring.written then byte else ring.byteAt position := by
  have positive : 0 < capacity := by omega
  unfold byteAt push
  simp only [Vector.toArray_setIfInBounds, Array.getD_eq_getD_getElem?,
    Array.getElem?_setIfInBounds]
  by_cases same : position = ring.written
  · subst same
    simp [Nat.mod_lt _ positive]
  · have apart : ring.written % capacity ≠ position % capacity := by
      intro meets
      have whole := Nat.sub_mod_eq_zero_of_mod_eq meets
      rw [Nat.mod_eq_of_lt (by omega)] at whole
      omega
    rw [if_neg apart, if_neg same]

@[simp] theorem written_extend (ring : Ring capacity) (bytes : List UInt8) :
    (ring.extend bytes).written = ring.written + bytes.length := by
  induction bytes generalizing ring with
  | nil => rfl
  | cons byte rest ih =>
      rw [extend, List.foldl_cons, ← extend, ih, List.length_cons]
      show ring.written + 1 + rest.length = _
      omega

@[simp] theorem oldest_extend (ring : Ring capacity) (bytes : List UInt8) :
    (ring.extend bytes).oldest = ring.oldest := by
  induction bytes generalizing ring with
  | nil => rfl
  | cons byte rest ih => rw [extend, List.foldl_cons, ← extend, ih]; rfl

/-- The last positions hold what was written, those before what they held. -/
theorem byteAt_extend (bytes : List UInt8)
    (recent : ring.written + bytes.length ≤ position + capacity)
    (within : position < ring.written + bytes.length) :
    (ring.extend bytes).byteAt position =
      if position < ring.written then ring.byteAt position
      else bytes.getD (position - ring.written) 0 := by
  induction bytes generalizing ring with
  | nil => rw [if_pos (by simpa using within)]; rfl
  | cons byte rest ih =>
      rw [List.length_cons] at recent within
      have pushed : (ring.push byte).written = ring.written + 1 := rfl
      rw [extend, List.foldl_cons, ← extend, ih (by omega) (by omega), pushed]
      by_cases before : position < ring.written
      · rw [if_pos (by omega), if_pos before, byteAt_push byte (by omega) (by omega),
          if_neg (by omega)]
      · by_cases here : position = ring.written
        · rw [if_pos (by omega), if_neg before, byteAt_push byte (by omega) (by omega),
            if_pos here, here, Nat.sub_self, List.getD_cons_zero]
        · rw [if_neg (by omega), if_neg before,
            show position - ring.written = position - (ring.written + 1) + 1 by omega,
            List.getD_cons_succ]

/-! ## Runs of cells -/

/-- The cells from a position on hold the bytes. -/
def Spells (ring : Ring capacity) (position : Nat) (bytes : List UInt8) : Prop :=
  ring.bytesAt position bytes.length = bytes

theorem bytesAt_add (ring : Ring capacity) (position first second : Nat) :
    ring.bytesAt position (first + second) =
      ring.bytesAt position first ++ ring.bytesAt (position + first) second := by
  simp [bytesAt, List.range_add, Nat.add_assoc, Function.comp_def]

@[simp] theorem length_bytesAt (ring : Ring capacity) (position count : Nat) :
    (ring.bytesAt position count).length = count := by
  simp [bytesAt]

theorem spells_append {front back : List UInt8} :
    ring.Spells position (front ++ back) ↔
      ring.Spells position front ∧ ring.Spells (position + front.length) back := by
  unfold Spells
  rw [List.length_append, bytesAt_add]
  constructor
  · exact fun same => List.append_inj same (length_bytesAt ring position front.length)
  · rintro ⟨first, second⟩
    rw [first, second]

/-- What was spelt before is still spelt if it is within one capacity of the end. -/
theorem Spells.extend {front : List UInt8} (spells : ring.Spells position front)
    (bytes : List UInt8) (before : position + front.length ≤ ring.written)
    (recent : ring.written + bytes.length ≤ position + capacity) :
    (ring.extend bytes).Spells position front := by
  unfold Spells at spells ⊢
  conv => rhs; rw [← spells]
  apply List.map_congr_left
  intro offset listed
  have bounded := List.mem_range.mp listed
  rw [byteAt_extend bytes (by omega) (by omega), if_pos (by omega)]

/-- What is written is spelt behind what was there. -/
theorem spells_extend (bytes : List UInt8) (fits : bytes.length ≤ capacity) :
    (ring.extend bytes).Spells ring.written bytes := by
  apply List.ext_getElem (length_bytesAt _ _ _)
  intro offset _ bounded
  simp only [bytesAt, List.getElem_map, List.getElem_range]
  rw [byteAt_extend bytes (by omega) (by omega), if_neg (by omega), Nat.add_sub_cancel_left,
    List.getD_eq_getElem?_getD, List.getElem?_eq_getElem bounded, Option.getD_some]

/-! ## One record in the cells -/

/-- Length, severity, time and message of a record lie behind one another. -/
theorem Spells.parts {record : Entry} (spells : ring.Spells position record.stored) :
    ring.Spells position (Endian.bytes 4 record.storedSize) ∧
      ring.byteAt (position + 4) = UInt8.ofNat record.severity.rank ∧
      ring.Spells (position + 5) (Endian.bytes 8 record.timestamp.toNat) ∧
      ring.Spells (position + headerSize) ((Text.encode record.message).take messageLimit) := by
  have size : headerSize + ((Text.encode record.message).take messageLimit).length =
      record.storedSize := by
    rw [List.length_take, Nat.min_comm]
    rfl
  unfold Entry.stored encodeEntry at spells
  simp only [size] at spells
  rw [spells_append, spells_append, ← List.singleton_append, spells_append] at spells
  simp only [List.length_append, List.length_singleton, Endian.length_bytes, ← Nat.add_assoc]
    at spells
  rcases spells with ⟨⟨length, severity, time⟩, message⟩
  exact ⟨length, (List.cons.inj severity).1, time, message⟩

theorem Spells.lengthAt {record : Entry} (spells : ring.Spells position record.stored) :
    ring.lengthAt position = record.storedSize := by
  have small := record.storedSize_le
  have length := spells.parts.1
  unfold Spells at length
  rw [Endian.length_bytes] at length
  rw [Ring.lengthAt, length, Endian.value_bytes]
  exact Nat.mod_eq_of_lt (Nat.lt_of_le_of_lt small (by decide))

theorem Spells.entryAt {record : Entry} (spells : ring.Spells position record.stored) :
    ring.entryAt position record.storedSize = record.shortened := by
  rcases spells.parts with ⟨_, severity, time, message⟩
  unfold Spells at time message
  have count : min (record.storedSize - headerSize) messageLimit =
      ((Text.encode record.message).take messageLimit).length := by
    rw [List.length_take, Entry.storedSize]
    omega
  have rank : (UInt8.ofNat record.severity.rank).toNat = record.severity.rank := by
    cases record.severity <;> rfl
  rw [Endian.length_bytes] at time
  rw [Ring.entryAt, severity, rank, Severity.ofRank_rank, time, Endian.value_bytes, count,
    message, show 256 ^ 8 = 2 ^ 64 from rfl, Nat.mod_eq_of_lt record.timestamp.toNat_lt,
    UInt64.ofNat_toNat]
  rfl

/-! ## The records in the ring -/

/-- The ring holds the records, the oldest at its oldest position. -/
structure Holds (ring : Ring capacity) (records : List Entry) : Prop where
  stop_eq : ring.oldest + storedBytes records = ring.written
  fits : storedBytes records ≤ capacity
  spells : ring.Spells ring.oldest (records.flatMap Entry.stored)

theorem length_stored (records : List Entry) :
    (records.flatMap Entry.stored).length = storedBytes records := by
  simp [storedBytes, List.length_flatMap, Entry.length_stored]

theorem holds_empty : (empty : Ring capacity).Holds [] :=
  ⟨rfl, Nat.zero_le _, rfl⟩

/-- Reading from a boundary between records gives the records behind it. -/
theorem entriesFrom_eq {records : List Entry}
    (stop : position + storedBytes records = ring.written)
    (spells : ring.Spells position (records.flatMap Entry.stored)) :
    ring.entriesFrom position = records.map Entry.shortened := by
  induction records generalizing position with
  | nil =>
      rw [storedBytes_nil] at stop
      rw [entriesFrom, if_neg (by simp only [headerSize]; omega), List.map_nil]
  | cons record rest ih =>
      rw [List.flatMap_cons, spells_append, Entry.length_stored] at spells
      rw [storedBytes_cons] at stop
      have least := record.headerSize_le
      rw [entriesFrom, if_pos (by omega)]
      simp only [spells.1.lengthAt]
      rw [if_neg (by omega), spells.1.entryAt, ih (by omega) spells.2, List.map_cons]

theorem Holds.entries_eq {records : List Entry} (holds : ring.Holds records) :
    ring.entries = records.map Entry.shortened :=
  entriesFrom_eq holds.stop_eq holds.spells

/-- Dropping leaves the newest records that fit beside what is to be written. -/
theorem firstKept_eq {records : List Entry} {size : Nat} (fits : size ≤ capacity)
    (stop : position + storedBytes records = ring.written)
    (spells : ring.Spells position (records.flatMap Entry.stored)) :
    ring.firstKept (ring.written + size) position +
      storedBytes (newest (capacity - size) records) = ring.written := by
  induction records generalizing position with
  | nil =>
      rw [storedBytes_nil] at stop
      rw [firstKept, if_neg (by omega)]
      exact stop
  | cons record rest ih =>
      rw [List.flatMap_cons, spells_append, Entry.length_stored] at spells
      have whole := stop
      rw [storedBytes_cons] at stop
      have least := record.headerSize_le
      rw [firstKept, newest]
      by_cases excess : capacity < ring.written + size - position
      · have beyond : ¬storedBytes (record :: rest) ≤ capacity - size := by omega
        rw [if_pos excess, if_neg beyond]
        simp only [spells.1.lengthAt]
        rw [if_neg (by omega), ih (by omega) spells.2]
      · rw [if_neg excess, if_pos (by omega), whole]

/-- Dropping keeps the newest records that leave room. -/
theorem Holds.drop {records : List Entry} (holds : ring.Holds records) {size : Nat}
    (fits : size ≤ capacity) :
    Holds { ring with oldest := ring.firstKept (ring.written + size) ring.oldest }
      (newest (capacity - size) records) := by
  have oldest := firstKept_eq fits holds.stop_eq holds.spells
  have bounded := storedBytes_newest_le (capacity - size) records
  refine ⟨oldest, by omega, ?_⟩
  -- The kept records are the last of those that the ring spelt before.
  rcases newest_suffix (capacity - size) records with ⟨dropped, parts⟩
  have spells := holds.spells
  have stop := holds.stop_eq
  rw [← parts] at spells stop
  rw [List.flatMap_append, spells_append, length_stored] at spells
  rw [storedBytes_append] at stop
  have here : ring.firstKept (ring.written + size) ring.oldest =
      ring.oldest + storedBytes dropped := by omega
  have behind := spells.2
  rw [← here] at behind
  exact behind

/-- A record that fits is written behind those that are held. -/
theorem Holds.extend {records : List Entry} (holds : ring.Holds records) {record : Entry}
    (fits : storedBytes records + record.storedSize ≤ capacity) :
    (ring.extend record.stored).Holds (records ++ [record]) := by
  have size := record.length_stored
  have stop := holds.stop_eq
  refine ⟨?_, ?_, ?_⟩
  · rw [oldest_extend, written_extend, storedBytes_append, storedBytes_cons, storedBytes_nil, size]
    omega
  · rw [storedBytes_append, storedBytes_cons, storedBytes_nil]
    omega
  · rw [List.flatMap_append, spells_append, length_stored, oldest_extend, stop,
      List.flatMap_singleton]
    constructor
    · apply holds.spells.extend
      · rw [length_stored]
        exact Nat.le_of_eq stop
      · rw [size]
        omega
    · exact spells_extend record.stored (by omega)

/-- Appending puts a record behind the newest ones that fit beside it. -/
theorem Holds.append {records : List Entry} (holds : ring.Holds records) (record : Entry)
    (fits : record.storedSize ≤ capacity) :
    (ring.append record.severity record.timestamp record.message).Holds
      (newest (capacity - record.storedSize) records ++ [record]) := by
  have bounded := storedBytes_newest_le (capacity - record.storedSize) records
  have appended : ring.append record.severity record.timestamp record.message =
      Ring.extend { ring with
        oldest := ring.firstKept (ring.written + record.stored.length) ring.oldest }
        record.stored := rfl
  rw [appended, record.length_stored]
  exact (holds.drop fits).extend (by omega)

/-- Append records in order. -/
def appendAll (ring : Ring capacity) (records : List Entry) : Ring capacity :=
  records.foldl (fun ring record =>
    ring.append record.severity record.timestamp record.message) ring

theorem appendAll_concat (ring : Ring capacity) (front : List Entry) (record : Entry) :
    ring.appendAll (front ++ [record]) =
      (ring.appendAll front).append record.severity record.timestamp record.message := by
  rw [appendAll, List.foldl_concat, ← appendAll]

/-- After any records the ring holds the newest ones that fit. -/
theorem holds_appendAll (large : headerSize + messageLimit ≤ capacity) (records : List Entry) :
    ((empty : Ring capacity).appendAll records).Holds (newest capacity records) := by
  induction records using List.reverseRecOn with
  | nil => exact holds_empty
  | append_singleton front record ih =>
      have fits := Nat.le_trans record.storedSize_le large
      rw [appendAll_concat, newest_concat fits]
      exact ih.append record fits

/-! ## Boundaries -/

/-- The positions at which dropping looks for room up to `stop`. -/
inductive Drops (ring : Ring capacity) (stop : Nat) : Nat → Prop
  | start : Drops ring stop ring.oldest
  | next {position : Nat} (looks : Drops ring stop position)
      (excess : capacity < stop - position) (whole : headerSize ≤ ring.lengthAt position) :
      Drops ring stop (position + ring.lengthAt position)

/-- The positions at which reading looks for a record. -/
inductive Reads (ring : Ring capacity) : Nat → Prop
  | start : Reads ring ring.oldest
  | next {position : Nat} (looks : Reads ring position)
      (room : position + headerSize ≤ ring.written)
      (whole : headerSize ≤ ring.lengthAt position)
      (within : position + ring.lengthAt position ≤ ring.written) :
      Reads ring (position + ring.lengthAt position)

/-- A position between two records that are held. -/
def Boundary (ring : Ring capacity) (records : List Entry) (position : Nat) : Prop :=
  ∃ before behind, records = before ++ behind ∧ position = ring.oldest + storedBytes before

variable {records : List Entry}

theorem boundary_oldest (ring : Ring capacity) (records : List Entry) :
    ring.Boundary records ring.oldest :=
  ⟨[], records, rfl, rfl⟩

/-- Behind a boundary before the end lies a whole record, and then another boundary. -/
theorem Holds.boundary (holds : ring.Holds records) (boundary : ring.Boundary records position)
    (before : position < ring.written) :
    headerSize ≤ ring.lengthAt position ∧ position + ring.lengthAt position ≤ ring.written ∧
      ring.Boundary records (position + ring.lengthAt position) := by
  rcases boundary with ⟨front, behind, rfl, rfl⟩
  have stop := holds.stop_eq
  have spells := holds.spells
  rw [storedBytes_append] at stop
  rw [List.flatMap_append, spells_append, length_stored] at spells
  cases behind with
  | nil =>
      rw [storedBytes_nil] at stop
      omega
  | cons record rest =>
      rw [List.flatMap_cons, spells_append] at spells
      rw [storedBytes_cons] at stop
      rw [spells.2.1.lengthAt]
      refine ⟨record.headerSize_le, by omega, front ++ [record], rest, by simp, ?_⟩
      rw [storedBytes_append, storedBytes_cons, storedBytes_nil]
      omega

/-- Dropping only looks at boundaries, and finds whole records. -/
theorem Holds.whole_of_drops (holds : ring.Holds records) {size : Nat} (fits : size ≤ capacity)
    (looks : ring.Drops (ring.written + size) position)
    (excess : capacity < ring.written + size - position) :
    headerSize ≤ ring.lengthAt position := by
  have boundary : ring.Boundary records position := by
    clear excess
    induction looks with
    | start => exact boundary_oldest ring records
    | next _ excess _ ih => exact (holds.boundary ih (by omega)).2.2
  exact (holds.boundary boundary (by omega)).1

/-- Reading only looks at boundaries, and finds whole records. -/
theorem Holds.whole_of_reads (holds : ring.Holds records) (looks : ring.Reads position)
    (room : position + headerSize ≤ ring.written) :
    headerSize ≤ ring.lengthAt position ∧ position + ring.lengthAt position ≤ ring.written := by
  have before {position : Nat} (room : position + headerSize ≤ ring.written) :
      position < ring.written :=
    Nat.lt_of_lt_of_le (Nat.lt_add_of_pos_right (by decide)) room
  have boundary : ring.Boundary records position := by
    clear room
    induction looks with
    | start => exact boundary_oldest ring records
    | next _ room _ _ ih => exact (holds.boundary ih (before room)).2.2
  have found := holds.boundary boundary (before room)
  exact ⟨found.1, found.2.1⟩

end Ring

/-! ## The kernel's ring -/

/-- An entry tells of a record: its severity, its time and the longest text whose bytes
begin the first `messageLimit` bytes of its message. -/
structure Entry.Tells (entry record : Entry) : Prop where
  severity_eq : entry.severity = record.severity
  timestamp_eq : entry.timestamp = record.timestamp
  message : Text.LongestIn entry.message ((Text.encode record.message).take messageLimit)

/-- A message that the ring does not cut is read back as it was. -/
theorem Entry.shortened_eq {record : Entry}
    (short : (Text.encode record.message).length ≤ messageLimit) : record.shortened = record := by
  rw [Entry.shortened, List.take_of_length_le short, Text.decodeLeading_encode]

theorem Entry.tells_shortened (record : Entry) : record.shortened.Tells record :=
  ⟨rfl, rfl, Text.longestIn_decodeLeading _⟩

/-- Reading gives, in order, the longest run of newest records that fits into the ring, the
newest of all among them.  Neither appending one more record nor reading ever comes upon a
length that is no length of a whole record. -/
theorem ring_keeps_newest (records : List Entry) :
    ∃ kept, kept <:+ records ∧ storedBytes kept ≤ ringCapacity ∧
      (∀ other, other <:+ records → storedBytes other ≤ ringCapacity → other <:+ kept) ∧
      List.Forall₂ Entry.Tells ((Ring.empty : Ring ringCapacity).appendAll records).entries kept ∧
      kept.getLast? = records.getLast? ∧
      (∀ (record : Entry) (position : Nat),
        let ring := (Ring.empty : Ring ringCapacity).appendAll records
        let stop := ring.written + record.stored.length
        ring.Drops stop position → ringCapacity < stop - position →
          headerSize ≤ ring.lengthAt position) ∧
      ∀ position,
        let ring := (Ring.empty : Ring ringCapacity).appendAll records
        ring.Reads position → position + headerSize ≤ ring.written →
          headerSize ≤ ring.lengthAt position ∧
            position + ring.lengthAt position ≤ ring.written := by
  have large : headerSize + messageLimit ≤ ringCapacity := by decide
  have holds := Ring.holds_appendAll large records
  refine ⟨newest ringCapacity records, newest_suffix _ _, storedBytes_newest_le _ _,
    fun other ends fits => suffix_newest ends fits, ?_, ?_, ?_, ?_⟩
  · rw [holds.entries_eq, List.forall₂_map_left_iff]
    exact List.forall₂_same.mpr fun record _ => record.tells_shortened
  · exact getLast?_newest large records
  · intro record position ring stop looks excess
    have fits := Nat.le_trans record.storedSize_le large
    exact holds.whole_of_drops (record.length_stored ▸ fits) looks excess
  · intro position ring looks room
    exact holds.whole_of_reads looks room

end KernelLog
end ModuleHost
