import Mathlib.Algebra.Ring.Nat
import ModuleHost.Proofs.Fixup.Execution
import ModuleHost.Proofs.Fixup.Patching
import ModuleHost.Proofs.Memory

namespace ModuleHost
namespace Fixup

/-!
# Fixups in memory

Fixups may be asked for one after another, for any sections and with any outcome.  As long
as no section contains a byte of the page of stubs, the page goes on holding the stubs that
were made: a stub stays where it was put, and it stays what it was.
-/

/-- No address lies in both ranges. -/
def Misses (left right : Range) : Prop :=
  ∀ address, left.Has address → ¬right.Has address

/-- A fixup of a section in memory. -/
structure Request where
  machine : Machine
  area : Range
  fixup : Fixup

/-- The bytes that the fixup covers. -/
def Request.covered (request : Request) : Range where
  start := request.area.start + request.fixup.offset
  size := kindWidth request.machine request.fixup.kind

/-- The memory that fixups are applied in, and what they share. -/
structure Setting where
  memory : Memory
  linkage : Linkage

/-- The page that a table's stubs are put in. -/
def StubTable.range (table : StubTable) : Range :=
  ⟨table.base, pageSize⟩

namespace Setting

/-- No fixup has been applied yet; the page for stubs is at hand. -/
def start (machine : Machine) (base : Address) (memory : Memory) : Setting :=
  ⟨memory, { stubs := some { machine := machine, base := base } }⟩

/-- Memory with the stubs that were made since there were `before` of them. -/
def withStubs (memory : Memory) (linkage : Linkage) (before : Nat) : Memory :=
  match linkage.stubs with
  | none => memory
  | some table =>
    memory.write (table.addressOf before)
      ((table.targets.drop before).flatMap (stubBytes table.machine))

def apply (setting : Setting) (request : Request) : Setting × Except FixupError Unit :=
  let start := request.area.start
  let contents := setting.memory.read start request.area.size
  match request.fixup.apply request.machine setting.linkage contents with
  | (linkage, result) =>
    let memory := withStubs setting.memory linkage setting.linkage.stubCount
    match result with
    | .error error => (⟨memory, linkage⟩, .error error)
    | .ok contents => (⟨memory.write start contents, linkage⟩, .ok ())

/-- Go on after every outcome. -/
def run (setting : Setting) (requests : List Request) : Setting :=
  requests.foldl (fun setting request => (setting.apply request).1) setting

/-- No request changes a byte of the range: it fails, or it covers other bytes. -/
def Spares (range : Range) : Setting → List Request → Prop
  | _, [] => True
  | setting, request :: rest =>
    (Misses range request.covered ∨ (setting.apply request).2 ≠ .ok ()) ∧
      Spares range (setting.apply request).1 rest

/-- The stubs of the table, and no others, have been made and stand in its page. -/
structure Stands (table : StubTable) (setting : Setting) : Prop where
  stubs : setting.linkage.stubs = some table
  fits : table.Fits
  bytes : setting.memory.read table.base table.bytes.length = table.bytes

theorem stands_start (machine : Machine) (base : Address) (memory : Memory) :
    Stands { machine := machine, base := base } (start machine base memory) :=
  ⟨rfl, Nat.zero_le _, rfl⟩

section Applying

variable {table : StubTable} {setting : Setting} {linkage : Linkage}

/-- New stubs are put behind the others. -/
theorem Stands.withStubs (stands : Stands table setting)
    (extension : setting.linkage.Extends linkage) :
    ∃ targets, Stands (table.withMore targets)
        ⟨withStubs setting.memory linkage setting.linkage.stubCount, linkage⟩ ∧
      Memory.ChangesIn [table.range] setting.memory
        (withStubs setting.memory linkage setting.linkage.stubCount) := by
  rcases extension.stubs with ⟨targets, stubs⟩
  rw [stands.stubs, Option.map_some] at stubs
  have fits : (table.withMore targets).Fits := by
    refine extension.fits (fun other same => ?_) _ stubs
    rw [stands.stubs] at same
    exact Option.some.inj same ▸ stands.fits
  have count : setting.linkage.stubCount = table.targets.length := by
    rw [Linkage.stubCount, stands.stubs]
    rfl
  have added : Setting.withStubs setting.memory linkage setting.linkage.stubCount =
      setting.memory.write (table.base + table.bytes.length)
        (targets.flatMap (stubBytes table.machine)) := by
    rw [Setting.withStubs, stubs, count, StubTable.length_bytes]
    simp only [StubTable.withMore, List.drop_left]
    rfl
  have whole := table.bytes_withMore targets
  have room := StubTable.length_bytes_le fits
  rw [whole, List.length_append] at room
  refine ⟨targets, ⟨stubs, fits, ?_⟩, ?_⟩
  · have kept : (Setting.withStubs setting.memory linkage setting.linkage.stubCount).read
        table.base table.bytes.length = table.bytes := by
      rw [added]
      refine ((Memory.changesIn_write _ _ _).read_eq fun range listed => ?_).trans stands.bytes
      rw [List.mem_singleton.mp listed]
      exact Or.inl (Nat.le_refl _)
    have put : (Setting.withStubs setting.memory linkage setting.linkage.stubCount).read
        (table.base + table.bytes.length)
        (targets.flatMap (stubBytes table.machine)).length =
          targets.flatMap (stubBytes table.machine) := by
      rw [added]
      exact Memory.read_write_self _ _ _
    rw [whole, List.length_append, StubTable.withMore, Memory.read_add, kept, put]
  · rw [added]
    intro address outside
    refine Memory.changesIn_write _ _ _ address fun range listed inside => ?_
    rw [List.mem_singleton.mp listed] at inside
    exact outside _ List.mem_cons_self
      ⟨Nat.le_trans (Nat.le_add_right _ _) inside.1, Nat.lt_of_lt_of_le inside.2 (by
        simp only [StubTable.range]
        lia)⟩

/-- A change that misses the page. -/
theorem Stands.of_changesIn {memory memory' : Memory} {area : Range}
    (stands : Stands table ⟨memory, linkage⟩) (changes : Memory.ChangesIn [area] memory memory')
    (misses : Misses area table.range) : Stands table ⟨memory', linkage⟩ := by
  have room := StubTable.length_bytes_le stands.fits
  refine ⟨stands.stubs, stands.fits, ?_⟩
  refine (Memory.read_congr fun offset inside => ?_).trans stands.bytes
  apply changes
  intro range listed has
  rw [List.mem_singleton.mp listed] at has
  have within := Nat.lt_of_lt_of_le inside room
  exact misses _ has ⟨Nat.le_add_right _ _, Nat.add_lt_add_left within _⟩

theorem apply_error {request : Request} {error : FixupError}
    (fails : request.fixup.apply request.machine setting.linkage
      (setting.memory.read request.area.start request.area.size) = (linkage, .error error)) :
    setting.apply request =
      (⟨Setting.withStubs setting.memory linkage setting.linkage.stubCount, linkage⟩,
        .error error) := by
  simp only [apply, fails]

theorem apply_ok {request : Request} {contents : List UInt8}
    (succeeds : request.fixup.apply request.machine setting.linkage
      (setting.memory.read request.area.start request.area.size) = (linkage, .ok contents)) :
    setting.apply request =
      (⟨(Setting.withStubs setting.memory linkage setting.linkage.stubCount).write
        request.area.start contents, linkage⟩, .ok ()) := by
  simp only [apply, succeeds]

theorem applied_of_apply {request : Request} (succeeds : (setting.apply request).2 = .ok ()) :
    ∃ linkage contents, request.fixup.apply request.machine setting.linkage
        (setting.memory.read request.area.start request.area.size) = (linkage, .ok contents) ∧
      (setting.apply request).1 =
        ⟨(Setting.withStubs setting.memory linkage setting.linkage.stubCount).write
          request.area.start contents, linkage⟩ := by
  cases applied : request.fixup.apply request.machine setting.linkage
      (setting.memory.read request.area.start request.area.size) with
  | mk linkage result =>
      cases result with
      | error error =>
          rw [apply_error applied] at succeeds
          cases succeeds
      | ok contents =>
          rw [apply_ok applied]
          exact ⟨linkage, contents, rfl, rfl⟩

/-- Where a fixup covers nothing, its section is as before. -/
theorem changesIn_write_of_apply {request : Request} {memory' : Memory} {contents : List UInt8}
    (applied : request.fixup.apply request.machine setting.linkage
      (setting.memory.read request.area.start request.area.size) = (linkage, .ok contents))
    (changes : Memory.ChangesIn [table.range] setting.memory memory') :
    Memory.ChangesIn [table.range, request.covered] setting.memory
      (memory'.write request.area.start contents) := by
  rcases apply_eq_ok applied with ⟨length, outside, -, -⟩
  rw [Memory.length_read] at length
  intro address avoids
  rw [Memory.byteAt_write]
  split
  · next inside =>
      rw [length] at inside
      have index : request.area.start + (address - request.area.start) = address :=
        Nat.add_sub_cancel' inside.1
      have uncovered : ¬Covers request.machine request.fixup (address - request.area.start) := by
        intro covers
        refine avoids request.covered (by simp) ⟨?_, ?_⟩
        · rw [← index]
          exact Nat.add_le_add_left covers.1 _
        · rw [← index, Request.covered, Nat.add_assoc]
          exact Nat.add_lt_add_left covers.2 _
      rw [List.getD_eq_getElem?_getD, outside _ uncovered, Memory.getElem?_read,
        if_pos inside.2, index, Option.getD_some]
  · exact changes address fun range listed => avoids range (by simp_all)

/-- What a request does to a setting whose stubs stand. -/
structure Applies (table : StubTable) (setting after : Setting) (changed : List Range) : Prop where
  stands : ∃ targets, Stands (table.withMore targets) after
  extension : setting.linkage.Extends after.linkage
  changes : Memory.ChangesIn (table.range :: changed) setting.memory after.memory

/-- A request that fails may still make a stub; one that succeeds changes the bytes that it
covers too. -/
theorem Stands.apply {request : Request} (stands : Stands table setting)
    (misses : Misses request.area table.range) :
    Applies table setting (setting.apply request).1
      (if (setting.apply request).2 = .ok () then [request.covered] else []) := by
  have extension := extends_apply request.fixup request.machine setting.linkage
    (setting.memory.read request.area.start request.area.size)
  cases applied : request.fixup.apply request.machine setting.linkage
      (setting.memory.read request.area.start request.area.size) with
  | mk linkage result =>
      rw [applied] at extension
      rcases stands.withStubs extension with ⟨targets, stands', changes⟩
      cases result with
      | error error =>
          rw [apply_error applied]
          exact ⟨⟨targets, stands'⟩, extension, changes⟩
      | ok contents =>
          have written := Memory.changesIn_write
            (Setting.withStubs setting.memory linkage setting.linkage.stubCount)
            request.area.start contents
          have length := (apply_eq_ok applied).1
          rw [Memory.length_read] at length
          rw [length] at written
          rw [apply_ok applied, if_pos rfl]
          exact ⟨⟨targets, stands'.of_changesIn written misses⟩, extension,
            changesIn_write_of_apply applied changes⟩

end Applying

/-! ## Runs -/

section Running

variable {table : StubTable} {setting : Setting} {requests : List Request}

/-- Whatever is asked for, the stubs stand. -/
theorem Stands.run (stands : Stands table setting)
    (misses : ∀ request ∈ requests, Misses request.area table.range) :
    ∃ targets, Stands (table.withMore targets) (setting.run requests) ∧
      setting.linkage.Extends (setting.run requests).linkage := by
  induction requests generalizing table setting with
  | nil =>
      refine ⟨[], ?_, Linkage.Extends.refl _⟩
      rw [StubTable.withMore_nil]
      exact stands
  | cons request rest ih =>
      have applies := stands.apply (misses request List.mem_cons_self)
      rcases applies.stands with ⟨targets, stands'⟩
      rcases ih stands' fun other listed => misses other (List.mem_cons_of_mem _ listed)
        with ⟨more, stands'', extension⟩
      refine ⟨targets ++ more, ?_, applies.extension.trans extension⟩
      rw [← StubTable.withMore_withMore]
      exact stands''

/-- What the requests spare, and the page does not contain, is as before. -/
theorem byteAt_run {range : Range} (stands : Stands table setting)
    (misses : ∀ request ∈ requests, Misses request.area table.range)
    (spared : Spares range setting requests) {address : Address} (inside : range.Has address)
    (beyond : ¬table.range.Has address) :
    (setting.run requests).memory.byteAt address = setting.memory.byteAt address := by
  induction requests generalizing table setting with
  | nil => rfl
  | cons request rest ih =>
      have applies := stands.apply (misses request List.mem_cons_self)
      rcases applies.stands with ⟨targets, stands'⟩
      have later := ih stands' (fun other listed => misses other (List.mem_cons_of_mem _ listed))
        spared.2 beyond
      refine later.trans (applies.changes address fun changed listed => ?_)
      rcases List.mem_cons.mp listed with rfl | covered
      · exact beyond
      · split at covered
        · next succeeds =>
            rw [List.mem_singleton.mp covered]
            exact (spared.1.resolve_right (absurd succeeds)) address inside
        · cases covered

end Running

end Setting

end Fixup
end ModuleHost
