import ModuleHost.Proofs.Fixup.Patching
import ModuleHost.Proofs.Host.Assembling
import ModuleHost.Proofs.Host.Contents

namespace ModuleHost

/-!
# Relocating sections

The relocations of one section may come in several groups, between groups for other
sections.  Each group changes the section that it is for and no other, so what a section
holds at the end depends on its own relocations only, in the order of the groups.

Upper halves and stubs are shared by all groups.  Whatever is noted of an upper half has
been written by some relocation of a section with pages.
-/

namespace Object

/-- The relocations of a section in a run of groups. -/
def relocationsAt (groups : List RelocationGroup) (index : Nat) : List Relocation :=
  (groups.filter fun group => group.target = index).flatMap RelocationGroup.relocations

/-- All relocations of a section. -/
def relocationsFor (object : Object) (index : Nat) : List Relocation :=
  relocationsAt object.relocationGroups index

/-- The relocation patches the byte at an offset. -/
def Relocation.Covers (machine : Machine) (relocation : Relocation) (offset : Nat) : Prop :=
  relocation.offset.toNat ≤ offset ∧
    offset < relocation.offset.toNat + Fixup.kindWidth machine relocation.kind

/-- No byte is patched by both relocations. -/
def Relocation.Separate (machine : Machine) (first second : Relocation) : Prop :=
  ∀ offset, ¬(first.Covers machine offset ∧ second.Covers machine offset)

/-- The bytes that a section begins with. -/
def original (object : Object) (header : Section) : List UInt8 :=
  (List.range header.size.toNat).map (object.initial header)

theorem relocationsAt_append (front back : List RelocationGroup) (index : Nat) :
    relocationsAt (front ++ back) index =
      relocationsAt front index ++ relocationsAt back index := by
  rw [relocationsAt, List.filter_append, List.flatMap_append]
  rfl

theorem relocationsAt_self (group : RelocationGroup) :
    relocationsAt [group] group.target = group.relocations := by
  simp [relocationsAt]

theorem relocationsAt_other {group : RelocationGroup} {index : Nat}
    (different : group.target ≠ index) : relocationsAt [group] index = [] := by
  simp [relocationsAt, different]

end Object

namespace Linking

/-- The place of a relocation at run time. -/
def placeOf (placement : Placement) (relocation : Object.Relocation) : Word :=
  BitVec.ofNat 64 (placement.address + relocation.offset.toNat)

variable {machine : Machine} {placements : List Placement} {addresses : List Address}
variable {linking after : Linking} {group : Object.RelocationGroup}

/-! ## One group -/

theorem applyGroup_of_lease {placement : Placement} {lease : Lease}
    (found : placements[group.target]? = some placement) (own : placement.lease? = some lease)
    {patching : Patching} {result : Except FixupError Unit}
    (ran : Stepwise.forList (Patching.step machine)
      ⟨linking.linkage, linking.host.memory.read placement.address placement.size, []⟩
      (group.relocations.map (fixupFor addresses placement.address)) = (patching, result)) :
    applyGroup machine placements addresses linking group =
      (⟨{ linking.host with
          memory := linking.host.memory.write placement.address patching.contents }.report
            patching.notices, patching.linkage⟩, result.mapError .fixup) := by
  unfold applyGroup
  simp only [found, ran]
  cases kind : placement.kind with
  | text => rfl
  | data => rfl
  | unplaced => simp [Placement.lease?, kind] at own
  | zeroPage => simp [Placement.lease?, kind] at own

theorem applyGroup_eq_ok
    (applied : applyGroup machine placements addresses linking group = (after, .ok ())) :
    (after = linking ∧
        ∀ placement, placements[group.target]? = some placement → placement.lease? = none) ∨
      ∃ placement lease patching, placements[group.target]? = some placement ∧
        placement.lease? = some lease ∧
        Stepwise.forList (Patching.step machine)
          ⟨linking.linkage, linking.host.memory.read placement.address placement.size, []⟩
          (group.relocations.map (fixupFor addresses placement.address)) = (patching, .ok ()) ∧
        after.linkage = patching.linkage ∧
        after.host.memory = linking.host.memory.write placement.address patching.contents := by
  cases found : placements[group.target]? with
  | none =>
      simp only [applyGroup, found, Prod.mk.injEq, and_true] at applied
      exact Or.inl ⟨applied.symm, nofun⟩
  | some placement =>
      cases own : placement.lease? with
      | none =>
          refine Or.inl ⟨?_, fun other same => Option.some.inj same ▸ own⟩
          unfold applyGroup at applied
          simp only [found] at applied
          cases kind : placement.kind with
          | text => simp [Placement.lease?, kind] at own
          | data => simp [Placement.lease?, kind] at own
          | unplaced =>
              simp only [kind, Prod.mk.injEq, and_true] at applied
              exact applied.symm
          | zeroPage =>
              simp only [kind] at applied
              split at applied
              · simp only [Prod.mk.injEq, and_true] at applied
                exact applied.symm
              · simp at applied
      | some lease =>
          cases ran : Stepwise.forList (Patching.step machine)
              ⟨linking.linkage, linking.host.memory.read placement.address placement.size, []⟩
              (group.relocations.map (fixupFor addresses placement.address)) with
          | mk patching result =>
              rw [applyGroup_of_lease found own ran] at applied
              cases result with
              | error error => simp [Except.mapError] at applied
              | ok done =>
                  simp only [Prod.mk.injEq] at applied
                  rw [← applied.1]
                  exact Or.inr ⟨placement, lease, patching, rfl, own, ran, rfl, rfl⟩

/-! ## One section -/

/-- How far a section with pages has come: the relocations done so far are made, and its
pages are zero behind it. -/
structure Relocated (machine : Machine) (addresses : List Address) (object : Object)
    (header : Object.Section) (placement : Placement) (lease : Lease)
    (done : List Object.Relocation) (linking : Linking) : Prop where
  tail : ∀ offset, placement.size ≤ offset → offset < lease.pages.size →
    linking.host.memory.byteAt (placement.address + offset) = 0
  patched : done.Pairwise (Object.Relocation.Separate machine) →
    Fixup.Patched machine linking.linkage (object.original header)
      (linking.host.memory.read placement.address placement.size)
      (done.map (fixupFor addresses placement.address))

variable {object : Object} {header : Object.Section} {placement : Placement} {lease : Lease}
variable {done : List Object.Relocation}

theorem relocated_start (filled : Staging.Filled object linking.host.memory header placement)
    (own : placement.lease? = some lease) :
    Relocated machine addresses object header placement lease [] linking := by
  rcases filled.rounds lease own with ⟨size, rounds⟩
  have whole := (pagesFor?_eq_some rounds).2.1
  constructor
  · intro offset beyond inside
    rw [filled.bytes lease own offset inside]
    exact Object.initial_of_le (size ▸ beyond)
  · intro _
    have same : linking.host.memory.read placement.address placement.size =
        object.original header := by
      rw [size]
      apply List.map_congr_left
      intro offset listed
      exact filled.bytes lease own offset
        (Nat.lt_of_lt_of_le (List.mem_range.mp listed) whole)
    rw [same]
    exact Fixup.patched_start _ _

/-- What happens elsewhere does not matter. -/
theorem Relocated.elsewhere
    (relocated : Relocated machine addresses object header placement lease done linking)
    (own : placement.lease? = some lease) (within : placement.size ≤ lease.pages.size)
    (extension : linking.linkage.Extends after.linkage)
    (same : ∀ address, lease.pages.Has address →
      after.host.memory.byteAt address = linking.host.memory.byteAt address) :
    Relocated machine addresses object header placement lease done after := by
  have kept (offset : Nat) (inside : offset < lease.pages.size) :
      after.host.memory.byteAt (placement.address + offset) =
        linking.host.memory.byteAt (placement.address + offset) := by
    apply same
    rw [Range.Has, lease.pages_start, Placement.range_of_lease? own]
    exact ⟨Nat.le_add_right _ _, Nat.add_lt_add_left inside _⟩
  constructor
  · intro offset beyond inside
    rw [kept offset inside]
    exact relocated.tail offset beyond inside
  · intro separate
    rw [Memory.read_congr fun offset inside => kept offset (Nat.lt_of_lt_of_le inside within)]
    exact (relocated.patched separate).mono extension

/-- One more group for the section. -/
theorem Relocated.further {relocations : List Object.Relocation} {patching : Patching}
    (relocated : Relocated machine addresses object header placement lease done linking)
    (ran : Stepwise.forList (Patching.step machine)
      ⟨linking.linkage, linking.host.memory.read placement.address placement.size, []⟩
      (relocations.map (fixupFor addresses placement.address)) = (patching, .ok ()))
    (linkage : after.linkage = patching.linkage)
    (memory : after.host.memory =
      linking.host.memory.write placement.address patching.contents) :
    Relocated machine addresses object header placement lease (done ++ relocations) after := by
  have length : patching.contents.length = placement.size := by
    rw [Fixup.length_of_run ran, Memory.length_read]
  constructor
  · intro offset beyond inside
    rw [← relocated.tail offset beyond inside, memory, Memory.byteAt_write,
      Nat.add_sub_cancel_left, length, if_neg fun both => Nat.not_lt.mpr beyond both.2]
  · intro separate
    have earlier := relocated.patched (List.pairwise_append.mp separate).1
    have apart : (done.map (fixupFor addresses placement.address) ++
        relocations.map (fixupFor addresses placement.address)).Pairwise
          (Fixup.Separate machine) := by
      rw [← List.map_append]
      exact List.pairwise_map.mpr separate
    rw [memory, linkage, List.map_append, ← length, Memory.read_write_self]
    exact Fixup.Patched.run earlier apart ran

/-! ## All groups -/

/-- A run of groups makes the relocations of every section. -/
theorem relocated_groups {index : Nat} {groups : List Object.RelocationGroup}
    (found : placements[index]? = some placement) (own : placement.lease? = some lease)
    (within : placement.size ≤ lease.pages.size)
    (apart : ∀ other placement' lease', other ≠ index → placements[other]? = some placement' →
      placement'.lease? = some lease' →
        Range.Apart lease.pages ⟨placement'.address, placement'.size⟩)
    (start : Relocated machine addresses object header placement lease [] linking)
    (ran : Stepwise.forList (applyGroup machine placements addresses) linking groups =
      (after, .ok ())) :
    Relocated machine addresses object header placement lease
      (Object.relocationsAt groups index) after := by
  refine Stepwise.forList_ok
    (motive := fun done state => Relocated machine addresses object header placement lease
      (Object.relocationsAt done index) state) ?_ start ran
  intro done group rest state next split here step
  have extension := (continues_applyGroup machine placements addresses state group).linkage
  rw [step] at extension
  rw [Object.relocationsAt_append]
  by_cases target : group.target = index
  · subst target
    rw [Object.relocationsAt_self]
    rcases applyGroup_eq_ok step with ⟨_, unowned⟩ | ⟨_, _, patching, found', _, ran', rest'⟩
    · rw [unowned placement found] at own
      cases own
    · rw [found] at found'
      cases found'
      exact here.further ran' rest'.1 rest'.2
  · rw [Object.relocationsAt_other target, List.append_nil]
    rcases applyGroup_eq_ok step with
      ⟨rfl, _⟩ | ⟨placement', lease', patching, found', own', ran', _, memory⟩
    · exact here
    · have changes := Memory.changesIn_write state.host.memory placement'.address
        patching.contents
      rw [Fixup.length_of_run ran', Memory.length_read, ← memory] at changes
      exact here.elsewhere own within extension fun address inside =>
        changes.byteAt_eq (apart group.target placement' lease' target found' own') inside

theorem memory_writeStubs (linking : Linking) :
    (linking.linkage.stubs = none ∧ linking.writeStubs.memory = linking.host.memory) ∨
      ∃ table, linking.linkage.stubs = some table ∧
        linking.writeStubs.memory = linking.host.memory.write table.base table.bytes := by
  unfold writeStubs
  cases linking.linkage.stubs with
  | none => exact Or.inl ⟨rfl, rfl⟩
  | some table => exact Or.inr ⟨table, rfl, rfl⟩

/-- The stubs go into a page of their own. -/
theorem Relocated.writeStubs
    (relocated : Relocated machine addresses object header placement lease done linking)
    (own : placement.lease? = some lease) (within : placement.size ≤ lease.pages.size)
    (apart : ∀ table, linking.linkage.stubs = some table →
      Range.Apart lease.pages ⟨table.base, table.bytes.length⟩) :
    Relocated machine addresses object header placement lease done
      ⟨linking.writeStubs, linking.linkage⟩ := by
  refine relocated.elsewhere own within (Fixup.Linkage.Extends.refl _) fun address inside => ?_
  rcases linking.memory_writeStubs with ⟨_, same⟩ | ⟨table, stubs, written⟩
  · rw [same]
  · have changes := Memory.changesIn_write linking.host.memory table.base table.bytes
    rw [← written] at changes
    exact changes.byteAt_eq (apart table stubs) inside

/-! ## Upper halves -/

/-- The upper half is written by one of the relocations in a run of groups. -/
def WritesUpper (machine : Machine) (placements : List Placement) (addresses : List Address)
    (groups : List Object.RelocationGroup) (place value : Word) : Prop :=
  ∃ index placement lease, placements[index]? = some placement ∧
    placement.lease? = some lease ∧ ∃ relocation ∈ Object.relocationsAt groups index,
      (fixupFor addresses placement.address relocation).Wrote machine place value

theorem WritesUpper.append {front : List Object.RelocationGroup} {place value : Word}
    (writes : WritesUpper machine placements addresses front place value)
    (back : List Object.RelocationGroup) :
    WritesUpper machine placements addresses (front ++ back) place value := by
  rcases writes with ⟨index, placement, lease, found, own, relocation, listed, wrote⟩
  refine ⟨index, placement, lease, found, own, relocation, ?_, wrote⟩
  rw [Object.relocationsAt_append]
  exact List.mem_append_left _ listed

/-- Every upper half that is noted in the end was noted before or written on the way. -/
theorem upper_of_groups {groups : List Object.RelocationGroup}
    (ran : Stepwise.forList (applyGroup machine placements addresses) linking groups =
      (after, .ok ())) :
    ∀ place value, after.linkage.Upper place value → linking.linkage.Upper place value ∨
      WritesUpper machine placements addresses groups place value := by
  refine Stepwise.forList_ok
    (motive := fun done state => ∀ place value, state.linkage.Upper place value →
      linking.linkage.Upper place value ∨
        WritesUpper machine placements addresses done place value) ?_ ?_ ran
  · intro done group rest state next split here step place value written
    have earlier (before : state.linkage.Upper place value) :
        linking.linkage.Upper place value ∨
          WritesUpper machine placements addresses (done ++ [group]) place value :=
      (here place value before).imp_right fun writes => writes.append [group]
    rcases applyGroup_eq_ok step with
      ⟨rfl, _⟩ | ⟨placement, lease, patching, found, own, ran', linkage, _⟩
    · exact earlier written
    · rw [linkage] at written
      rcases Fixup.upper_of_run ran' place value written with before | ⟨fixup, listed, wrote⟩
      · exact earlier before
      · rcases List.mem_map.mp listed with ⟨relocation, member, rfl⟩
        refine Or.inr ⟨group.target, placement, lease, found, own, relocation, ?_, wrote⟩
        rw [Object.relocationsAt_append, Object.relocationsAt_self]
        exact List.mem_append_right _ member
  · intro place value written
    exact Or.inl written

end Linking

end ModuleHost
