import ModuleHost.Proofs.Host.Relocating
import ModuleHost.Proofs.Host.Resolution

namespace ModuleHost

/-!
# The image of a module in memory

What memory must hold once an object has been linked: each section with pages its first
contents, zeros up to the end of its pages, and at every place that a relocation patches
the field that the relocation prescribes.  The address of a symbol is the one it resolves
to on the host before the object was staged; a stub counts if its code is in memory.
-/

/-- An object in memory, with the host on which its symbols were resolved. -/
structure LinkedImage where
  host : Host
  object : Object
  placements : List Placement
  stubPage : Option Address
  memory : Memory

/-- The image of an assembled object. -/
def Assembly.image (assembly : Assembly) (host : Host) (object : Object) (memory : Memory) :
    LinkedImage where
  host
  object
  placements := assembly.placements
  stubPage := assembly.stubPage
  memory

namespace LinkedImage

open Fixup (Form Prescribes StandsFor stubBytes stubSize)

/-- The code of a stub that jumps to the target lies on the page of stubs. -/
def Jumps (image : LinkedImage) (target stub : Word) : Prop :=
  ∃ page index, image.stubPage = some page ∧
    index * stubSize image.object.machine + stubSize image.object.machine ≤ pageSize ∧
    stub = BitVec.ofNat 64 (page + index * stubSize image.object.machine) ∧
    image.memory.read (page + index * stubSize image.object.machine)
      (stubSize image.object.machine) = stubBytes image.object.machine target

/-- The symbol of a relocation has an address. -/
def Target (image : LinkedImage) (relocation : Object.Relocation) (address : Address) : Prop :=
  ∃ symbol, image.object.symbols[relocation.symbolIndex]? = some symbol ∧
    Resolves image.host image.object image.placements symbol relocation.symbolIndex address

/-- A relocation of a section with pages is for the upper half of the value at the place. -/
def Halves (image : LinkedImage) (place value : Word) : Prop :=
  ∃ index placement relocation address, image.placements[index]? = some placement ∧
    placement.ownsPages = true ∧ relocation ∈ image.object.relocationsFor index ∧
    StandsFor image.object.machine relocation.kind .relativeHigh20 ∧
    image.Target relocation address ∧ place = Linking.placeOf placement relocation ∧
    value = BitVec.ofNat 64 address + relocation.addend.toBitVec - place

/-- The place of a relocation holds what the relocation prescribes for the address of its
symbol, its addend and the address of the place. -/
def Holds (image : LinkedImage) (header : Object.Section) (placement : Placement)
    (relocation : Object.Relocation) : Prop :=
  ∃ form field address, StandsFor image.object.machine relocation.kind form ∧
    (form.width = 0 ∨ relocation.offset.toNat + form.width ≤ header.size.toNat) ∧
    image.Target relocation address ∧
    Prescribes image.Jumps image.Halves (BitVec.ofNat 64 address) relocation.addend.toBitVec
      (Linking.placeOf placement relocation) form field ∧
    field.Holds
      (Endian.slice (image.object.original header) relocation.offset.toNat form.width)
      (image.memory.read (placement.address + relocation.offset.toNat) form.width)

/-- The memory of a section with pages. -/
structure HasSection (image : LinkedImage) (index : Nat) (header : Object.Section)
    (placement : Placement) : Prop where
  size_eq : placement.size = header.size.toNat
  untouched : ∀ offset < header.size.toNat,
    (∀ relocation ∈ image.object.relocationsFor index,
      ¬relocation.Covers image.object.machine offset) →
    image.memory.byteAt (placement.address + offset) = image.object.initial header offset
  tail : ∃ whole, pagesFor? header.size.toNat = some whole ∧
    ∀ offset, header.size.toNat ≤ offset → offset < whole →
      image.memory.byteAt (placement.address + offset) = 0
  relocated : ∀ relocation ∈ image.object.relocationsFor index,
    image.Holds header placement relocation

/-- Every section has its placement, and its memory if it takes pages.  The relocations of
a section must not overlap. -/
structure Faithful (image : LinkedImage) : Prop where
  length_eq : image.placements.length = image.object.sections.length
  owns_eq : ∀ (index : Nat) header placement, image.object.sections[index]? = some header →
    image.placements[index]? = some placement →
      placement.ownsPages = Staging.takesPages header
  sections : ∀ (index : Nat) header placement, image.object.sections[index]? = some header →
    image.placements[index]? = some placement → placement.ownsPages = true →
    (image.object.relocationsFor index).Pairwise
      (Object.Relocation.Separate image.object.machine) →
    image.HasSection index header placement

/-! ## From linking to the image -/

variable {image : LinkedImage} {addresses : List Address} {linkage : Fixup.Linkage}
variable {header : Object.Section} {placement : Placement} {lease : Lease} {index : Nat}

/-- A stub in the table lies in memory once the table has been written. -/
theorem jumps_of_leads {table : Fixup.StubTable} (stubs : linkage.stubs = some table)
    (machine : table.machine = image.object.machine) (page : image.stubPage = some table.base)
    (fits : table.Fits) {before : Memory}
    (written : image.memory = before.write table.base table.bytes) {target stub : Word}
    (leads : linkage.Leads target stub) : image.Jumps target stub := by
  rcases leads with ⟨table', position, stubs', found, rfl⟩
  rw [stubs] at stubs'
  rcases Option.some.inj stubs'
  rcases Fixup.StubTable.slice_bytes found with ⟨inside, slice⟩
  rw [machine] at inside slice
  refine ⟨table.base, position, page, ?_, ?_, ?_⟩
  · exact Nat.le_trans inside (Fixup.StubTable.length_bytes_le fits)
  · rw [Fixup.StubTable.addressOf, machine]
  · rw [written, Memory.read_write _ _ _ inside, slice]

/-- The page of stubs of a linkage is that which was opened for it. -/
theorem table_of_extends {stubs : Option Fixup.StubTable} {table : Fixup.StubTable}
    (empty : ∀ table, stubs = some table → table.targets = [])
    (extension : Fixup.Linkage.Extends { stubs } linkage) (found : linkage.stubs = some table) :
    table.Fits ∧ ∃ opened, stubs = some opened ∧ table.base = opened.base ∧
      table.machine = opened.machine := by
  have fits : Fixup.Linkage.Fits { stubs } := by
    intro opened same
    rw [Fixup.StubTable.Fits, empty opened same]
    exact Nat.zero_le _
  refine ⟨extension.fits fits table found, ?_⟩
  rcases extension.stubs with ⟨targets, more⟩
  rw [found] at more
  rcases Option.map_eq_some_iff.mp more.symm with ⟨opened, same, rfl⟩
  exact ⟨opened, same, rfl, rfl⟩

theorem jumps_of_linking (image : LinkedImage) {linking : Linking}
    {stubs : Option Fixup.StubTable}
    (empty : ∀ table, stubs = some table →
      table.machine = image.object.machine ∧ table.targets = [])
    (extension : Fixup.Linkage.Extends { stubs } linking.linkage)
    (page : image.stubPage = linking.linkage.stubs.map Fixup.StubTable.base)
    (memory : image.memory = linking.writeStubs.memory) {target stub : Word}
    (leads : linking.linkage.Leads target stub) : image.Jumps target stub := by
  rcases linking.memory_writeStubs with ⟨unstubbed, _⟩ | ⟨table, stubbed, written⟩
  · rcases leads with ⟨table, _, stubbed, _⟩
    rw [unstubbed] at stubbed
    cases stubbed
  · rcases table_of_extends (fun table same => (empty table same).2) extension stubbed with
      ⟨fits, first, same, _, machine⟩
    refine jumps_of_leads stubbed (machine.trans (empty first same).1) ?_ fits
      (memory.trans written) leads
    rw [page, stubbed, Option.map_some]

/-- An applied fixup leaves what its relocation prescribes. -/
theorem holds_of_applied {relocation : Object.Relocation}
    (jumps : ∀ target stub, linkage.Leads target stub → image.Jumps target stub)
    (halves : ∀ place value, linkage.Upper place value → image.Halves place value)
    (target : image.Target relocation (addresses.getD relocation.symbolIndex 0))
    (size : placement.size = header.size.toNat)
    (applied : (Linking.fixupFor addresses placement.address relocation).Applied
      image.object.machine linkage (image.object.original header)
      (image.memory.read placement.address placement.size)) :
    image.Holds header placement relocation := by
  rcases applied with ⟨form, field, known, inside, prescribes, holds⟩
  have length : (image.object.original header).length = header.size.toNat := by
    rw [Object.original, List.length_map, List.length_range]
  rw [length] at inside
  refine ⟨form, field, _, known, inside, target, prescribes.mono jumps halves, ?_⟩
  have read : Endian.slice (image.memory.read placement.address placement.size)
      relocation.offset.toNat form.width =
      image.memory.read (placement.address + relocation.offset.toNat) form.width := by
    rcases inside with empty | inside
    · rw [empty, Endian.slice, List.take_zero]
      rfl
    · exact Memory.slice_read _ _ (size ▸ inside)
  rw [← read]
  exact holds

theorem hasSection_of_relocated {linking : Linking}
    (jumps : ∀ target stub, linking.linkage.Leads target stub → image.Jumps target stub)
    (halves : ∀ place value, linking.linkage.Upper place value → image.Halves place value)
    (targets : ∀ relocation ∈ image.object.relocationsFor index,
      image.Target relocation (addresses.getD relocation.symbolIndex 0))
    (size : placement.size = header.size.toNat)
    (rounds : pagesFor? header.size.toNat = some lease.pages.size)
    (memory : linking.host.memory = image.memory)
    (separate : (image.object.relocationsFor index).Pairwise
      (Object.Relocation.Separate image.object.machine))
    (relocated : Linking.Relocated image.object.machine addresses image.object header placement
      lease (image.object.relocationsFor index) linking) :
    image.HasSection index header placement := by
  have patched := relocated.patched separate
  have tail := relocated.tail
  rw [memory] at patched tail
  refine ⟨size, ?_,
    ⟨lease.pages.size, rounds, fun offset beyond => tail offset (size ▸ beyond)⟩, ?_⟩
  · intro offset inside uncovered
    have same := patched.untouched offset fun fixup listed => by
      rcases List.mem_map.mp listed with ⟨relocation, member, rfl⟩
      exact uncovered relocation member
    rw [Memory.getElem?_read, if_pos (size ▸ inside), Object.original, List.getElem?_map,
      List.getElem?_range inside, Option.map_some] at same
    exact Option.some.inj same
  · intro relocation member
    exact holds_of_applied jumps halves (targets relocation member) size
      (patched.applied _ (List.mem_map_of_mem member))

/-- Upper halves are written by relocations of the object only. -/
theorem halves_of_upper (image : LinkedImage) {linking linked : Linking}
    (targets : ∀ index, ∀ relocation ∈ image.object.relocationsFor index,
      image.Target relocation (addresses.getD relocation.symbolIndex 0))
    (ran : Stepwise.forList (Linking.applyGroup image.object.machine image.placements addresses)
      linking image.object.relocationGroups = (linked, .ok ()))
    (none_noted : linking.linkage.upperHalves = []) {place value : Word}
    (written : linked.linkage.Upper place value) : image.Halves place value := by
  rcases Linking.upper_of_groups ran place value written with noted | writes
  · rw [Fixup.Linkage.Upper, none_noted] at noted
    exact absurd noted List.not_mem_nil
  · rcases writes with ⟨index, placement, lease, found, own, relocation, member, known, rfl, rfl⟩
    exact ⟨index, placement, relocation, _, found, placement.ownsPages_iff.mpr ⟨lease, own⟩,
      member, known, targets index relocation member, rfl, rfl⟩

end LinkedImage

namespace Staging

variable {origin : Host} {holders : List Handle} {staging after : Staging} {loose : List Lease}
variable {object : Object} {placements : List Placement}

/-- A page of stubs is empty when it is opened. -/
theorem openStubs_eq_ok {stubs : Option Fixup.StubTable}
    (opened : staging.openStubs object placements = (after, .ok stubs)) :
    after.host.memory = staging.host.memory ∧
      ∀ table, stubs = some table → table.machine = object.machine ∧ table.targets = [] := by
  unfold Staging.openStubs at opened
  split at opened
  · cases taken : staging.takePages pageSize .text with
    | mk state result =>
        cases result with
        | error error => simp [taken] at opened
        | ok base =>
            simp only [taken, Prod.mk.injEq, Except.ok.injEq] at opened
            rcases opened with ⟨rfl, rfl⟩
            rcases takePages_eq_ok taken with ⟨arena, _, rfl⟩
            refine ⟨rfl, fun table same => ?_⟩
            rw [← Option.some.inj same]
            exact ⟨rfl, rfl⟩
  · simp only [Prod.mk.injEq, Except.ok.injEq] at opened
    rcases opened with ⟨rfl, rfl⟩
    exact ⟨rfl, nofun⟩

/-- The pages of a section are apart from every other section. -/
theorem Sound.placements_apart
    (sound : Sound origin holders staging (placements.filterMap Placement.lease? ++ loose))
    {index other : Nat} {placement placement' : Placement} {lease lease' : Lease}
    (different : other ≠ index) (found : placements[index]? = some placement)
    (found' : placements[other]? = some placement') (own : placement.lease? = some lease)
    (own' : placement'.lease? = some lease') :
    Range.Apart lease.pages ⟨placement'.address, placement'.size⟩ := by
  have leased := sound.accounted.leased
  have apart := (List.pairwise_append.mp (List.pairwise_append.mp leased.apart).1).1
  have pages := Placement.pages_apart apart different found found' own own'
  have member : lease' ∈ placements.filterMap Placement.lease? :=
    List.mem_filterMap.mpr ⟨placement', List.mem_of_getElem? found', own'⟩
  have rounds := (leased.inside lease'
    (List.mem_append_left _ (List.mem_append_left _ member))).rounds
  rw [← lease'.mk_pages_size] at pages
  have front := pages.front (pagesFor?_eq_some rounds).2.1
  rw [Placement.range_of_lease? own'] at front
  exact front

/-- The stubs are apart from every section. -/
theorem Sound.stubs_apart {stubs : Option Fixup.StubTable} {linkage : Fixup.Linkage}
    (sound : Sound origin holders staging (placements.filterMap Placement.lease? ++
      (stubs.map fun table => stubLease table.base).toList))
    (empty : ∀ table, stubs = some table → table.targets = [])
    (extension : Fixup.Linkage.Extends { stubs } linkage) {lease : Lease}
    (member : lease ∈ placements.filterMap Placement.lease?) {table : Fixup.StubTable}
    (stubbed : linkage.stubs = some table) :
    Range.Apart lease.pages ⟨table.base, table.bytes.length⟩ := by
  rcases LinkedImage.table_of_extends empty extension stubbed with ⟨fits, first, same, base, _⟩
  have listed : stubLease table.base ∈
      (stubs.map fun table => stubLease table.base).toList := by simp [same, base]
  have pages := sound.apart member listed
  rw [pages_stubLease] at pages
  exact pages.front (Fixup.StubTable.length_bytes_le fits)

/-! ## The assembled image -/

/-- The relocations of an object refer to symbols with addresses. -/
theorem target_of_resolves {bytes : List UInt8} (parsed : Object.ofImage bytes = .ok object)
    {assembly : Assembly}
    (resolution : ∀ index symbol, object.symbols[index]? = some symbol →
      ∃ address, assembly.addresses[index]? = some address ∧
        Resolves origin object assembly.placements symbol index address)
    (memory : Memory) {index : Nat} {relocation : Object.Relocation}
    (member : relocation ∈ object.relocationsFor index) :
    (assembly.image origin object memory).Target relocation
      (assembly.addresses.getD relocation.symbolIndex 0) := by
  rcases List.mem_flatMap.mp member with ⟨group, listed, inside⟩
  rcases Object.symbol_of_relocation parsed (List.mem_filter.mp listed).1 inside with
    ⟨symbol, present⟩
  rcases resolution relocation.symbolIndex symbol present with ⟨address, given, resolves⟩
  refine ⟨symbol, present, ?_⟩
  rw [List.getD_eq_getElem?_getD, given]
  exact resolves

theorem Sound.faithful (sound : Sound origin holders staging []) {bytes : List UInt8}
    (parsed : Object.ofImage bytes = .ok object) {assembly : Assembly}
    (assembled : staging.assemble object = (after, .ok assembly)) :
    (assembly.image origin object after.host.memory).Faithful := by
  rcases assemble_eq_ok assembled with ⟨placed, resolved, places, resolves, links⟩
  rcases sound.filled places with ⟨length, filled⟩
  have placedSound := sound.placeAll places
  rw [List.nil_append] at placedSound
  rcases placedSound.resolves resolves with ⟨memory, resolution⟩
  have resolvedSound := placedSound.assignAddresses object assembly.placements
  rw [resolves] at resolvedSound
  rcases link_eq_ok links with ⟨opened, stubs, linking, opens, run, page, notices, left⟩
  have last : after.host.memory = linking.writeStubs.memory := by
    rw [left]
    rfl
  rw [last]
  rcases openStubs_eq_ok opens with ⟨memory', empty⟩
  have openedSound := resolvedSound.openStubs opens
  have extension := (Linking.continues_groups object.machine assembly.placements
    assembly.addresses ⟨opened.host, { stubs }⟩ object.relocationGroups).linkage
  rw [run] at extension
  rw [← memory, ← memory'] at filled
  refine ⟨length, fun index header placement present found =>
    (filled index header placement present found).owns_eq, ?_⟩
  intro index header placement present found owns separate
  have entry := filled index header placement present found
  rcases placement.ownsPages_iff.mp owns with ⟨lease, own⟩
  rcases entry.rounds lease own with ⟨size, rounds⟩
  have within : placement.size ≤ lease.pages.size := size ▸ (pagesFor?_eq_some rounds).2.1
  have relocated := Linking.relocated_groups found own within
    (fun other placement' lease' different found' own' =>
      openedSound.placements_apart different found found' own own')
    (Linking.relocated_start entry own) run
  have member : lease ∈ assembly.placements.filterMap Placement.lease? :=
    List.mem_filterMap.mpr ⟨placement, List.mem_of_getElem? found, own⟩
  have apart (table : Fixup.StubTable) (stubbed : linking.linkage.stubs = some table) :=
    openedSound.stubs_apart (fun table same => (empty table same).2) extension member stubbed
  have targets (index : Nat) (relocation : Object.Relocation)
      (member : relocation ∈ object.relocationsFor index) :=
    target_of_resolves parsed resolution linking.writeStubs.memory member
  refine LinkedImage.hasSection_of_relocated ?_ ?_ (targets index) size rounds rfl separate
    (relocated.writeStubs own within apart)
  · intro target stub leads
    exact LinkedImage.jumps_of_linking (assembly.image origin object _) empty extension page rfl
      leads
  · intro place value written
    exact LinkedImage.halves_of_upper (assembly.image origin object _) targets run rfl written

end Staging

end ModuleHost
