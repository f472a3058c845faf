import ModuleHost.Proofs.Fixup.Detours
import ModuleHost.Proofs.Host.Confinement
import ModuleHost.Proofs.Session.Soundness

namespace ModuleHost

/-!
# Calls of other objects

Whether a page of stubs is taken is decided before the first relocation is applied, from the
symbols; whether a stub is used is decided at each call, from the distance.  The two agree where
it matters: a call of an undefined symbol finds a page of stubs, and finds it in reach, since
the page and the code lie in the same window.  All that can go wrong is that the page is full.
-/

/-- The relocations of an object are being applied, and it is the turn of one of them. -/
structure Visit (host : Host) (object : Object) where
  placements : List Placement
  addresses : List Address
  placed : Staging
  resolved : Staging
  opened : Staging
  stubs : Option Fixup.StubTable
  linking : Linking
  patching : Patching
  /-- The groups of relocations that are done, the one under way and those to come. -/
  groupsDone : List Object.RelocationGroup
  group : Object.RelocationGroup
  groupsLeft : List Object.RelocationGroup
  /-- The section that the group is for. -/
  placement : Placement
  /-- The relocations of the group that are done, the one at hand and those to come. -/
  relocationsDone : List Object.Relocation
  relocation : Object.Relocation
  relocationsLeft : List Object.Relocation
  places : Staging.placeAll object { host } = (placed, .ok placements)
  resolves : placed.assignAddresses object placements = (resolved, .ok addresses)
  opens : resolved.openStubs object placements = (opened, .ok stubs)
  groups_eq : object.relocationGroups = groupsDone ++ group :: groupsLeft
  links : Stepwise.forList (Linking.applyGroup object.machine placements addresses)
    ⟨opened.host, { stubs }⟩ groupsDone = (linking, .ok ())
  found : placements[group.target]? = some placement
  owns : placement.ownsPages = true
  relocations_eq : group.relocations = relocationsDone ++ relocation :: relocationsLeft
  patches : Stepwise.forList (Patching.step object.machine)
    ⟨linking.linkage, linking.host.memory.read placement.address placement.size, []⟩
    (relocationsDone.map (Linking.fixupFor addresses placement.address)) = (patching, .ok ())

namespace Linking

/-- The fixups of a group of relocations. -/
def groupFixups (placements : List Placement) (addresses : List Address)
    (group : Object.RelocationGroup) : List Fixup :=
  match placements[group.target]? with
  | some placement =>
    if placement.ownsPages then group.relocations.map (fixupFor addresses placement.address)
    else []
  | none => []

variable {machine : Machine} {placements : List Placement} {addresses : List Address}
variable {linking after : Linking}

/-- Whatever groups of relocations are applied, the stubs serve their fixups. -/
theorem serves_groups {done : List Fixup} {groups : List Object.RelocationGroup}
    (serves : linking.linkage.Serves machine done)
    (ran : Stepwise.forList (applyGroup machine placements addresses) linking groups =
      (after, .ok ())) :
    after.linkage.Serves machine (done ++ groups.flatMap (groupFixups placements addresses)) := by
  refine Stepwise.forList_ok
    (motive := fun now state => state.linkage.Serves machine
      (done ++ now.flatMap (groupFixups placements addresses))) ?_ (by simpa using serves) ran
  intro now group rest state next split here step
  rw [List.flatMap_append, ← List.append_assoc, List.flatMap_singleton]
  rcases applyGroup_eq_ok step with
    ⟨rfl, _⟩ | ⟨placement, lease, patching, found, own, ran', linkage, _⟩
  · exact fun table stubs => (here table stubs).mono fun fixup listed =>
      List.mem_append_left _ listed
  · have owns : placement.ownsPages = true := placement.ownsPages_iff.mpr ⟨lease, own⟩
    have fixups : groupFixups placements addresses group =
        group.relocations.map (fixupFor addresses placement.address) := by
      simp only [groupFixups, found, if_pos owns]
    rw [linkage, fixups]
    exact Fixup.Linkage.Serves.run here ran'

end Linking

namespace Visit

variable {host : Host} {object : Object} (visit : Visit host object)

/-- The fixup at hand, were its symbol at the address. -/
def fixup (address : Address) : Fixup :=
  { Linking.fixupFor visit.addresses visit.placement.address visit.relocation with
    symbol := BitVec.ofNat 64 address }

/-- What becomes of the fixup at hand, were its symbol at the address. -/
def outcome (address : Address) : Except FixupError Unit :=
  (visit.patching.step object.machine (visit.fixup address)).2

theorem outcome_eq (address : Address) : visit.outcome address =
    ((visit.fixup address).apply object.machine visit.patching.linkage
      visit.patching.contents).2.map fun _ => () := by
  unfold outcome Patching.step
  simp only
  split <;> (next applied => rw [applied]; rfl)

/-- The fixups that have been applied. -/
def done : List Fixup :=
  visit.groupsDone.flatMap (Linking.groupFixups visit.placements visit.addresses) ++
    visit.relocationsDone.map (Linking.fixupFor visit.addresses visit.placement.address)

/-- The relocation at hand is a call of a symbol of another object, in code.  On x86-64 its
field ends with the instruction. -/
structure Calls : Prop where
  text : visit.placement.kind = .text
  call : Fixup.isCall object.machine visit.relocation.kind = true
  external : ∃ symbol, object.symbols[visit.relocation.symbolIndex]? = some symbol ∧
    symbol.isUndefined = true
  inside : visit.relocation.offset.toNat + (Fixup.callForm object.machine).width ≤
    visit.placement.size
  plain : object.machine = .x86_64 → visit.relocation.addend = -4

/-! ## The page of stubs -/

theorem serves : visit.patching.linkage.Serves object.machine visit.done := by
  have start : ({ stubs := visit.stubs } : Fixup.Linkage).Serves object.machine [] := by
    intro table stubs
    have empty := ((Staging.openStubs_eq_ok visit.opens).2 table stubs).2
    exact ⟨by simp [Fixup.StubTable.Fits, empty], by simp [empty], by simp [empty]⟩
  exact (Linking.serves_groups start visit.links).run visit.patches

theorem length_contents : visit.patching.contents.length = visit.placement.size := by
  rw [Fixup.length_of_run visit.patches, Memory.length_read]

/-- The stubs stay on the page that was opened for them. -/
theorem extends_stubs :
    ({ stubs := visit.stubs } : Fixup.Linkage).Extends visit.patching.linkage := by
  have groups := (Linking.continues_groups object.machine visit.placements visit.addresses
    ⟨visit.opened.host, { stubs := visit.stubs }⟩ visit.groupsDone).linkage
  have fixups := Linking.extends_patching object.machine
    (visit.relocationsDone.map (Linking.fixupFor visit.addresses visit.placement.address))
    ⟨visit.linking.linkage,
      visit.linking.host.memory.read visit.placement.address visit.placement.size, []⟩
  rw [visit.links] at groups
  rw [visit.patches] at fixups
  exact groups.trans fixups

variable {visit}

theorem Calls.lease?_eq (calls : visit.Calls) : visit.placement.lease? =
    some ⟨.text, ⟨visit.placement.address, visit.placement.size⟩⟩ := by
  simp only [Placement.lease?, calls.text]

/-- A page of stubs has been opened if there is a call of another object's symbol. -/
theorem Calls.needsStubs (calls : visit.Calls) :
    Staging.needsStubs object visit.placements = true := by
  rcases calls.external with ⟨symbol, present, undefined⟩
  have group : visit.group ∈ object.relocationGroups := by simp [visit.groups_eq]
  have relocation : visit.relocation ∈ visit.group.relocations := by simp [visit.relocations_eq]
  simp only [Staging.needsStubs, List.any_eq_true, Bool.and_eq_true]
  exact ⟨visit.group, group, by simp [visit.found, visit.owns], visit.relocation, relocation,
    calls.call, by simp [present, undefined]⟩

/-- The stubs so far are on that page. -/
theorem Calls.exists_table (calls : visit.Calls) : ∃ page table, visit.stubs = some page ∧
    visit.patching.linkage.stubs = some table ∧ table.machine = object.machine ∧
    table.base = page.base := by
  have opened := visit.opens
  rw [Staging.openStubs, if_pos calls.needsStubs] at opened
  rcases visit.extends_stubs.stubs with ⟨targets, more⟩
  cases stubs : visit.stubs with
  | none =>
      split at opened <;> simp [stubs] at opened
  | some page =>
      rw [stubs, Option.map_some] at more
      exact ⟨page, _, rfl, more, ((Staging.openStubs_eq_ok visit.opens).2 page stubs).1, rfl⟩

/-- The code window has not moved when the stubs are opened. -/
theorem grows_opened (visit : Visit host object) :
    host.arena.Grows visit.opened.host.arena := by
  have placed := (Staging.confined_placeAll object { host }).grows
  have resolved := (Staging.quiet_assignAddresses object visit.placements visit.placed).grows
  have opened := (Staging.quiet_openStubs object visit.placements visit.resolved).grows
  rw [visit.places] at placed
  rw [visit.resolves] at resolved
  rw [visit.opens] at opened
  exact (placed.trans resolved).trans opened

/-- The code and the stubs of the object lie in the code window. -/
theorem within_text (visit : Visit host object) {holders : List Handle}
    (accounted : host.Accounted holders []) {lease : Lease}
    (listed : lease ∈ visit.placements.filterMap Placement.lease? ++
      (visit.stubs.map fun table => stubLease table.base).toList) (code : lease.window = .text) :
    host.arena.text.base ≤ lease.range.start ∧
      lease.range.start + lease.range.size ≤ host.arena.text.base + host.arena.text.size := by
  have placed := (Staging.sound_start accounted).placeAll visit.places
  have resolved := placed.assignAddresses object visit.placements
  rw [visit.resolves] at resolved
  have leased := (resolved.openStubs visit.opens).accounted.leased
  have inside := leased.inside lease (List.mem_append_left _ listed)
  have whole := (pagesFor?_eq_some inside.rounds).2.1
  have above := inside.above
  have below := inside.below
  have used := (leased.sound .text).cursor_le
  rw [code, visit.grows_opened.base_eq .text, lease.pages_start] at above
  rw [code, visit.grows_opened.base_eq .text, lease.pages_start] at below
  rw [visit.grows_opened.size_eq .text] at used
  refine ⟨above, ?_⟩
  calc lease.range.start + lease.range.size
      ≤ lease.range.start + lease.pages.size := Nat.add_le_add_left whole _
    _ ≤ host.arena.text.base + (visit.opened.host.arena.window .text).cursor := below
    _ ≤ host.arena.text.base + host.arena.text.size := Nat.add_le_add_left used _

/-- Where the code window is small, every stub is in reach of a call. -/
theorem Calls.near {holders : List Handle} (calls : visit.Calls)
    (accounted : host.Accounted holders []) (small : host.arena.text.size ≤ 2 ^ 27)
    {table : Fixup.StubTable} (stubs : visit.patching.linkage.stubs = some table)
    (address : Address) : ∀ index < table.capacity, Fixup.reach object.machine
      (BitVec.ofNat 64 (table.addressOf index) + (visit.fixup address).bias object.machine -
        (visit.fixup address).place) = true := by
  intro index bounded
  rcases calls.exists_table with ⟨page, table', opened, stubs', _, base⟩
  cases stubs.symm.trans stubs'
  have code := visit.within_text accounted
    (List.mem_append_left _ (List.mem_filterMap.mpr
      ⟨visit.placement, List.mem_of_getElem? visit.found, calls.lease?_eq⟩)) rfl
  have stub := visit.within_text accounted
    (List.mem_append_right _ (by rw [opened]; exact List.mem_singleton_self _)) rfl
  have room := Fixup.StubTable.addressOf_within bounded
  have inside := calls.inside
  have writes : 0 < (Fixup.callForm object.machine).width := by cases object.machine <;> decide
  simp only [stubLease, ← base] at code stub
  refine Fixup.reach_of_near rfl (fun x86 => ?_) ?_ ?_
  · show visit.relocation.addend.toBitVec = -4#64
    rw [calls.plain x86]
    rfl
  · lia
  · lia

/-! ## Visits in a load -/

/-- Every relocation of an object that is assembled is visited, and its fixup applied. -/
theorem exists_of_assemble {after : Staging} {assembly : Assembly}
    (assembled : Staging.assemble object { host } = (after, .ok assembly))
    {groupsDone groupsLeft : List Object.RelocationGroup} {group : Object.RelocationGroup}
    {placement : Placement} {relocationsDone relocationsLeft : List Object.Relocation}
    {relocation : Object.Relocation}
    (groups_eq : object.relocationGroups = groupsDone ++ group :: groupsLeft)
    (found : assembly.placements[group.target]? = some placement)
    (owns : placement.ownsPages = true)
    (relocations_eq : group.relocations = relocationsDone ++ relocation :: relocationsLeft) :
    ∃ visit : Visit host object, visit.placement = placement ∧
      visit.relocationsDone = relocationsDone ∧ visit.relocation = relocation ∧
      visit.outcome (assembly.addresses.getD relocation.symbolIndex 0) = .ok () := by
  rcases Staging.assemble_eq_ok assembled with ⟨placed, resolved, places, resolves, linked⟩
  rcases Staging.link_eq_ok linked with ⟨opened, stubs, linked, opens, ran, _, _, _⟩
  rw [groups_eq] at ran
  rcases Stepwise.forList_reaches ran with ⟨linking, next, links, applied⟩
  rcases Linking.applyGroup_eq_ok applied with
    ⟨_, unowned⟩ | ⟨placement', lease, patching, found', own, ran', _, _⟩
  · rcases placement.ownsPages_iff.mp owns with ⟨lease, own⟩
    rw [unowned placement found] at own
    cases own
  · cases found.symm.trans found'
    rw [relocations_eq, List.map_append, List.map_cons] at ran'
    rcases Stepwise.forList_reaches ran' with ⟨patching, _, patches, applied⟩
    exact ⟨⟨_, _, placed, resolved, opened, stubs, linking, patching, groupsDone, group,
      groupsLeft, placement, relocationsDone, relocation, relocationsLeft, places, resolves, opens,
      groups_eq, links, found, owns, relocations_eq, patches⟩, rfl, rfl, rfl,
      congrArg Prod.snd applied⟩

end Visit

namespace Session

variable {session : Session}

/-- When the turn comes to a call of another object's symbol in the code of an object, it is
patched, wherever the symbol is, unless there is no stub left for it.  In that case the page of
stubs is full: it leads to as many different targets as it has room for, each of them out of
reach of a call that was patched before, and this call needs yet another one. -/
theorem external_call_served (reachable : session.Reachable) (journal : List Notice)
    (small : session.host.arena.text.size ≤ 2 ^ 27) {object : Object}
    (visit : Visit { session.host with journal } object) (calls : visit.Calls)
    (address : Address) :
    (visit.outcome address = .ok () ∨ visit.outcome address = .error .stubsExhausted) ∧
    (visit.outcome address = .error .stubsExhausted →
      ∃ target table, (visit.fixup address).Detours object.machine target ∧
        visit.patching.linkage.stubs = some table ∧ target ∉ table.targets ∧
        table.targets.Nodup ∧
        table.targets.length = pageSize / Fixup.stubSize object.machine ∧
        ∀ other ∈ table.targets, ∃ fixup ∈ visit.done, fixup.Detours object.machine other) := by
  have accounted := reachable.sound.accounted.aside session.host.memory journal
  rcases calls.exists_table with ⟨page, table, _, stubs, machine, _⟩
  have serves := visit.serves table stubs
  have inside : (visit.fixup address).offset + (Fixup.callForm object.machine).width ≤
      visit.patching.contents.length := visit.length_contents ▸ calls.inside
  rcases Fixup.apply_served calls.call inside stubs serves.fits
    (calls.near accounted small stubs address) with succeeds | ⟨exhausted, detours, absent, full⟩
  · rcases succeeds with ⟨contents, applied⟩
    have outcome : visit.outcome address = .ok () := by
      rw [visit.outcome_eq, applied]
      rfl
    refine ⟨.inl outcome, fun exhausted => ?_⟩
    rw [outcome] at exhausted
    cases exhausted
  · have outcome : visit.outcome address = .error .stubsExhausted := by
      rw [visit.outcome_eq, exhausted]
      rfl
    refine ⟨.inr outcome, fun _ => ⟨_, table, detours, stubs, absent, serves.nodup, ?_,
      serves.asked⟩⟩
    rw [full, Fixup.StubTable.capacity, machine]

set_option maxRecDepth 4096 in
/-- The second of two calls of a symbol of the kernel far away. -/
theorem external_call_served_again :
    ∃ host object, Host.create {} ⟨[⟨"x", 0x7f0000000000⟩]⟩ (.filled 0) 0 = .ok host ∧
      host.arena.text.size ≤ 2 ^ 27 ∧ Object.ofImage Object.calling = .ok object ∧
      ∃ visit : Visit host object, visit.Calls ∧ visit.relocationsDone.length = 1 ∧
        visit.outcome 0x7f0000000000 = .ok () ∧
        ∀ address, visit.outcome address = .ok () ∨
          visit.outcome address = .error .stubsExhausted := by
  have ran : (Host.create {} ⟨[⟨"x", 0x7f0000000000⟩]⟩ (.filled 0) 0).toOption.any (fun host =>
      host.arena.text.size ≤ 2 ^ 27 &&
      (Object.ofImage Object.calling).toOption.any (fun object =>
        object.machine = .x86_64 &&
        (object.relocationGroups.map fun group => (group.target, group.relocations)) =
          [(2, [⟨1, 0x100000004, -4⟩, ⟨9, 0x100000004, -4⟩])] &&
        (object.symbols[1]?.any Object.Symbol.isUndefined) &&
        (Staging.assemble object { host }).2.toOption.any (fun assembly =>
          assembly.placements[2]? = some ⟨0xffffffffa0000000, 16, .text⟩ &&
            assembly.addresses[1]? = some 0x7f0000000000))) = true := by
    decide +kernel
  simp only [Option.any_eq_true, Bool.and_eq_true, decide_eq_true_eq] at ran
  rcases ran with ⟨host, made, small, object, parsed, ⟨⟨machine, groups⟩, symbol, present,
    undefined⟩, assembly, assembled, placed, resolved⟩
  have created := Host.create_of_toOption made
  rcases List.map_eq_singleton_iff.mp groups with ⟨group, listed, same⟩
  rcases Prod.mk.inj same with ⟨target, relocations⟩
  have found : assembly.placements[group.target]? = some ⟨0xffffffffa0000000, 16, .text⟩ := by
    rw [target]
    exact placed
  have groups_eq : object.relocationGroups = [] ++ group :: [] := listed
  have relocations_eq : group.relocations =
      [⟨1, 0x100000004, -4⟩] ++ ⟨9, 0x100000004, -4⟩ :: [] := relocations
  rcases Visit.exists_of_assemble (Prod.ext rfl (ok_of_toOption assembled)) groups_eq found rfl
    relocations_eq with ⟨visit, placement, done, relocation, outcome⟩
  have calls : visit.Calls := by
    refine ⟨by rw [placement], by rw [machine, relocation]; decide, ⟨symbol, ?_, undefined⟩, ?_,
      fun _ => by rw [relocation]⟩
    · rw [relocation]
      exact present
    · rw [machine, relocation, placement]
      decide
  have reached : assembly.addresses.getD 1 0 = 0x7f0000000000 := by
    rw [List.getD_eq_getElem?_getD, resolved]
    rfl
  refine ⟨host, object, created, small, ok_of_toOption parsed, visit, calls, by rw [done]; rfl,
    reached ▸ outcome, fun address => ?_⟩
  have start : Reachable { host } := .start created
  exact (external_call_served start host.journal small visit calls address).1

end Session
end ModuleHost
