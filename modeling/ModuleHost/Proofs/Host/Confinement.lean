import ModuleHost.Proofs.Host.Halves
import ModuleHost.Proofs.Host.Quiet
import ModuleHost.Proofs.Host.Image

namespace ModuleHost

/-!
# Loads write into new pages

A load places, patches and adds stubs in pages that it was given itself, whatever the image
asks for and whether the load succeeds or not.  So every byte that is not given out during
the load is as before, and the module that is registered, if one is, has pages of its own.
-/

theorem LoadedModule.leases_of_lasting {first second : LoadedModule}
    (same : first.lasting = second.lasting) : first.leases = second.leases := by
  have leases := congrArg LoadedModule.leases same
  exact leases

namespace Host

/-- Only addresses that were given out on the way have been written, and only they may
belong to a new module. -/
structure Confined (before after : Host) : Prop where
  grows : before.arena.Grows after.arena
  zeroPage_eq : after.zeroPage = before.zeroPage
  kept : ∀ address, ¬before.arena.GivesOut after.arena address →
    after.memory.byteAt address = before.memory.byteAt address
  modules : ∀ handle module, after.registry.get? handle = some module →
    (∃ earlier, before.registry.get? handle = some earlier ∧ module.lasting = earlier.lasting) ∨
      ∀ lease ∈ module.leases, before.arena.Fresh after.arena lease

variable {host middle after : Host} {leases : List Lease}

theorem Quiet.confined (quiet : Quiet host after) : Confined host after :=
  ⟨quiet.grows, quiet.zeroPage_eq, fun _ _ => by rw [quiet.memory_eq],
    fun handle module found => Or.inl (quiet.persists handle module found)⟩

theorem Confined.trans (confined : Confined host middle) (confined' : Confined middle after) :
    Confined host after where
  grows := confined.grows.trans confined'.grows
  zeroPage_eq := confined'.zeroPage_eq.trans confined.zeroPage_eq
  kept address outside := by
    rw [confined'.kept address fun given => outside (given.since confined.grows),
      confined.kept address fun given => outside (given.onward confined'.grows)]
  modules handle module found := by
    rcases confined'.modules handle module found with ⟨earlier, found', same⟩ | fresh
    · have leases := LoadedModule.leases_of_lasting same
      rcases confined.modules handle earlier found' with ⟨first, found'', same'⟩ | fresh
      · exact Or.inl ⟨first, found'', same.trans same'⟩
      · exact Or.inr fun lease listed => (fresh lease (leases ▸ listed)).onward confined'.grows
    · exact Or.inr fun lease listed => (fresh lease listed).since confined.grows

/-- Writing into new pages. -/
theorem Confined.written (confined : Confined host after)
    (fresh : ∀ lease ∈ leases, host.arena.Fresh after.arena lease) {memory : Memory}
    (changes : Memory.ChangesIn (leases.map Lease.pages) after.memory memory)
    (journal : List Notice) : Confined host { after with memory, journal } := by
  refine ⟨confined.grows, confined.zeroPage_eq, fun address outside => ?_, confined.modules⟩
  refine Eq.trans (changes address ?_) (confined.kept address outside)
  intro range listed inside
  rcases List.mem_map.mp listed with ⟨lease, member, rfl⟩
  exact outside ((fresh lease member).given address inside)

end Host

/-! ## Patching -/

theorem Patching.length_step (machine : Machine) (patching : Patching) (fixup : Fixup) :
    (patching.step machine fixup).1.contents.length = patching.contents.length := by
  unfold Patching.step
  simp only
  split
  · next applied => exact (Fixup.apply_eq_ok applied).1
  · rfl

namespace Linking

variable {machine : Machine} {placements : List Placement} {addresses : List Address}

/-- A group writes into the pages of its section. -/
theorem changesIn_applyGroup (linking : Linking) (group : Object.RelocationGroup)
    (rounds : ∀ lease ∈ placements.filterMap Placement.lease?,
      pagesFor? lease.range.size = some lease.pages.size) :
    Memory.ChangesIn ((placements.filterMap Placement.lease?).map Lease.pages)
      linking.host.memory
      (applyGroup machine placements addresses linking group).1.host.memory := by
  have idle : Memory.ChangesIn ((placements.filterMap Placement.lease?).map Lease.pages)
      linking.host.memory linking.host.memory := fun _ _ => rfl
  cases found : placements[group.target]? with
  | none =>
      rw [applyGroup, found]
      exact idle
  | some placement =>
      cases own : placement.lease? with
      | none =>
          rw [applyGroup, found]
          cases kind : placement.kind with
          | unplaced => simpa only [kind] using idle
          | zeroPage =>
              simp only [kind]
              split <;> exact idle
          | text => simp [Placement.lease?, kind] at own
          | data => simp [Placement.lease?, kind] at own
      | some lease =>
          have member : lease ∈ placements.filterMap Placement.lease? :=
            List.mem_filterMap.mpr ⟨placement, List.mem_of_getElem? found, own⟩
          have length := Stepwise.forList_keeps (Patching.step machine)
            (fun patching => patching.contents.length = placement.size)
            (fun patching fixup here => (patching.length_step machine fixup).trans here)
            (group.relocations.map (fixupFor addresses placement.address))
            ⟨linking.linkage, linking.host.memory.read placement.address placement.size, []⟩
            (Memory.length_read _ _ _)
          rw [applyGroup_of_lease found own rfl]
          have written := Memory.changesIn_write linking.host.memory placement.address
            (Stepwise.forList (Patching.step machine)
              ⟨linking.linkage, linking.host.memory.read placement.address placement.size, []⟩
              (group.relocations.map (fixupFor addresses placement.address))).1.contents
          have range := Placement.range_of_lease? own
          have size := (pagesFor?_eq_some (rounds lease member)).2.1
          rw [length] at written
          rw [range] at size
          have whole := lease.mk_pages_size
          rw [range] at whole
          refine (written.widen size).mono ?_
          intro range' listed
          rw [List.mem_singleton.mp listed, whole]
          exact List.mem_map_of_mem member

theorem changesIn_groups (machine : Machine) (addresses : List Address) (linking : Linking)
    (groups : List Object.RelocationGroup)
    (rounds : ∀ lease ∈ placements.filterMap Placement.lease?,
      pagesFor? lease.range.size = some lease.pages.size) :
    Memory.ChangesIn ((placements.filterMap Placement.lease?).map Lease.pages)
      linking.host.memory
      (Stepwise.forList (applyGroup machine placements addresses) linking groups).1.host.memory :=
  Stepwise.forList_keeps (applyGroup machine placements addresses)
    (fun state => Memory.ChangesIn ((placements.filterMap Placement.lease?).map Lease.pages)
      linking.host.memory state.host.memory)
    (fun state group here => here.trans (changesIn_applyGroup state group rounds)) groups linking
    (fun _ _ => rfl)

/-- The stubs are written into their page. -/
theorem changesIn_writeStubs {stubs : Option Fixup.StubTable} {linking : Linking}
    (empty : ∀ table, stubs = some table → table.targets = [])
    (extension : Fixup.Linkage.Extends { stubs } linking.linkage) :
    Memory.ChangesIn
      ((stubs.map fun table => stubLease table.base).toList.map Lease.pages)
      linking.host.memory linking.writeStubs.memory := by
  rcases linking.memory_writeStubs with ⟨_, same⟩ | ⟨table, stubbed, written⟩
  · rw [same]
    exact fun _ _ => rfl
  · rcases LinkedImage.table_of_extends empty extension stubbed with ⟨fits, opened, same, base, _⟩
    have changes := Memory.changesIn_write linking.host.memory table.base table.bytes
    rw [same, written, Option.map_some, Option.toList_some, List.map_singleton, pages_stubLease,
      ← base]
    exact changes.widen (Fixup.StubTable.length_bytes_le fits)

end Linking

namespace Staging

variable {staging after : Staging} {object : Object} {placements : List Placement}

/-! ## Placing -/

theorem quiet_takePages (staging : Staging) (size : Nat) (window : WindowKind) :
    staging.host.Quiet (staging.takePages size window).1.host := by
  have quiet := Host.Quiet.takePages staging.host size window
  unfold takePages
  split <;>
    (next taken =>
      rw [taken] at quiet
      exact quiet)

theorem fresh_takePages {size : Nat} {window : WindowKind} {address : Address}
    (taken : staging.takePages size window = (after, .ok address)) :
    staging.host.arena.Fresh after.host.arena ⟨window, ⟨address, size⟩⟩ := by
  rcases takePages_eq_ok taken with ⟨arena, given, rfl⟩
  exact (Arena.allocate_eq_ok given).2

/-- A section is written into the pages that it is given. -/
theorem confined_place {header : Object.Section} {result : Except ModuleError Placement}
    (placed : Staging.place object staging header = (after, result)) :
    staging.host.Confined after.host ∧
      ∀ lease ∈ (result.toOption.bind Placement.lease?).toList,
        staging.host.arena.Fresh after.host.arena lease := by
  cases place_cases placed with
  | omitted =>
      exact ⟨(Host.Quiet.refl _).confined,
        by simp [Except.toOption, Placement.lease?, Placement.unplaced]⟩
  | misaligned => exact ⟨((Host.Quiet.refl _).say _ _).confined, by simp [Except.toOption]⟩
  | shared => exact ⟨(Host.Quiet.refl _).confined, by simp [Except.toOption, Placement.lease?]⟩
  | refused => exact ⟨(Host.Quiet.aside _ _).confined, by simp [Except.toOption]⟩
  | given _ _ _ address state taken text =>
      have quiet := staging.quiet_takePages header.size.toNat (windowFor header)
      have fresh := fresh_takePages taken
      rw [taken] at quiet
      simp only [Except.toOption, Option.bind_some, lease?_placementIn, Option.toList_some,
        List.mem_singleton, forall_eq]
      let lease : Lease := ⟨windowFor header, ⟨address, header.size.toNat⟩⟩
      have changes : Memory.ChangesIn ([lease].map Lease.pages) state.host.memory
          (fillPages state.host.memory address header.size.toNat (object.contents header)) := by
        rw [List.map_singleton, ← lease.mk_pages_size]
        exact changesIn_fillPages object header _ address fresh.rounds
      have listed : ∀ lease' ∈ [lease], staging.host.arena.Fresh state.host.arena lease' :=
        fun lease' member => List.mem_singleton.mp member ▸ fresh
      exact ⟨quiet.confined.written listed changes _, fresh⟩

/-- Sections are written into the pages that they are given. -/
theorem confined_placeAll (object : Object) (staging : Staging) :
    staging.host.Confined (Staging.placeAll object staging).1.host :=
  Stepwise.mapList_keeps (Staging.place object)
    (fun state => staging.host.Confined state.host)
    (fun _ _ here => here.trans (confined_place rfl).1) object.sections staging
    (Host.Quiet.refl _).confined

theorem fresh_placeAll (placed : Staging.placeAll object staging = (after, .ok placements)) :
    ∀ lease ∈ placements.filterMap Placement.lease?,
      staging.host.arena.Fresh after.host.arena lease := by
  have run := Stepwise.mapList_ok
    (motive := fun done state => staging.host.arena.Grows state.host.arena ∧
      ∀ lease ∈ (done.map Prod.snd).filterMap Placement.lease?,
        staging.host.arena.Fresh state.host.arena lease)
    (fun done state header next placement here step => by
      rcases confined_place step with ⟨confined, fresh⟩
      refine ⟨here.1.trans confined.grows, fun lease listed => ?_⟩
      rw [List.map_append, List.filterMap_append] at listed
      rcases List.mem_append.mp listed with earlier | new
      · exact (here.2 lease earlier).onward confined.grows
      · rcases List.mem_filterMap.mp new with ⟨other, member, own⟩
        rw [List.map_singleton, List.mem_singleton] at member
        rw [member] at own
        exact (fresh lease (Option.mem_toList.mpr own)).since here.1)
    ⟨Arena.Grows.refl _, by simp⟩ placed
  rcases run with ⟨lengths, -, fresh⟩
  rw [List.map_snd_zip (Nat.le_of_eq lengths)] at fresh
  exact fresh

/-! ## Resolving -/

theorem quiet_importSymbol (staging : Staging) (name : String) (isWeak : Bool) :
    staging.host.Quiet (staging.importSymbol name isWeak).1.host := by
  unfold importSymbol
  split
  · exact Host.Quiet.refl _
  · split
    · split
      · exact Host.Quiet.refl _
      · next registry references taken =>
          exact (Host.Quiet.of_persists (.acquire taken)).say _ _
    · split <;> exact (Host.Quiet.refl _).say _ _

theorem quiet_assignAddresses (object : Object) (placements : List Placement)
    (staging : Staging) :
    staging.host.Quiet (staging.assignAddresses object placements).1.host := by
  refine Stepwise.mapList_keeps (assignAddress object placements)
    (fun state => staging.host.Quiet state.host) ?_ object.symbols.zipIdx staging
    (Host.Quiet.refl _)
  intro state entry here
  refine here.trans ?_
  unfold assignAddress
  simp only
  split
  · split
    · exact Host.Quiet.refl _
    · exact quiet_importSymbol state _ _
  · exact Host.Quiet.refl _
  · exact (Host.Quiet.refl _).say _ _
  · exact Host.Quiet.refl _

/-! ## Linking -/

theorem quiet_openStubs (object : Object) (placements : List Placement) (staging : Staging) :
    staging.host.Quiet (staging.openStubs object placements).1.host := by
  unfold openStubs
  split
  · have quiet := staging.quiet_takePages pageSize .text
    split <;>
      (next taken =>
        rw [taken] at quiet
        exact quiet)
  · exact Host.Quiet.refl _

theorem fresh_openStubs {stubs : Option Fixup.StubTable}
    (opened : staging.openStubs object placements = (after, .ok stubs)) :
    ∀ lease ∈ (stubs.map fun table => stubLease table.base).toList,
      staging.host.arena.Fresh after.host.arena lease := by
  unfold openStubs at opened
  split at opened
  · cases taken : staging.takePages pageSize .text with
    | mk state result =>
        cases result with
        | error error => simp [taken] at opened
        | ok base =>
            simp only [taken, Prod.mk.injEq, Except.ok.injEq] at opened
            rcases opened with ⟨rfl, rfl⟩
            intro lease listed
            rw [Option.map_some, Option.toList_some, List.mem_singleton] at listed
            rw [listed]
            exact fresh_takePages taken
  · simp only [Prod.mk.injEq, Except.ok.injEq] at opened
    rw [← opened.2]
    simp

/-- Patches and stubs are written into the pages of the sections and of the stubs. -/
theorem confined_writeStubs {origin opened : Host} {stubs : Option Fixup.StubTable}
    {linking : Linking} (confined : origin.Confined opened)
    (sections : ∀ lease ∈ placements.filterMap Placement.lease?,
      origin.arena.Fresh opened.arena lease)
    (page : ∀ lease ∈ (stubs.map fun table => stubLease table.base).toList,
      origin.arena.Fresh opened.arena lease)
    (empty : ∀ table, stubs = some table → table.targets = [])
    (continues : Linking.Continues ⟨opened, { stubs }⟩ linking)
    (changes : Memory.ChangesIn ((placements.filterMap Placement.lease?).map Lease.pages)
      opened.memory linking.host.memory) :
    origin.Confined linking.writeStubs ∧ linking.writeStubs.arena = opened.arena := by
  let leases := placements.filterMap Placement.lease? ++
    (stubs.map fun table => stubLease table.base).toList
  have fresh : ∀ lease ∈ leases, origin.arena.Fresh opened.arena lease := by
    intro lease listed
    rcases List.mem_append.mp listed with own | stub
    · exact sections lease own
    · exact page lease stub
  have written := Linking.changesIn_writeStubs empty continues.linkage
  have whole : Memory.ChangesIn (leases.map Lease.pages) opened.memory
      linking.writeStubs.memory := by
    rw [List.map_append]
    exact (changes.mono (List.subset_append_left _ _)).trans
      (written.mono (List.subset_append_right _ _))
  rcases continues.host with ⟨_, journal, same⟩
  rcases linking.writeStubs_eq with ⟨memory, result⟩
  rw [same] at result
  rw [result] at whole ⊢
  exact ⟨confined.written fresh whole journal, rfl⟩

/-- Whatever linking comes to, it is confined to what was given out since some earlier state of
the host. -/
theorem confined_link {origin : Host} {addresses : List Address}
    (confined : origin.Confined staging.host)
    (fresh : ∀ lease ∈ placements.filterMap Placement.lease?,
      origin.arena.Fresh staging.host.arena lease)
    {result : Except ModuleError (Option Address)}
    (linked : staging.link object placements addresses = (after, result)) :
    origin.Confined after.host ∧ staging.host.arena.Grows after.host.arena ∧
      ∀ page, result = .ok page → ∀ lease ∈ (page.map stubLease).toList,
        origin.arena.Fresh after.host.arena lease := by
  have quiet := quiet_openStubs object placements staging
  unfold link at linked
  cases opens : staging.openStubs object placements with
  | mk opened outcome =>
      rw [opens] at linked quiet
      cases outcome with
      | error error =>
          cases linked
          exact ⟨confined.trans quiet.confined, quiet.grows, nofun⟩
      | ok stubs =>
          have page : ∀ lease ∈ (stubs.map fun table => stubLease table.base).toList,
              origin.arena.Fresh opened.host.arena lease :=
            fun lease listed => (fresh_openStubs opens lease listed).since confined.grows
          have sections : ∀ lease ∈ placements.filterMap Placement.lease?,
              origin.arena.Fresh opened.host.arena lease :=
            fun lease listed => (fresh lease listed).onward quiet.grows
          have continues := Linking.continues_groups object.machine placements addresses
            ⟨opened.host, { stubs }⟩ object.relocationGroups
          have changes := Linking.changesIn_groups object.machine addresses
            ⟨opened.host, { stubs }⟩ object.relocationGroups
            fun lease listed => (sections lease listed).rounds
          simp only at linked
          cases run : Stepwise.forList (Linking.applyGroup object.machine placements addresses)
              ⟨opened.host, { stubs }⟩ object.relocationGroups with
          | mk linking done =>
              rw [run] at linked continues changes
              rcases confined_writeStubs (confined.trans quiet.confined) sections page
                (fun table same => ((openStubs_eq_ok opens).2 table same).2) continues changes
                with ⟨confined', arena⟩
              have grows : staging.host.arena.Grows linking.writeStubs.arena :=
                arena ▸ quiet.grows
              have opened' : ∀ lease ∈
                  ((linking.linkage.stubs.map Fixup.StubTable.base).map stubLease).toList,
                  origin.arena.Fresh linking.writeStubs.arena lease := by
                rw [continues.linkage.base_eq, Option.map_map, arena]
                exact page
              cases done with
              | error error =>
                  cases linked
                  exact ⟨confined', grows, nofun⟩
              | ok done =>
                  cases table : linking.linkage.stubs with
                  | none =>
                      simp only [table, Prod.mk.injEq] at linked
                      rcases linked with ⟨rfl, rfl⟩
                      refine ⟨confined', grows, fun page same => ?_⟩
                      rw [← Except.ok.inj same]
                      simp
                  | some table' =>
                      simp only [table, Prod.mk.injEq] at linked
                      rcases linked with ⟨rfl, rfl⟩
                      rw [table] at opened'
                      refine ⟨confined'.trans ((Host.Quiet.refl _).say _ _).confined, grows,
                        fun page same => ?_⟩
                      rw [← Except.ok.inj same]
                      exact opened'

/-! ## Assembling -/

/-- Whatever an assembly comes to, it is confined; if it succeeds its pages are new. -/
theorem confined_assemble {result : Except (StagingStep × ModuleError) Assembly}
    (assembled : staging.assemble object = (after, result)) :
    staging.host.Confined after.host ∧
      ∀ assembly, result = .ok assembly →
        ∀ lease ∈ assembly.leases, staging.host.arena.Fresh after.host.arena lease := by
  have places := confined_placeAll object staging
  unfold assemble at assembled
  cases placing : staging.placeAll object with
  | mk placed outcome =>
      rw [placing] at assembled places
      cases outcome with
      | error error =>
          cases assembled
          exact ⟨places, nofun⟩
      | ok placements =>
          simp only at assembled
          have resolves := quiet_assignAddresses object placements placed
          cases resolving : placed.assignAddresses object placements with
          | mk resolved outcome =>
              rw [resolving] at assembled resolves
              cases outcome with
              | error error =>
                  cases assembled
                  exact ⟨places.trans resolves.confined, nofun⟩
              | ok addresses =>
                  simp only at assembled
                  have sections : ∀ lease ∈ placements.filterMap Placement.lease?,
                      staging.host.arena.Fresh resolved.host.arena lease :=
                    fun lease listed => (fresh_placeAll placing lease listed).onward resolves.grows
                  cases linking : resolved.link object placements addresses with
                  | mk linked outcome =>
                      rw [linking] at assembled
                      rcases confined_link (places.trans resolves.confined) sections linking with
                        ⟨confined, grows, page⟩
                      cases outcome with
                      | error error =>
                          cases assembled
                          exact ⟨confined, nofun⟩
                      | ok stubPage =>
                          cases assembled
                          refine ⟨confined, fun assembly same lease listed => ?_⟩
                          rw [← Except.ok.inj same] at listed
                          rcases List.mem_append.mp listed with own | stub
                          · exact (sections lease own).onward grows
                          · exact page stubPage rfl lease stub

theorem quiet_rollBack (staging : Staging) (stage : StagingStep) :
    staging.host.Quiet (staging.rollBack stage) :=
  (((Host.Quiet.refl _).say _ _).trans (Host.Quiet.returnAllPages _ _)).trans
    (Host.Quiet.returnAllReferences _ _)

end Staging

namespace Host

variable {host after : Host} {holders : List Handle}

/-- A load writes into pages that it is given itself, and the module that it registers has
pages that it was given itself. -/
theorem Accounted.confined_beginLoad (accounted : host.Accounted holders []) (name : String)
    (image : List UInt8) : host.Confined (host.beginLoad name image).1 := by
  cases began : host.beginLoad name image with
  | mk after result =>
      unfold beginLoad at began
      simp only at began
      have examined := examine_keeps
        (host.say .info s!"[module] Loading relocatable object: {name} ({image.length} bytes)")
        name image
      split at began
      · next examination =>
          rw [examination] at examined
          rcases examined with ⟨journal, rfl⟩
          cases began
          exact (Quiet.aside host _).confined
      · next admitted object examination =>
          rw [examination] at examined
          rcases examined with ⟨journal, rfl⟩
          have announced : Confined host { host with journal } := (Quiet.aside host _).confined
          split at began
          · next staging stage cause assembled =>
              cases began
              exact (announced.trans (Staging.confined_assemble assembled).1).trans
                (staging.quiet_rollBack stage).confined
          · next staging assembly assembled =>
              rcases Staging.confined_assemble assembled with ⟨confined, fresh⟩
              have start : Accounted { host with journal } holders [] := accounted.aside _ _
              have sound := (Staging.sound_start start).assemble assembled
              have consistent := sound.accounted.consistent
              have whole := announced.trans confined
              cases result with
              | error error =>
                  rw [register_eq_error consistent began]
                  exact whole.trans (staging.quiet_rollBack _).confined
              | ok pending =>
                  rcases register_eq_ok consistent began with ⟨registry, changes, _, rfl, _⟩
                  refine ⟨whole.grows, whole.zeroPage_eq, whole.kept, ?_⟩
                  intro handle module found
                  by_cases new : handle = pending.handle
                  · rw [new, changes.get?_new] at found
                    rw [← Option.some.inj found]
                    exact Or.inr (fresh assembly rfl)
                  · rw [changes.get?_other new] at found
                    exact whole.modules handle module found

end Host

end ModuleHost
