import ModuleHost.Proofs.Fixup.Linkage
import ModuleHost.Proofs.Host.Staging

namespace ModuleHost

/-!
# Linking and assembling

Linking writes into pages that are on lease already and takes at most one more, for the
stubs.  An assembly that comes out of a staging accounts for every lease of it: these
are the leases of the module that will be registered, in the same order.
-/

namespace Linking

/-- Linking goes on: only memory, journal and linkage may differ. -/
structure Continues (before after : Linking) : Prop where
  host : ∃ memory journal, after.host = { before.host with memory, journal }
  linkage : before.linkage.Extends after.linkage

theorem Continues.refl (linking : Linking) : Continues linking linking :=
  ⟨⟨linking.host.memory, linking.host.journal, rfl⟩, Fixup.Linkage.Extends.refl _⟩

theorem Continues.trans {first second third : Linking} (continues : Continues first second)
    (continues' : Continues second third) : Continues first third := by
  rcases continues.host with ⟨_, _, same⟩
  rcases continues'.host with ⟨memory, journal, same'⟩
  refine ⟨⟨memory, journal, ?_⟩, continues.linkage.trans continues'.linkage⟩
  rw [same', same]

theorem extends_step (machine : Machine) (patching : Patching) (fixup : Fixup) :
    patching.linkage.Extends (patching.step machine fixup).1.linkage := by
  have applied := Fixup.extends_apply fixup machine patching.linkage patching.contents
  unfold Patching.step
  simp only
  split <;> (next made => rw [made] at applied; exact applied)

theorem extends_patching (machine : Machine) (fixups : List Fixup) (patching : Patching) :
    patching.linkage.Extends
      (Stepwise.forList (Patching.step machine) patching fixups).1.linkage :=
  Stepwise.forList_keeps (Patching.step machine)
    (fun state => patching.linkage.Extends state.linkage)
    (fun state fixup here => here.trans (extends_step machine state fixup)) fixups patching
    (Fixup.Linkage.Extends.refl _)

theorem continues_applyGroup (machine : Machine) (placements : List Placement)
    (addresses : List Address) (linking : Linking) (group : Object.RelocationGroup) :
    Continues linking (applyGroup machine placements addresses linking group).1 := by
  unfold applyGroup
  cases placements[group.target]? with
  | none => exact Continues.refl linking
  | some placement =>
      have patched := extends_patching machine
        (group.relocations.map (fixupFor addresses placement.address))
        ⟨linking.linkage, linking.host.memory.read placement.address placement.size, []⟩
      cases kind : placement.kind <;> simp only [kind]
      · exact Continues.refl linking
      · exact ⟨⟨_, _, rfl⟩, patched⟩
      · exact ⟨⟨_, _, rfl⟩, patched⟩
      · split <;> exact Continues.refl linking

theorem continues_groups (machine : Machine) (placements : List Placement)
    (addresses : List Address) (linking : Linking) (groups : List Object.RelocationGroup) :
    Continues linking
      (Stepwise.forList (applyGroup machine placements addresses) linking groups).1 :=
  Stepwise.forList_keeps (applyGroup machine placements addresses) (Continues linking)
    (fun state group here => here.trans (continues_applyGroup machine placements addresses state
      group)) groups linking (Continues.refl linking)

theorem writeStubs_eq (linking : Linking) :
    ∃ memory, linking.writeStubs = { linking.host with memory } := by
  unfold writeStubs
  split
  · exact ⟨_, rfl⟩
  · exact ⟨linking.host.memory, rfl⟩

end Linking

/-- The pages of an assembly. -/
def Assembly.leases (assembly : Assembly) : List Lease :=
  assembly.placements.filterMap Placement.lease? ++ (assembly.stubPage.map stubLease).toList

namespace Staging

variable {origin : Host} {holders : List Handle} {staging after : Staging} {loose : List Lease}

theorem Sound.openStubs (sound : Sound origin holders staging loose) {object : Object}
    {placements : List Placement} {stubs : Option Fixup.StubTable}
    (opened : staging.openStubs object placements = (after, .ok stubs)) :
    Sound origin holders after
      (loose ++ (stubs.map fun table => stubLease table.base).toList) := by
  unfold Staging.openStubs at opened
  split at opened
  · cases taken : staging.takePages pageSize .text with
    | mk state result =>
        cases result with
        | error error => simp [taken] at opened
        | ok base =>
            simp only [taken, Prod.mk.injEq, Except.ok.injEq] at opened
            rcases opened with ⟨rfl, rfl⟩
            exact sound.takePages taken
  · simp only [Prod.mk.injEq, Except.ok.injEq] at opened
    rcases opened with ⟨rfl, rfl⟩
    simpa using sound

theorem Sound.openStubs_error (sound : Sound origin holders staging loose) {object : Object}
    {placements : List Placement} {error : ModuleError}
    (refused : staging.openStubs object placements = (after, .error error)) :
    Sound origin holders after loose := by
  unfold Staging.openStubs at refused
  split at refused
  · cases taken : staging.takePages pageSize .text with
    | mk state result =>
        cases result with
        | ok base => simp [taken] at refused
        | error error =>
            simp only [taken, Prod.mk.injEq] at refused
            exact refused.1 ▸ sound.takePages_error taken
  · simp at refused

/-- The state in which linking ends has the leases in which it began. -/
theorem Sound.linked (sound : Sound origin holders staging loose) {linking : Linking}
    {linkage : Fixup.Linkage} (continues : Linking.Continues ⟨staging.host, linkage⟩ linking) :
    Sound origin holders { staging with host := linking.writeStubs } loose := by
  rcases linking.writeStubs_eq with ⟨memory, written⟩
  rcases continues.host with ⟨_, _, same⟩
  rw [written, same]
  exact sound.aside memory _

/-- A successful linking opens the stubs, patches every group and writes the stubs. -/
theorem link_eq_ok {object : Object} {placements : List Placement} {addresses : List Address}
    {page : Option Address}
    (linked : staging.link object placements addresses = (after, .ok page)) :
    ∃ opened stubs linking, staging.openStubs object placements = (opened, .ok stubs) ∧
      Stepwise.forList (Linking.applyGroup object.machine placements addresses)
        ⟨opened.host, { stubs }⟩ object.relocationGroups = (linking, .ok ()) ∧
      page = linking.linkage.stubs.map Fixup.StubTable.base ∧
      ∃ notices, after = { opened with host := linking.writeStubs.report notices } := by
  unfold Staging.link at linked
  cases opens : staging.openStubs object placements with
  | mk opened result =>
      cases result with
      | error error => simp [opens] at linked
      | ok stubs =>
          cases run : Stepwise.forList (Linking.applyGroup object.machine placements addresses)
              ⟨opened.host, { stubs }⟩ object.relocationGroups with
          | mk linking outcome =>
              cases outcome with
              | error error => simp [opens, run] at linked
              | ok done =>
                  refine ⟨opened, stubs, linking, rfl, run, ?_⟩
                  cases table : linking.linkage.stubs with
                  | none =>
                      simp only [opens, run, table, Prod.mk.injEq, Except.ok.injEq] at linked
                      refine ⟨linked.2.symm, [], linked.1.symm.trans ?_⟩
                      simp [Host.report]
                  | some table' =>
                      simp only [opens, run, table, Prod.mk.injEq, Except.ok.injEq] at linked
                      exact ⟨linked.2.symm, _, linked.1.symm⟩

theorem Sound.link (sound : Sound origin holders staging loose) {object : Object}
    {placements : List Placement} {addresses : List Address} {page : Option Address}
    (linked : staging.link object placements addresses = (after, .ok page)) :
    Sound origin holders after (loose ++ (page.map stubLease).toList) := by
  rcases link_eq_ok linked with ⟨opened, stubs, linking, opens, run, rfl, notices, rfl⟩
  have continues := Linking.continues_groups object.machine placements addresses
    ⟨opened.host, { stubs }⟩ object.relocationGroups
  rw [run] at continues
  have sound' := (sound.openStubs opens).linked continues
  have base := continues.linkage.base_eq
  rw [base, Option.map_map]
  exact sound'.aside _ _

theorem Sound.link_error (sound : Sound origin holders staging loose) {object : Object}
    {placements : List Placement} {addresses : List Address} {error : ModuleError}
    (failed : staging.link object placements addresses = (after, .error error)) :
    ∃ loose', Sound origin holders after loose' := by
  unfold Staging.link at failed
  cases opens : staging.openStubs object placements with
  | mk opened result =>
      cases result with
      | error error =>
          simp only [opens, Prod.mk.injEq] at failed
          exact ⟨loose, failed.1 ▸ sound.openStubs_error opens⟩
      | ok stubs =>
          have continues := Linking.continues_groups object.machine placements addresses
            ⟨opened.host, { stubs }⟩ object.relocationGroups
          cases run : Stepwise.forList (Linking.applyGroup object.machine placements addresses)
              ⟨opened.host, { stubs }⟩ object.relocationGroups with
          | mk linking outcome =>
              rw [run] at continues
              cases outcome with
              | ok done =>
                  cases table : linking.linkage.stubs <;> simp [opens, run, table] at failed
              | error error =>
                  simp only [opens, run, Prod.mk.injEq] at failed
                  exact ⟨_, failed.1 ▸ (sound.openStubs opens).linked continues⟩

/-! ## The whole assembly -/

theorem assemble_eq_ok {object : Object} {assembly : Assembly}
    (assembled : staging.assemble object = (after, .ok assembly)) :
    ∃ placed resolved, staging.placeAll object = (placed, .ok assembly.placements) ∧
      placed.assignAddresses object assembly.placements = (resolved, .ok assembly.addresses) ∧
      resolved.link object assembly.placements assembly.addresses =
        (after, .ok assembly.stubPage) := by
  unfold Staging.assemble at assembled
  cases places : Staging.placeAll object staging with
  | mk placed outcome =>
      cases outcome with
      | error error => simp [places] at assembled
      | ok placements =>
          cases resolves : Staging.assignAddresses object placements placed with
          | mk resolved outcome =>
              cases outcome with
              | error error => simp [places, resolves] at assembled
              | ok addresses =>
                  cases links : Staging.link object placements addresses resolved with
                  | mk linked outcome =>
                      cases outcome with
                      | error error => simp [places, resolves, links] at assembled
                      | ok page =>
                          simp only [places, resolves, links, Prod.mk.injEq,
                            Except.ok.injEq] at assembled
                          rcases assembled with ⟨rfl, rfl⟩
                          exact ⟨placed, resolved, rfl, resolves, links⟩

/-- An assembly tells of every lease that was taken. -/
theorem Sound.assemble (sound : Sound origin holders staging []) {object : Object}
    {assembly : Assembly} (assembled : staging.assemble object = (after, .ok assembly)) :
    Sound origin holders after assembly.leases := by
  rcases assemble_eq_ok assembled with ⟨placed, resolved, places, resolves, links⟩
  have sound' := sound.placeAll places
  have sound'' := sound'.assignAddresses object assembly.placements
  rw [resolves] at sound''
  exact sound''.link links

theorem Sound.assemble_error (sound : Sound origin holders staging loose) {object : Object}
    {failure : StagingStep × ModuleError}
    (failed : staging.assemble object = (after, .error failure)) :
    ∃ loose', Sound origin holders after loose' := by
  unfold Staging.assemble at failed
  rcases sound.placeAll_keeps object with ⟨loose', sound'⟩
  cases places : Staging.placeAll object staging with
  | mk placed outcome =>
      rw [places] at sound'
      cases outcome with
      | error error =>
          simp only [places, Prod.mk.injEq] at failed
          exact ⟨loose', failed.1 ▸ sound'⟩
      | ok placements =>
          have sound'' := sound'.assignAddresses object placements
          cases resolves : Staging.assignAddresses object placements placed with
          | mk resolved outcome =>
              rw [resolves] at sound''
              cases outcome with
              | error error =>
                  simp only [places, resolves, Prod.mk.injEq] at failed
                  exact ⟨loose', failed.1 ▸ sound''⟩
              | ok addresses =>
                  cases links : Staging.link object placements addresses resolved with
                  | mk linked outcome =>
                      cases outcome with
                      | ok page => simp [places, resolves, links] at failed
                      | error error =>
                          simp only [places, resolves, links, Prod.mk.injEq] at failed
                          exact failed.1 ▸ sound''.link_error links

/-- Rolling back returns everything that was taken. -/
theorem Sound.rollBack (sound : Sound origin holders staging loose) (stage : StagingStep) :
    (staging.rollBack stage).Accounted holders [] ∧ origin.Continues (staging.rollBack stage) ∧
      (staging.rollBack stage).memory = staging.host.memory := by
  have whole (text : String) :
      (((staging.host.say .debug text).returnAllPages staging.ranges).returnAllReferences
          staging.held).Accounted holders [] ∧
        origin.Continues (((staging.host.say .debug text).returnAllPages
          staging.ranges).returnAllReferences staging.held) ∧
        (((staging.host.say .debug text).returnAllPages staging.ranges).returnAllReferences
          staging.held).memory = staging.host.memory := by
    have accounted : (staging.host.say .debug text).Accounted (staging.held ++ holders)
        (loose ++ []) := by
      rw [List.append_nil]
      exact sound.accounted.aside _ _
    rw [sound.ranges]
    rcases accounted.returnAllPages with ⟨accounted', continues, _, memory⟩
    rcases accounted'.returnAllReferences with ⟨accounted'', continues', _, memory'⟩
    have said : staging.host.Continues (staging.host.say .debug text) :=
      Host.Continues.aside _ _ _
    exact ⟨accounted'', sound.continues.trans (said.trans (continues.trans continues')),
      memory'.trans memory⟩
  exact whole _

end Staging

end ModuleHost
