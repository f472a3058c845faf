import ModuleHost.Host.Load
import ModuleHost.Proofs.Arena.Leases
import ModuleHost.Proofs.Registry.Alike

namespace ModuleHost

/-!
# What a host holds

Two kinds of things are taken and given back: references on modules and pages of the
arena.  A registered module holds the references in its list of dependencies and the
pages of its sections and stubs.  What is held besides, by loads under way and from
outside, is given as a list of handles and a list of leases; `Accounted` says that with
these nothing is held twice and nothing is lost.

Giving things back never fails on an accounted host.  The record that the host keeps
shows it: no answer in it is a refusal, and what the arena has released are the ranges in
it.
-/

/-- The pages that a section has of its own. -/
def Placement.lease? (placement : Placement) : Option Lease :=
  match placement.kind with
  | .text => some ⟨.text, ⟨placement.address, placement.size⟩⟩
  | .data => some ⟨.data, ⟨placement.address, placement.size⟩⟩
  | .unplaced | .zeroPage => none

theorem Placement.range_of_lease? {placement : Placement} {lease : Lease}
    (own : placement.lease? = some lease) :
    lease.range = ⟨placement.address, placement.size⟩ := by
  rcases placement with ⟨address, size, kind⟩
  cases kind <;> cases own <;> rfl

theorem Placement.ownsPages_iff (placement : Placement) :
    placement.ownsPages = true ↔ ∃ lease, placement.lease? = some lease := by
  rcases placement with ⟨address, size, kind⟩
  cases kind <;> simp [ownsPages, lease?]

/-- If leases are apart pairwise, so are the pages of any two sections. -/
theorem Placement.pages_apart {placements : List Placement}
    (apart : (placements.filterMap lease?).Pairwise fun first second =>
      Range.Apart first.pages second.pages)
    {index other : Nat} {placement placement' : Placement} {lease lease' : Lease}
    (different : other ≠ index) (found : placements[index]? = some placement)
    (found' : placements[other]? = some placement') (own : placement.lease? = some lease)
    (own' : placement'.lease? = some lease') : Range.Apart lease.pages lease'.pages := by
  have listed := List.pairwise_iff_getElem.mp (List.pairwise_filterMap.mp apart)
  rcases List.getElem?_eq_some_iff.mp found with ⟨bounded, rfl⟩
  rcases List.getElem?_eq_some_iff.mp found' with ⟨bounded', rfl⟩
  rcases Nat.lt_or_gt_of_ne different with before | behind
  · exact (listed other index bounded' bounded before lease' own' lease own).symm
  · exact listed index other bounded bounded' behind lease own lease' own'

/-- The page of stubs at an address. -/
def stubLease (page : Address) : Lease :=
  ⟨.text, ⟨page, pageSize⟩⟩

theorem pages_stubLease (page : Address) : (stubLease page).pages = ⟨page, pageSize⟩ := by
  have whole : pagesFor? pageSize = some pageSize := by decide
  rw [Lease.pages, stubLease, whole, Option.getD_some]

/-- The pages that a module has: its sections', then that of its stubs. -/
def LoadedModule.leases (module : LoadedModule) : List Lease :=
  module.placements.filterMap Placement.lease? ++ (module.stubPage.map stubLease).toList

/-- The ranges that sections have of their own are those of their leases. -/
theorem Placement.ranges_eq (placements : List Placement) :
    (placements.filter ownsPages).map
        (fun placement => (⟨placement.address, placement.size⟩ : Range)) =
      (placements.filterMap lease?).map Lease.range := by
  rw [List.map_filterMap, ← List.filterMap_eq_map, List.filterMap_filter]
  refine List.filterMap_congr fun placement _ => ?_
  rcases placement with ⟨address, size, kind⟩
  cases kind <;> rfl

/-- The ranges that are returned when a module goes are those of its leases. -/
theorem LoadedModule.ranges_eq (module : LoadedModule) :
    (module.placements.filter Placement.ownsPages).map
        (fun placement => (⟨placement.address, placement.size⟩ : Range)) ++
      (module.stubPage.map fun page => (⟨page, pageSize⟩ : Range)).toList =
      module.leases.map Lease.range := by
  rw [LoadedModule.leases, List.map_append, Placement.ranges_eq]
  cases module.stubPage <;> rfl

namespace Registry

/-- The pages that registered modules have. -/
def leases (registry : Registry) : List Lease :=
  registry.entries.flatMap fun entry => entry.2.leases

theorem leases_of_views {first second : Registry}
    (same : first.entries.map (fun entry => entry.2.leases) =
      second.entries.map fun entry => entry.2.leases) : first.leases = second.leases := by
  simp only [leases, List.flatMap_def, same]

theorem Alike.leases_eq {first second : Registry} (alike : Alike first second) :
    first.leases = second.leases :=
  leases_of_views (alike.map_entries _ fun _ => rfl)

theorem Changes.leases_perm {before after : Registry} {handle : Handle}
    {old new : Option LoadedModule} (changes : Changes before after handle old new) :
    (new.elim [] LoadedModule.leases ++ before.leases).Perm
      (old.elim [] LoadedModule.leases ++ after.leases) := by
  rcases changes with ⟨front, back, _, entries, entries'⟩
  have part (held : Option LoadedModule) :
      (entryFor handle held).flatMap (fun entry => entry.2.leases) =
        held.elim [] LoadedModule.leases := by
    cases held <;> simp [entryFor]
  simp only [leases, entries, entries', List.flatMap_append, part, ← List.append_assoc]
  refine List.Perm.append_right _ ?_
  generalize front.flatMap (fun entry => entry.2.leases) = first
  generalize old.elim [] LoadedModule.leases = gone
  generalize new.elim [] LoadedModule.leases = come
  calc (come ++ first ++ gone).Perm (gone ++ (come ++ first)) := List.perm_append_comm
    _ = gone ++ come ++ first := (List.append_assoc _ _ _).symm
    _ |>.Perm (gone ++ (first ++ come)) := by
        rw [List.append_assoc]
        exact List.perm_append_comm.append_left _
    _ = gone ++ first ++ come := (List.append_assoc _ _ _).symm

end Registry

/-! ## The record of what was given back -/

namespace Return

/-- What was given back had been held: the count of the module was not zero and its handle
not stale, or the pages were handed out and had not come back. -/
def Accepted : Return → Prop
  | .reference _ answer => ∃ remaining, answer = .ok (.returned remaining)
  | .pages _ answer => answer = .ok ()

instance decidableAccepted : DecidablePred Accepted
  | .reference _ (.ok (.returned remaining)) => .isTrue ⟨remaining, rfl⟩
  | .reference _ (.ok (.notHeld _)) => .isFalse nofun
  | .reference _ (.error _) => .isFalse nofun
  | .pages _ (.ok ()) => .isTrue rfl
  | .pages _ (.error _) => .isFalse nofun

/-- The whole pages that were given back. -/
def pages? : Return → Option Range
  | .reference _ _ => none
  | .pages range _ => some range.pages

end Return

/-- Nothing was refused, and the released ranges of the arena are those that were given
back, each once. -/
structure Recorded (arena : Arena) (returns : List Return) : Prop where
  accepted : ∀ item ∈ returns, item.Accepted
  released : (arena.text.released ++ arena.data.released).Perm (returns.filterMap Return.pages?)

namespace Recorded

variable {arena after : Arena} {returns : List Return}

theorem reference (recorded : Recorded arena returns) (handle : Handle) (remaining : Nat) :
    Recorded arena (.reference handle (.ok (.returned remaining)) :: returns) where
  accepted := List.forall_mem_cons.mpr ⟨⟨remaining, rfl⟩, recorded.accepted⟩
  released := recorded.released

theorem free (recorded : Recorded arena returns) (sound : arena.Sound) {range : Range}
    (freed : arena.free range = .ok after) :
    Recorded after (.pages range (.ok ()) :: returns) where
  accepted := List.forall_mem_cons.mpr ⟨rfl, recorded.accepted⟩
  released := (sound.free_adds freed).1.trans (recorded.released.cons _)

theorem allocate (recorded : Recorded arena returns) {size : Nat} {kind : WindowKind}
    {address : Address} (given : arena.allocate size kind = .ok (address, after)) :
    Recorded after returns where
  accepted := recorded.accepted
  released := by
    rw [Arena.released_allocate given]
    exact recorded.released

end Recorded

namespace Host

/-- Besides registered modules, exactly the holders have references and exactly the loose
leases are on loan, and whatever was given back had been held. -/
structure Accounted (host : Host) (holders : List Handle) (loose : List Lease) : Prop where
  consistent : host.registry.Consistent
  balanced : host.registry.Balanced holders
  leased : host.arena.Leased (loose ++ host.registry.leases)
  recorded : Recorded host.arena host.returns

/-- The host goes on with the same modules: counts, pages, memory and journal may differ,
but the count of a closed module does not rise and what was given back stays on record. -/
structure Continues (before after : Host) : Prop where
  settings_eq : after.settings = before.settings
  exports_eq : after.exports = before.exports
  zeroPage_eq : after.zeroPage = before.zeroPage
  alike : before.registry.Alike after.registry
  closed : ∀ handle, before.registry.ClosedLe after.registry handle
  grows : before.arena.Grows after.arena
  returns : before.returns <:+ after.returns

/-- Without a change of the registry it is enough that the arena goes on. -/
theorem continues_of_grows (host : Host) {arena : Arena} {returns : List Return}
    (grows : host.arena.Grows arena) (kept : host.returns <:+ returns) (memory : Memory)
    (journal : List Notice) : Continues host { host with arena, returns, memory, journal } :=
  ⟨rfl, rfl, rfl, Registry.Alike.refl _, fun _ => .of_get?_eq rfl, grows, kept⟩

theorem Continues.aside (host : Host) (memory : Memory) (journal : List Notice) :
    Continues host { host with memory, journal } :=
  continues_of_grows host (Arena.Grows.refl _) List.suffix_rfl memory journal

theorem Continues.refl (host : Host) : Continues host host :=
  Continues.aside host host.memory host.journal

theorem Continues.trans {first second third : Host} (continues : Continues first second)
    (continues' : Continues second third) : Continues first third where
  settings_eq := continues'.settings_eq.trans continues.settings_eq
  exports_eq := continues'.exports_eq.trans continues.exports_eq
  zeroPage_eq := continues'.zeroPage_eq.trans continues.zeroPage_eq
  alike := continues.alike.trans continues'.alike
  closed handle := (continues.closed handle).trans (continues'.closed handle)
    (Registry.phase?_of_uncounted (continues.alike handle))
  grows := continues.grows.trans continues'.grows
  returns := continues.returns.trans continues'.returns

variable {host : Host} {holders : List Handle} {loose : List Lease}

/-- The lines of the journal and the contents of memory hold nothing. -/
theorem Accounted.aside (accounted : host.Accounted holders loose) (memory : Memory)
    (journal : List Notice) : Accounted { host with memory, journal } holders loose :=
  ⟨accounted.consistent, accounted.balanced, accounted.leased, accounted.recorded⟩

/-- A new host has no modules and has got nothing back, and its arena is that of the
settings. -/
theorem create_eq_ok {settings : Settings} {exports : ExportTable} {memory : Memory}
    {zeroPage : Address} (created : create settings exports memory zeroPage = .ok host) :
    host.registry = {} ∧ Arena.ofSpecs settings.text settings.data = .ok host.arena ∧
      host.returns = [] := by
  unfold create at created
  cases made : Arena.ofSpecs settings.text settings.data with
  | error error =>
      rw [made] at created
      cases created
  | ok arena =>
      rw [made] at created
      cases created
      exact ⟨rfl, rfl, rfl⟩

theorem create_of_toOption {settings : Settings} {exports : ExportTable} {memory : Memory}
    {zeroPage : Address} (found : (create settings exports memory zeroPage).toOption = some host) :
    create settings exports memory zeroPage = .ok host :=
  ok_of_toOption found

theorem accounted_create {settings : Settings} {exports : ExportTable} {memory : Memory}
    {zeroPage : Address} (created : create settings exports memory zeroPage = .ok host) :
    host.Accounted [] [] := by
  rcases create_eq_ok created with ⟨empty, made, nothing⟩
  refine ⟨empty ▸ Registry.consistent_empty, ?_, ?_, ?_⟩
  · rw [empty]
    intro handle
    rfl
  · rw [empty]
    exact Arena.leased_ofSpecs made
  · rw [nothing, (Arena.sound_ofSpecs made).1]
    exact ⟨fun _ listed => absurd listed List.not_mem_nil, .refl _⟩

/-! ## Taking references -/

theorem Accounted.takeReference {handle : Handle} {registry : Registry} {references : Nat}
    (accounted : host.Accounted holders loose)
    (taken : host.registry.acquire handle = .ok (registry, references)) :
    Accounted { host with registry } (handle :: holders) loose ∧
      Continues host { host with registry } := by
  have alike := Registry.Alike.acquire taken
  refine ⟨⟨?_, accounted.balanced.acquire taken, ?_, accounted.recorded⟩, rfl, rfl, rfl, alike,
    fun _ => .acquire taken, Arena.Grows.refl _, List.suffix_rfl⟩
  · rcases Registry.acquire_eq_ok taken with ⟨module, found, _, rfl⟩
    exact accounted.consistent.update found rfl
  · show host.arena.Leased (loose ++ registry.leases)
    rw [← alike.leases_eq]
    exact accounted.leased

/-! ## Giving back -/

theorem Accounted.perm {holders' : List Handle} {loose' : List Lease}
    (accounted : host.Accounted holders loose) (same : holders.Perm holders')
    (same' : loose.Perm loose') : host.Accounted holders' loose' :=
  ⟨accounted.consistent, accounted.balanced.perm same,
    accounted.leased.perm (same'.append_right _), accounted.recorded⟩

@[simp]
theorem report_nil (host : Host) : host.report [] = host := by
  rw [report, List.append_nil]

theorem returnPages_of_free {range : Range} {arena : Arena}
    (freed : host.arena.free range = .ok arena) :
    host.returnPages range =
      { host with arena, returns := .pages range (.ok ()) :: host.returns } := by
  rw [returnPages, freed]
  rfl

theorem release_of_returned {handle : Handle} {registry : Registry} {remaining : Nat}
    (released : host.registry.release handle = .ok (registry, .returned remaining))
    (occasion : String) :
    host.release handle occasion = { host with
      registry, returns := .reference handle (.ok (.returned remaining)) :: host.returns } := by
  rw [release, released]
  exact report_nil _

/-- Pages on lease are taken back. -/
theorem Accounted.returnPages {lease : Lease}
    (accounted : host.Accounted holders (lease :: loose)) :
    (host.returnPages lease.range).Accounted holders loose ∧
      Continues host (host.returnPages lease.range) ∧
      (host.returnPages lease.range).registry = host.registry ∧
      (host.returnPages lease.range).memory = host.memory := by
  rcases accounted.leased.free with ⟨arena, freed, leased, grows, _⟩
  have recorded := accounted.recorded.free accounted.leased.arena_sound freed
  rw [returnPages_of_free freed]
  exact ⟨⟨accounted.consistent, accounted.balanced, leased, recorded⟩,
    continues_of_grows host grows (List.suffix_cons _ _) host.memory host.journal, rfl, rfl⟩

theorem Accounted.returnAllPages {leases : List Lease}
    (accounted : host.Accounted holders (leases ++ loose)) :
    (host.returnAllPages (leases.map Lease.range)).Accounted holders loose ∧
      Continues host (host.returnAllPages (leases.map Lease.range)) ∧
      (host.returnAllPages (leases.map Lease.range)).registry = host.registry ∧
      (host.returnAllPages (leases.map Lease.range)).memory = host.memory := by
  induction leases generalizing host with
  | nil => exact ⟨accounted, Continues.refl host, rfl, rfl⟩
  | cons lease rest ih =>
      rcases accounted.returnPages with ⟨accounted', continues, registry, memory⟩
      rcases ih accounted' with ⟨accounted'', continues', registry', memory'⟩
      exact ⟨accounted'', continues.trans continues', registry'.trans registry,
        memory'.trans memory⟩

/-- A reference that is held outside is taken back. -/
theorem Accounted.release {handle : Handle} (accounted : host.Accounted (handle :: holders) loose)
    (occasion : String) :
    ∃ module registry references, host.registry.get? handle = some module ∧
      module.references = references + 1 ∧
      registry.get? handle = some { module with references } ∧
      host.release handle occasion = { host with
        registry, returns := .reference handle (.ok (.returned references)) :: host.returns } ∧
      (host.release handle occasion).Accounted holders loose ∧
      Continues host (host.release handle occasion) := by
  rcases accounted.balanced.release with
    ⟨module, references, found, held, released, balanced⟩
  have changes := Registry.changes_update found { module with references }
  have alike : host.registry.Alike (host.registry.update handle { module with references }) :=
    Registry.Alike.update found rfl
  have result := release_of_returned released occasion
  refine ⟨module, _, references, found, held, changes.get?_new, result, ?_⟩
  rw [result]
  refine ⟨⟨accounted.consistent.update found rfl, balanced, ?_,
    accounted.recorded.reference handle references⟩,
    rfl, rfl, rfl, alike, fun _ => .update found (held ▸ Nat.le_succ references),
    Arena.Grows.refl _, List.suffix_cons _ _⟩
  show host.arena.Leased (loose ++ (host.registry.update handle { module with references }).leases)
  rw [← alike.leases_eq]
  exact accounted.leased

theorem Accounted.returnReference {handle : Handle}
    (accounted : host.Accounted (handle :: holders) loose) :
    (host.returnReference handle).Accounted holders loose ∧
      Continues host (host.returnReference handle) ∧
      (host.returnReference handle).arena = host.arena ∧
      (host.returnReference handle).memory = host.memory := by
  rcases accounted.release "" with
    ⟨_, registry, _, _, _, _, result, accounted', continues⟩
  refine ⟨accounted', continues, ?_⟩
  rw [Host.returnReference, result]
  exact ⟨rfl, rfl⟩

theorem Accounted.returnAllReferences {handles : List Handle}
    (accounted : host.Accounted (handles ++ holders) loose) :
    (host.returnAllReferences handles).Accounted holders loose ∧
      Continues host (host.returnAllReferences handles) ∧
      (host.returnAllReferences handles).arena = host.arena ∧
      (host.returnAllReferences handles).memory = host.memory := by
  induction handles generalizing host with
  | nil => exact ⟨accounted, Continues.refl host, rfl, rfl⟩
  | cons handle rest ih =>
      rcases accounted.returnReference with ⟨accounted', continues, arena, memory⟩
      rcases ih accounted' with ⟨accounted'', continues', arena', memory'⟩
      exact ⟨accounted'', continues.trans continues', arena'.trans arena, memory'.trans memory⟩

end Host

end ModuleHost
