import ModuleHost.Proofs.Object
import ModuleHost.Proofs.Session.FailedLoad

namespace ModuleHost

/-!
# Pages are conserved

At every point of a run the bytes that a window has handed out and not got back are those
of the pages in which registered modules have their sections, and in the text window of
their pages of stubs.  Nothing leaks: a load that failed and a module that was removed
have returned their pages.  Nothing is returned twice either: the arena accepts every
range that is given back.
-/

namespace LoadedModule

/-- The bytes of the pages of the sections in one kind of memory. -/
def sectionBytes (module : LoadedModule) (kind : PlacementKind) : Nat :=
  let placed := module.placements.filter fun placement => placement.kind = kind
  (placed.map fun placement => wholePages placement.size).sum

/-- The bytes of the page of stubs. -/
def stubBytes (module : LoadedModule) : Nat :=
  if module.stubPage.isSome then pageSize else 0

end LoadedModule

/-! ## The bytes in use -/

namespace Arena

theorem leasedBytes_append (front back : List Lease) (kind : WindowKind) :
    leasedBytes (front ++ back) kind = leasedBytes front kind + leasedBytes back kind := by
  simp [leasedBytes]

end Arena

namespace LoadedModule

/-- The bytes of a module's pages in a window. -/
def bytesIn (module : LoadedModule) : WindowKind → Nat
  | .text => module.sectionBytes .text + module.stubBytes
  | .data => module.sectionBytes .data

/-- The leases of one window that sections have are those of the sections of its kind. -/
theorem sizes_sections (placements : List Placement) (kind : WindowKind) :
    ((placements.filterMap Placement.lease?).filter fun lease => lease.window = kind).map
        (fun lease => wholePages lease.range.size) =
      (placements.filter fun placement => placement.kind = Staging.placementIn kind).map
        fun placement => wholePages placement.size := by
  induction placements with
  | nil => rfl
  | cons placement rest ih =>
      rcases placement with ⟨address, size, memory⟩
      cases memory <;> cases kind <;>
        simpa [List.filterMap_cons, Placement.lease?, Staging.placementIn] using ih

theorem leasedBytes_leases (module : LoadedModule) (kind : WindowKind)
    (rounded : ∀ lease ∈ module.leases, lease.pages.size = wholePages lease.range.size) :
    Arena.leasedBytes module.leases kind = module.bytesIn kind := by
  have sizes : (module.leases.filter fun lease => lease.window = kind).map
      (fun lease => lease.pages.size) =
        (module.leases.filter fun lease => lease.window = kind).map
          fun lease => wholePages lease.range.size :=
    List.map_congr_left fun lease listed => rounded lease (List.mem_of_mem_filter listed)
  have page : wholePages pageSize = pageSize := by decide
  rw [Arena.leasedBytes, sizes, leases, List.filter_append, List.map_append, List.sum_append,
    sizes_sections]
  cases kind <;> cases stubs : module.stubPage <;>
    simp [bytesIn, sectionBytes, stubBytes, stubs, stubLease, Staging.placementIn, page] <;> rfl

end LoadedModule

namespace Registry

/-- The leases of registered modules, module by module. -/
theorem leasedBytes_leases (registry : Registry) (kind : WindowKind)
    (rounded : ∀ lease ∈ registry.leases, lease.pages.size = wholePages lease.range.size) :
    Arena.leasedBytes registry.leases kind =
      (registry.entries.map fun entry => entry.2.bytesIn kind).sum := by
  unfold leases at rounded ⊢
  generalize registry.entries = entries at rounded ⊢
  induction entries with
  | nil => rfl
  | cons entry rest ih =>
      rw [List.flatMap_cons] at rounded ⊢
      rw [Arena.leasedBytes_append, List.map_cons, List.sum_cons]
      congr 1
      · exact entry.2.leasedBytes_leases kind fun lease listed =>
          rounded lease (List.mem_append_left _ listed)
      · exact ih fun lease listed => rounded lease (List.mem_append_right _ listed)

end Registry

namespace Host

variable {host : Host} {holders : List Handle}

theorem Accounted.inUse_modules (accounted : host.Accounted holders []) (kind : WindowKind) :
    (host.arena.window kind).inUse =
      (host.registry.entries.map fun entry => entry.2.bytesIn kind).sum := by
  rw [accounted.inUse_eq]
  apply Registry.leasedBytes_leases
  intro lease listed
  exact eq_wholePages (accounted.leased.inside lease listed).rounds

theorem Accounted.released_le (accounted : host.Accounted holders []) (kind : WindowKind) :
    (host.arena.window kind).releasedBytes ≤ (host.arena.window kind).cursor := by
  rw [accounted.leased.total kind]
  exact Nat.le_add_right _ _

end Host

namespace Session

variable {session : Session}

/-- At every point of every run, the bytes that a window has handed out less those that it
got back are the bytes of the pages of registered modules: of their sections in that
window and, in the text window, of their stubs.  Every range that was given back so far was
accepted, and what the windows have released are the pages of these ranges, each once.
Each operation adds the ranges that it gives back to those before.  Without modules
everything has come back. -/
theorem pages_conserved (reachable : session.Reachable) :
    (∀ kind, (session.host.arena.window kind).releasedBytes ≤
      (session.host.arena.window kind).cursor) ∧
    session.host.arena.text.inUse = (session.host.registry.entries.map fun entry =>
      entry.2.sectionBytes .text + entry.2.stubBytes).sum ∧
    session.host.arena.data.inUse = (session.host.registry.entries.map fun entry =>
      entry.2.sectionBytes .data).sum ∧
    (∀ range answer, .pages range answer ∈ session.host.returns → answer = .ok ()) ∧
    (session.host.arena.text.released ++ session.host.arena.data.released).Perm
      (session.host.returns.filterMap Return.pages?) ∧
    (∀ operation, session.host.returns <:+ (session.perform operation).host.returns) ∧
    (session.host.registry.entries = [] → ∀ kind,
      (session.host.arena.window kind).releasedBytes =
        (session.host.arena.window kind).cursor) := by
  have accounted := reachable.sound.accounted
  refine ⟨accounted.released_le, accounted.inUse_modules .text, accounted.inUse_modules .data,
    fun range answer noted => accounted.recorded.accepted _ noted,
    accounted.recorded.released, reachable.sound.returns_perform, ?_⟩
  intro empty kind
  have nothing := accounted.inUse_modules kind
  rw [empty] at nothing
  exact Nat.le_antisymm (accounted.released_le kind) (Nat.le_of_sub_eq_zero nothing)

set_option maxRecDepth 4096 in
/-- A module with one page of data that is loaded and unloaded.  Its page is given back and
accepted, once, and is all that was handed out. -/
theorem pages_conserved_unloaded :
    ∃ host loaded after, Host.create {} ⟨[]⟩ (.filled 0) 0 = .ok host ∧
      performAll { host } [.load "self" (Object.selfPointing 1)] = loaded ∧
      loaded.host.arena.data.inUse = 4096 ∧
      (loaded.host.registry.entries.map fun entry => entry.2.sectionBytes .data).sum = 4096 ∧
      loaded.perform (.unload "self") = after ∧ after.host.arena.data.cursor = 4096 ∧
      after.host.arena.data.releasedBytes = 4096 ∧
      after.host.returns.filterMap Return.pages? = [⟨0xffffffffa8000000, 4096⟩] ∧
      ∀ range answer, .pages range answer ∈ after.host.returns → answer = .ok () := by
  have ran : (Host.create {} ⟨[]⟩ (.filled 0) 0).toOption.map (fun host =>
      let loaded := performAll { host } [.load "self" (Object.selfPointing 1)]
      let after := loaded.perform (.unload "self")
      (loaded.host.arena.data.inUse, after.host.registry.entries.length,
        after.host.arena.data.cursor, after.host.returns.filterMap Return.pages?)) =
          some (4096, 0, 4096, [⟨0xffffffffa8000000, 4096⟩]) := by
    decide +kernel
  rcases Option.map_eq_some_iff.mp ran with ⟨host, found, outcome⟩
  rcases Prod.mk.inj outcome with ⟨used, rest⟩
  rcases Prod.mk.inj rest with ⟨gone, rest⟩
  rcases Prod.mk.inj rest with ⟨handed, pages⟩
  have loaded : Reachable _ :=
    .step (.start (Host.create_of_toOption found)) (.load "self" (Object.selfPointing 1))
  rcases pages_conserved (loaded.step (.unload "self")) with
    ⟨_, _, _, accepted, _, _, unloaded⟩
  exact ⟨host, _, _, Host.create_of_toOption found, rfl, used,
    (pages_conserved loaded).2.2.1.symm.trans used, rfl, handed,
    (unloaded (List.eq_nil_of_length_eq_zero gone) .data).trans handed, pages, accepted⟩

end Session
end ModuleHost
