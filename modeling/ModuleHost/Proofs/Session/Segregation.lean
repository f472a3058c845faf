import ModuleHost.Proofs.Host.Segregation
import ModuleHost.Proofs.Session.Exports

namespace ModuleHost

/-!
# Sections beside those of other modules

At any time the modules of a session have pages that were handed out for them, and share one
page besides.  So whatever is loaded next is put into memory apart from all that there is.
-/

namespace Session

variable {session : Session}

/-- The sections of registered modules that share a page share that of the host. -/
theorem Reachable.shared (reachable : session.Reachable) {entry : Handle × LoadedModule}
    (registered : entry ∈ session.host.registry.entries) {placement : Placement}
    (listed : placement ∈ entry.2.placements) (shared : placement.kind = .zeroPage) :
    placement.address = session.host.zeroPage ∧ placement.size ≤ pageSize := by
  refine reachable.of_registered (motive := fun zeroPage module =>
    ∀ placement ∈ module.placements, placement.kind = .zeroPage →
      placement.address = zeroPage ∧ placement.size ≤ pageSize) ?_ ?_
    ((Registry.get?_eq_some_iff _ entry.1 entry.2).mpr registered) placement listed shared
  · intro zeroPage first second same known
    have placements : first.lasting.placements = second.lasting.placements := by rw [same]
    rwa [show first.placements = second.placements from placements]
  · intro host holders image object staging assembly name accounted parsed assembled
    rcases Staging.assemble_eq_ok assembled with ⟨placed, resolved, places, _, _⟩
    rcases Staging.progress_of_mapList places with ⟨lengths, progress⟩
    intro placement listed shared
    rcases Staging.exists_section lengths listed with ⟨header, member⟩
    exact (progress.put (header, placement) member).of_zeroPage shared

/-- In every reachable session modules have memory as the host says, if the shared page is a
page outside the windows. -/
theorem Reachable.housed (reachable : session.Reachable)
    (aligned : session.host.zeroPage % pageSize = 0)
    (apart : ∀ kind, Range.Apart ⟨session.host.zeroPage, pageSize⟩
      (session.host.arena.window kind).extent) : session.host.Housed where
  arena := reachable.sound.accounted.leased.arena_sound
  zeroPage_aligned := aligned
  zeroPage_apart := apart
  handed lease listed := by
    have inside := reachable.sound.accounted.leased.inside lease listed
    exact Lease.pages_eq inside.rounds ▸ inside.handed
  shared _ registered _ listed shared := reachable.shared registered listed shared

end Session

namespace Staging

/-- Where the modules of a host have the memory that they should, the sections of any object are
put into memory as their marks and sizes say, apart from each other and from everything else.
If one of them is refused, this is so for the sections in front of it, and nothing more has been
taken. -/
theorem sections_segregated {host : Host} (housed : host.Housed) (object : Object) :
    (∀ placements, (placeAll object { host }).2 = .ok placements →
      Segregated host object.sections placements (placeAll object { host }).1) ∧
    ∀ error, (placeAll object { host }).2 = .error error →
      ∃ done failing rest placements, object.sections = done ++ failing :: rest ∧
        Segregated host done placements (placeAll object { host }).1 ∧
        failing.isAllocated = true ∧ failing.size ≠ 0 ∧
        Refused (placeAll object { host }).1.host.arena failing error := by
  rcases outcome : placeAll object { host } with ⟨after, result⟩
  constructor
  · rintro placements rfl
    exact segregated_of_mapList housed outcome
  · rintro error rfl
    exact refused_of_placeAll housed outcome

set_option maxRecDepth 4096 in
/-- Code, zeros that are shared and zeros that are not, beside a module that was loaded before. -/
theorem sections_segregated_mixed :
    ∃ host object placements, Host.create {} ⟨[]⟩ (.filled 0) 0 = .ok host ∧
      Object.ofImage Object.mixed = .ok object ∧
      let loaded := Session.performAll { host } [.load "self" (Object.selfPointing 1)]
      loaded.host.registry.entries.length = 1 ∧
      (placeAll object { host := loaded.host }).2 = .ok placements ∧
      placements = [.unplaced, .unplaced, ⟨0xffffffffa0000000, 8, .text⟩, ⟨0, 8, .zeroPage⟩,
        ⟨0xffffffffa8001000, 5000, .data⟩, .unplaced] ∧
      Segregated loaded.host object.sections placements
        (placeAll object { host := loaded.host }).1 := by
  have ran : (Host.create {} ⟨[]⟩ (.filled 0) 0).toOption.bind (fun host =>
      (Object.ofImage Object.mixed).toOption.bind fun object =>
        let loaded := Session.performAll { host } [.load "self" (Object.selfPointing 1)]
        (placeAll object { host := loaded.host }).2.toOption.map fun placements =>
          (loaded.host.registry.entries.length, placements,
            decide (loaded.host.zeroPage % pageSize = 0),
            decide (loaded.host.zeroPage + pageSize ≤ loaded.host.arena.text.base),
            decide (loaded.host.zeroPage + pageSize ≤ loaded.host.arena.data.base))) =
      some (1, [.unplaced, .unplaced, ⟨0xffffffffa0000000, 8, .text⟩, ⟨0, 8, .zeroPage⟩,
        ⟨0xffffffffa8001000, 5000, .data⟩, .unplaced], true, true, true) := by
    decide +kernel
  rcases Option.bind_eq_some_iff.mp ran with ⟨host, found, ran⟩
  rcases Option.bind_eq_some_iff.mp ran with ⟨object, parsed, ran⟩
  rcases Option.map_eq_some_iff.mp ran with ⟨placements, placed, outcome⟩
  simp only [Prod.mk.injEq, decide_eq_true_eq] at outcome
  rcases outcome with ⟨alone, places, aligned, text, data⟩
  have created := Host.create_of_toOption found
  have reachable : Session.Reachable _ :=
    .step (.start created) (.load "self" (Object.selfPointing 1))
  have housed := reachable.housed aligned fun kind => by
    cases kind
    · exact Or.inl text
    · exact Or.inl data
  have done := ok_of_toOption placed
  exact ⟨host, object, placements, created, ok_of_toOption parsed, alone, done, places,
    (sections_segregated housed object).1 placements done⟩

end Staging
end ModuleHost
