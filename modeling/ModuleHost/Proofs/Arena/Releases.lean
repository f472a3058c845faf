import ModuleHost.Proofs.Memory

namespace ModuleHost

/-!
# How often an address has come back

The arena records what comes back.  An address on lease has not come back; when leases end,
each of their addresses comes back once and no other does.
-/

instance (range : Range) (address : Address) : Decidable (range.Has address) :=
  inferInstanceAs (Decidable (range.start ≤ address ∧ address < range.start + range.size))

namespace Arena

/-- How often an address has been released. -/
def timesReleased (arena : Arena) (address : Address) : Nat :=
  (arena.text.released ++ arena.data.released).countP fun range => range.Has address

variable {arena after : Arena} {leases : List Lease} {lease : Lease} {address : Address}

theorem Sound.timesReleased_free (sound : arena.Sound) {range : Range}
    (freed : arena.free range = .ok after) (address : Address) :
    after.timesReleased address =
      arena.timesReleased address + if range.pages.Has address then 1 else 0 := by
  rcases sound.free_eq_ok_iff.mp freed with ⟨kind, _, _, rfl⟩
  cases kind <;>
    simp only [timesReleased, Arena.setWindow, window, Window.release, List.countP_append,
      List.countP_cons, decide_eq_true_eq] <;> omega

/-- What is on lease has not come back. -/
theorem Leased.timesReleased_eq_zero (leased : arena.Leased leases) (listed : lease ∈ leases)
    (inside : lease.pages.Has address) : arena.timesReleased address = 0 := by
  have here := leased.inside lease listed
  have apart (kind : WindowKind) (range : Range)
      (released : range ∈ (arena.window kind).released) : Range.Apart lease.pages range := by
    by_cases same : lease.window = kind
    · exact here.unreleased range (same ▸ released)
    · have there := (leased.sound kind).released_inside range released
      exact leased.arena_sound.apart_of_ne same here.above
        (here.handed.within (leased.sound lease.window)) there.2.2.1
        (Nat.le_trans there.2.2.2 (Nat.add_le_add_left (leased.sound kind).cursor_le _))
  refine List.countP_eq_zero.mpr fun range released => ?_
  rw [decide_eq_true_eq]
  rcases List.mem_append.mp released with text | data
  · exact (apart .text range text).not_has inside
  · exact (apart .data range data).not_has inside

/-- Of leases that share no page, one at most has an address. -/
theorem countP_has_of_apart
    (apart : leases.Pairwise fun first second => Range.Apart first.pages second.pages)
    (listed : lease ∈ leases) (inside : lease.pages.Has address) :
    leases.countP (fun other => other.pages.Has address) = 1 := by
  rcases List.append_of_mem listed with ⟨front, back, rfl⟩
  rcases List.pairwise_append.mp apart with ⟨_, later, between⟩
  have earlier : front.countP (fun other => decide (other.pages.Has address)) = 0 :=
    List.countP_eq_zero.mpr fun other member => by
      rw [decide_eq_true_eq]
      exact (between other member lease List.mem_cons_self).symm.not_has inside
  have rest : back.countP (fun other => decide (other.pages.Has address)) = 0 :=
    List.countP_eq_zero.mpr fun other member => by
      rw [decide_eq_true_eq]
      exact ((List.pairwise_cons.mp later).1 other member).not_has inside
  rw [List.countP_append, List.countP_cons, earlier, rest, if_pos (decide_eq_true inside)]

end Arena
end ModuleHost
