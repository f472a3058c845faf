import Mathlib.Algebra.GroupWithZero.Nat
import Mathlib.Data.List.Perm.Basic
import ModuleHost.Heap.Holes
import ModuleHost.Proofs.Heap.PageSource
import ModuleHost.Proofs.Page

namespace ModuleHost
namespace Heap

/-!
# Passes over the holes

The free space changes by passes over the list of holes.  A request cuts a block out of
one hole and leaves the others alone.  What is taken back is put in its place, joined
with what it touches, and stretched over gaps at the ends of the region.  Joining and
stretching never move the start of a hole, and what holds of the holes before holds of
those after when it survives the joining of two holes.
-/

/-- The addresses of a hole. -/
def Hole.range (hole : Hole) : Range :=
  ⟨hole.start, hole.size⟩

/-- A hole with room for its node, at an aligned address. -/
structure Hole.Sound (hole : Hole) : Prop where
  aligned : hole.start % 16 = 0
  whole : hole.size % 8 = 0
  roomy : nodeSize ≤ hole.size

/-- The holes follow each other, and no two of them touch. -/
def Ordered (holes : List Hole) : Prop :=
  holes.Pairwise fun left right => left.stop < right.start

/-- The holes follow each other; neighbours may touch. -/
def WeaklyOrdered (holes : List Hole) : Prop :=
  holes.Pairwise fun left right => left.stop ≤ right.start

variable {hole : Hole} {holes after pieces : List Hole} {size bits : Nat} {start : Address}

/-! ## Cutting a block out of a hole -/

/-- A block lies in a hole, and the pieces are what remains of the hole. -/
structure Hole.Cut (hole : Hole) (block : Range) (pieces : List Hole) : Prop where
  above : hole.start ≤ block.start
  below : block.start + block.size ≤ hole.stop
  ordered : Ordered pieces
  sound : ∀ piece ∈ pieces, piece.Sound
  inside : ∀ piece ∈ pieces, hole.start ≤ piece.start ∧ piece.stop ≤ hole.stop
  apart : ∀ piece ∈ pieces, Range.Apart piece.range block
  starts : ∀ piece ∈ pieces, piece.start = hole.start ∨ piece.start = block.start + block.size

namespace Hole

theorem candidate?_eq_some (found : hole.candidate? (2 ^ bits) = some start) :
    start % 2 ^ bits = 0 ∧ (start = hole.start ∨ hole.start + nodeSize ≤ start) := by
  unfold candidate? at found
  split at found
  · next aligned =>
      rw [← Option.some.inj found]
      exact ⟨aligned, .inl rfl⟩
  · have rounded := roundUp?_eq_some found
    exact ⟨rounded.1, .inr rounded.2⟩

theorem carve?_eq_some {align : Nat} (carved : hole.carve? size align = some (start, pieces)) :
    hole.candidate? align = some start ∧
      (start + size = hole.stop ∧ pieces = hole.gapBefore start ∨
        start + size + nodeSize ≤ hole.stop ∧
          pieces = hole.gapBefore start ++ [⟨start + size, hole.stop - (start + size)⟩]) := by
  cases found : hole.candidate? align with
  | none => simp [carve?, found] at carved
  | some start' =>
      simp only [carve?, found, Option.bind_eq_bind, Option.bind_some] at carved
      split at carved
      · next full =>
          cases carved
          exact ⟨rfl, .inl ⟨full, rfl⟩⟩
      · split at carved
        · next fits =>
            cases carved
            exact ⟨rfl, .inr ⟨fits, rfl⟩⟩
        · cases carved

theorem mem_gapBefore {gap : Hole} :
    gap ∈ hole.gapBefore start ↔ start ≠ hole.start ∧ gap = ⟨hole.start, start - hole.start⟩ := by
  unfold gapBefore
  split
  · next same => simp [same]
  · next different => simp [different]

/-- A piece is the gap in front of the block or what lies behind it. -/
theorem mem_of_carve? {align : Nat} (carved : hole.carve? size align = some (start, pieces))
    {piece : Hole} (listed : piece ∈ pieces) :
    start ≠ hole.start ∧ piece = ⟨hole.start, start - hole.start⟩ ∨
      start + size + nodeSize ≤ hole.stop ∧ piece = ⟨start + size, hole.stop - (start + size)⟩ := by
  rcases (carve?_eq_some carved).2 with ⟨_, rfl⟩ | ⟨fits, rfl⟩
  · exact .inl (mem_gapBefore.mp listed)
  · rcases List.mem_append.mp listed with gap | behind
    · exact .inl (mem_gapBefore.mp gap)
    · exact .inr ⟨fits, List.mem_singleton.mp behind⟩

/-- The pieces follow each other with the block between them. -/
theorem ordered_of_carve? {align : Nat} (positive : 0 < size)
    (above : hole.start ≤ start) (carved : hole.carve? size align = some (start, pieces)) :
    Ordered pieces := by
  have gap : Ordered (hole.gapBefore start) := by
    unfold gapBefore
    split
    · exact List.Pairwise.nil
    · exact List.pairwise_singleton _ _
  rcases (carve?_eq_some carved).2 with ⟨_, rfl⟩ | ⟨_, rfl⟩
  · exact gap
  · refine List.pairwise_append.mpr ⟨gap, List.pairwise_singleton _ _, ?_⟩
    intro front listed behind listed'
    rcases mem_gapBefore.mp listed with ⟨_, rfl⟩
    rw [List.mem_singleton.mp listed']
    simp only [stop]
    lia

/-- What is carved out of a hole is an aligned block, and the rest are holes. -/
theorem cut_of_carve? (sound : hole.Sound) (positive : 0 < size) (whole : size % pageSize = 0)
    (wide : 12 ≤ bits) (carved : hole.carve? size (2 ^ bits) = some (start, pieces)) :
    start % 2 ^ bits = 0 ∧ hole.Cut ⟨start, size⟩ pieces := by
  rcases carve?_eq_some carved with ⟨found, rest⟩
  rcases candidate?_eq_some found with ⟨aligned, room⟩
  have page : start % pageSize = 0 :=
    Nat.mod_eq_zero_of_dvd
      (Nat.dvd_trans (Nat.pow_dvd_pow 2 wide) (Nat.dvd_of_mod_eq_zero aligned))
  have hole_aligned := sound.aligned
  have hole_whole := sound.whole
  have above : hole.start ≤ start := by lia
  have below : start + size ≤ hole.stop := by lia
  simp only [pageSize] at page whole
  simp only [nodeSize] at room
  refine ⟨aligned, above, below, ordered_of_carve? positive above carved, ?_, ?_, ?_, ?_⟩
  all_goals
    intro piece listed
    rcases mem_of_carve? carved listed with ⟨different, rfl⟩ | ⟨fits, rfl⟩
  · exact ⟨hole_aligned, by lia, by simp only [nodeSize]; lia⟩
  · simp only [stop, nodeSize] at fits ⊢
    exact ⟨by lia, by lia, by simp only [nodeSize]; lia⟩
  · simp only [stop] at below ⊢
    lia
  · simp only [stop] at below ⊢
    lia
  · simp only [range, Range.Apart]
    lia
  · simp only [range, Range.Apart]
    lia
  · exact .inl rfl
  · exact .inr rfl

end Hole

theorem firstFit?_eq_some {align : Nat} (given : firstFit? size align holes = some (start, after)) :
    ∃ front hole back pieces, holes = front ++ hole :: back ∧
      hole.carve? size align = some (start, pieces) ∧ after = front ++ (pieces ++ back) := by
  induction holes generalizing after with
  | nil => cases given
  | cons hole rest ih =>
      unfold firstFit? at given
      cases carved : hole.carve? size align with
      | some result =>
          rw [carved] at given
          cases given
          exact ⟨[], hole, rest, result.2, rfl, carved, rfl⟩
      | none =>
          rw [carved] at given
          cases later : firstFit? size align rest with
          | none =>
              rw [later] at given
              cases given
          | some result =>
              rw [later] at given
              cases given
              rcases ih later with ⟨front, found, back, pieces, rfl, carved, split⟩
              refine ⟨hole :: front, found, back, pieces, rfl, carved, ?_⟩
              rw [split]
              rfl

/-- Pieces take the place of the hole that they are cut from. -/
theorem Ordered.splice {front back : List Hole} (ordered : Ordered (front ++ hole :: back))
    (ordered' : Ordered pieces)
    (inside : ∀ piece ∈ pieces, hole.start ≤ piece.start ∧ piece.stop ≤ hole.stop) :
    Ordered (front ++ (pieces ++ back)) := by
  rcases List.pairwise_append.mp ordered with ⟨before, here, across⟩
  have behind := List.pairwise_cons.mp here
  refine List.pairwise_append.mpr ⟨before, List.pairwise_append.mpr ⟨ordered', behind.2, ?_⟩, ?_⟩
  · intro piece listed other listed'
    exact Nat.lt_of_le_of_lt (inside piece listed).2 (behind.1 other listed')
  · intro other listed piece listed'
    rcases List.mem_append.mp listed' with cut | later
    · exact Nat.lt_of_lt_of_le (across other listed hole List.mem_cons_self) (inside piece cut).1
    · exact across other listed piece (List.mem_cons_of_mem _ later)

/-! ## Putting a hole in its place -/

theorem insertHole_perm (hole : Hole) (holes : List Hole) :
    (insertHole hole holes).Perm (hole :: holes) := by
  induction holes with
  | nil => exact .refl _
  | cons next rest ih =>
      unfold insertHole
      split
      · exact .refl _
      · exact (ih.cons next).trans (.swap hole next rest)

/-- Inserting keeps the order when the hole has no address in common with the others. -/
theorem WeaklyOrdered.insert (ordered : WeaklyOrdered holes) (roomy : 0 < hole.size)
    (apart : ∀ other ∈ holes, Range.Apart other.range hole.range)
    (roomy' : ∀ other ∈ holes, 0 < other.size) : WeaklyOrdered (insertHole hole holes) := by
  induction holes with
  | nil => exact List.pairwise_singleton _ _
  | cons next rest ih =>
      have parts := List.pairwise_cons.mp ordered
      have beside := apart next List.mem_cons_self
      have positive := roomy' next List.mem_cons_self
      unfold insertHole
      simp only [Range.Apart, Hole.range] at beside
      split
      · next earlier =>
          refine List.pairwise_cons.mpr ⟨fun other listed => ?_, ordered⟩
          rcases List.mem_cons.mp listed with rfl | later
          · simp only [Hole.stop]
            lia
          · have far := parts.1 other later
            simp only [Hole.stop] at far ⊢
            lia
      · next later =>
          refine List.pairwise_cons.mpr ⟨fun other listed => ?_, ih parts.2
            (fun other listed => apart other (List.mem_cons_of_mem _ listed))
            fun other listed => roomy' other (List.mem_cons_of_mem _ listed)⟩
          rcases List.mem_cons.mp ((insertHole_perm hole rest).mem_iff.mp listed) with rfl | rest
          · simp only [Hole.stop]
            lia
          · exact parts.1 other rest

/-! ## Joining holes -/

/-- What survives the joining of two holes holds of all holes after joining. -/
theorem forall_coalesce {motive : Hole → Prop}
    (join : ∀ left right, motive left → motive right → left.stop = right.start →
      motive ⟨left.start, left.size + right.size⟩)
    (each : ∀ hole ∈ holes, motive hole) : ∀ hole ∈ coalesce holes, motive hole := by
  induction holes with
  | nil => exact fun _ listed => absurd listed List.not_mem_nil
  | cons first rest ih =>
      have here := each first List.mem_cons_self
      have later := ih fun hole listed => each hole (List.mem_cons_of_mem _ listed)
      show ∀ hole ∈ joinHole first (coalesce rest), motive hole
      cases joined : coalesce rest with
      | nil => simpa [joinHole] using here
      | cons next others =>
          rw [joined] at later
          have near := later next List.mem_cons_self
          have far := fun hole listed => later hole (List.mem_cons_of_mem next listed)
          rw [joinHole]
          split
          · next touching =>
              exact List.forall_mem_cons.mpr ⟨join first next here near touching, far⟩
          · exact List.forall_mem_cons.mpr ⟨here, later⟩

/-- Joining leaves only starts that were there. -/
theorem starts_coalesce (holes : List Hole) :
    ∀ joined ∈ coalesce holes, joined.start ∈ holes.map Hole.start :=
  forall_coalesce (motive := fun joined => joined.start ∈ holes.map Hole.start)
    (fun _ _ here _ _ => here) fun _ listed => List.mem_map_of_mem listed

/-- No two holes touch after joining. -/
theorem WeaklyOrdered.coalesce (ordered : WeaklyOrdered holes) : Ordered (coalesce holes) := by
  induction holes with
  | nil => exact List.Pairwise.nil
  | cons first rest ih =>
      have parts := List.pairwise_cons.mp ordered
      have later := ih parts.2
      have above : ∀ joined ∈ Heap.coalesce rest, first.stop ≤ joined.start := by
        intro joined listed
        rcases List.mem_map.mp (starts_coalesce rest joined listed) with ⟨other, listed', same⟩
        exact same ▸ parts.1 other listed'
      show Ordered (joinHole first (Heap.coalesce rest))
      cases joined : Heap.coalesce rest with
      | nil => exact List.pairwise_singleton _ _
      | cons next others =>
          rw [joined] at later above
          have split := List.pairwise_cons.mp later
          have near := above next List.mem_cons_self
          rw [joinHole]
          split
          · next touching =>
              refine List.pairwise_cons.mpr ⟨fun other listed => ?_, split.2⟩
              have far := split.1 other listed
              simp only [Hole.stop] at touching far ⊢
              lia
          · next loose =>
              refine List.pairwise_cons.mpr ⟨fun other listed => ?_, later⟩
              rcases List.mem_cons.mp listed with rfl | listed'
              · exact Nat.lt_of_le_of_ne near loose
              · have far := split.1 other listed'
                simp only [Hole.stop] at near far ⊢
                lia

/-! ## Stretching to the ends of the region -/

/-- Holes at aligned addresses leave no gap at the bottom that is too small for a node. -/
theorem stretchFirst_eq {bottom : Address} (aligned : bottom % 16 = 0)
    (each : ∀ hole ∈ holes, hole.start % 16 = 0 ∧ bottom ≤ hole.start) :
    stretchFirst bottom holes = holes := by
  cases holes with
  | nil => rfl
  | cons first rest =>
      have here := each first List.mem_cons_self
      rw [stretchFirst]
      split
      · next low =>
          have same : bottom = first.start := by
            simp only [nodeSize] at low
            lia
          rw [same, Hole.stop, Nat.add_sub_cancel_left]
      · rfl

theorem map_start_stretchLast (top : Address) (holes : List Hole) :
    (stretchLast top holes).map Hole.start = holes.map Hole.start := by
  fun_induction stretchLast top holes with
  | case1 => rfl
  | case2 => rfl
  | case3 => rfl
  | case4 hole next rest ih => exact congrArg (hole.start :: ·) ih

/-- What survives the stretching of one hole holds of all holes after stretching. -/
theorem forall_stretchLast {motive : Hole → Prop} {top : Address}
    (stretch : ∀ hole, motive hole → top < hole.stop + nodeSize →
      motive ⟨hole.start, max hole.stop top - hole.start⟩)
    (each : ∀ hole ∈ holes, motive hole) : ∀ hole ∈ stretchLast top holes, motive hole := by
  fun_induction stretchLast top holes with
  | case1 => exact each
  | case2 hole near =>
      intro stretched listed
      rw [List.mem_singleton.mp listed]
      exact stretch hole (each hole List.mem_cons_self) near
  | case3 => exact each
  | case4 hole next rest ih =>
      refine List.forall_mem_cons.mpr ⟨each hole List.mem_cons_self, ih ?_⟩
      exact fun other listed => each other (List.mem_cons_of_mem _ listed)

theorem Ordered.stretchLast (ordered : Ordered holes) (top : Address) :
    Ordered (stretchLast top holes) := by
  fun_induction Heap.stretchLast top holes with
  | case1 => exact ordered
  | case2 => exact List.pairwise_singleton _ _
  | case3 => exact ordered
  | case4 hole next rest ih =>
      have parts := List.pairwise_cons.mp ordered
      refine List.pairwise_cons.mpr ⟨fun other listed => ?_, ih parts.2⟩
      have start : other.start ∈ (next :: rest).map Hole.start := by
        rw [← map_start_stretchLast top]
        exact List.mem_map_of_mem listed
      rcases List.mem_map.mp start with ⟨before, listed', same⟩
      exact same ▸ parts.1 before listed'

/-! ## Writing nodes -/

theorem mem_of_mem_successions {node : Hole × Option Hole} (listed : node ∈ successions holes) :
    node.1 ∈ holes := by
  induction holes with
  | nil => cases listed
  | cons first rest ih =>
      rcases List.mem_cons.mp listed with rfl | later
      · exact List.mem_cons_self
      · exact List.mem_cons_of_mem _ (ih later)

theorem NodeWrites.writeNode {places : List Address} {before memory : Memory}
    (writes : NodeWrites places before memory) (listed : hole.start ∈ places)
    (whole : hole.size % 8 = 0) (next : Option Hole) :
    NodeWrites places before (writeNode memory hole next) :=
  writes.node listed whole

/-- A run of node writes at holes of the list. -/
theorem NodeWrites.foldl {places : List Address} {before memory : Memory}
    {items : List (Hole × Option Hole)} {next : Hole × Option Hole → Option Hole}
    (writes : NodeWrites places before memory)
    (each : ∀ item ∈ items, item.1.start ∈ places ∧ item.1.size % 8 = 0) :
    NodeWrites places before
      (items.foldl (fun memory item => Heap.writeNode memory item.1 (next item)) memory) := by
  induction items generalizing memory with
  | nil => exact writes
  | cons first rest ih =>
      have here := each first List.mem_cons_self
      exact ih (writes.writeNode here.1 here.2 _)
        fun item listed => each item (List.mem_cons_of_mem _ listed)

/-- Nodes are written only where holes start or started. -/
theorem nodeWrites_replaceNodes {places : List Address} {before memory : Memory}
    (writes : NodeWrites places before memory)
    (old : ∀ hole ∈ holes, hole.start ∈ places ∧ hole.size % 8 = 0)
    (new : ∀ hole ∈ after, hole.start ∈ places ∧ hole.size % 8 = 0) :
    NodeWrites places before (replaceNodes memory holes after) := by
  refine (writes.foldl fun item listed => ?_).foldl fun item listed => ?_
  · exact old item.1 (mem_of_mem_successions (List.mem_of_mem_filter listed))
  · exact new item.1 (mem_of_mem_successions (List.mem_of_mem_filter listed))

end Heap
end ModuleHost
