import ModuleHost.Proofs.Heap.Holes

namespace ModuleHost
namespace Heap

/-!
# The list of holes as a source of pages

`Region.Sound` accounts for a region: it is made of holes and of the blocks that have
been handed out, and none of these has an address in common with another.  Handing out
moves a block from a hole to the blocks, taking back returns it to the holes.  So the
region keeps the promises that the heap relies on.
-/

/-- A hole among blocks of a region. -/
structure Hole.Free (hole : Hole) (region : Range) (blocks : List Range) : Prop where
  sound : hole.Sound
  within : Range.Within hole.range region
  apart : ∀ block ∈ blocks, Range.Apart hole.range block

/-- A block of whole pages in a region. -/
structure Lent (block region : Range) : Prop where
  aligned : block.start % pageSize = 0
  whole : block.size % pageSize = 0
  positive : 0 < block.size
  within : Range.Within block region

namespace Region

/-- The addresses of the region. -/
def range (region : Region) : Range :=
  ⟨region.start, region.size⟩

/-- The region lies in the bounds, and it is made of its holes and of the blocks. -/
structure Sound (region : Region) (bounds : Range) (blocks : List Range) : Prop where
  within : Range.Within region.range bounds
  aligned : region.start % 16 = 0
  whole : region.size % 8 = 0
  ordered : Ordered region.holes
  free : ∀ hole ∈ region.holes, hole.Free region.range blocks
  lent : ∀ block ∈ blocks, Lent block region.range
  apart : blocks.Pairwise Range.Apart
  used_eq : region.used = (blocks.map Range.size).sum

end Region

namespace Hole

variable {hole : Hole} {region block : Range} {blocks : List Range}

/-- Holes that follow each other have no address in common. -/
theorem apart_of_stop_le {left right : Hole} (follows : left.stop ≤ right.start) :
    Range.Apart left.range right.range :=
  .inl follows

theorem Sound.node_within (sound : hole.Sound) : Range.Within (nodeRange hole.start) hole.range :=
  ⟨Nat.le_refl _, Nat.add_le_add_left sound.roomy hole.start⟩

namespace Cut

variable {pieces : List Hole}

theorem block_within (cut : hole.Cut block pieces) : Range.Within block hole.range :=
  ⟨cut.above, cut.below⟩

theorem piece_within (cut : hole.Cut block pieces) {piece : Hole} (listed : piece ∈ pieces) :
    Range.Within piece.range hole.range :=
  cut.inside piece listed

/-- What is left behind a block starts at its end. -/
theorem starts_splice {front back : List Hole} (cut : hole.Cut block pieces) :
    (front ++ (pieces ++ back)).map start ⊆
      (block.start + block.size) :: (front ++ hole :: back).map start := by
  intro place listed
  simp only [List.map_append, List.map_cons, List.mem_append, List.mem_cons] at listed ⊢
  rcases listed with before | piece | behind
  · exact .inr (.inl before)
  · rcases List.mem_map.mp piece with ⟨cutOff, listed, rfl⟩
    exact (cut.starts cutOff listed).elim (fun same => .inr (.inr (.inl same))) .inl
  · exact .inr (.inr (.inr behind))

end Cut

namespace Free

theorem mono {blocks' : List Range} (free : hole.Free region blocks) (within : blocks' ⊆ blocks) :
    hole.Free region blocks' where
  sound := free.sound
  within := free.within
  apart block listed := free.apart block (within listed)

theorem cons (free : hole.Free region blocks) (apart : Range.Apart hole.range block) :
    hole.Free region (block :: blocks) where
  sound := free.sound
  within := free.within
  apart := List.forall_mem_cons.mpr ⟨apart, free.apart⟩

/-- The pieces of a hole are free of the block cut out of it. -/
theorem piece {pieces : List Hole} (free : hole.Free region blocks) (cut : hole.Cut block pieces)
    {piece : Hole} (listed : piece ∈ pieces) : piece.Free region (block :: blocks) where
  sound := cut.sound piece listed
  within := (cut.piece_within listed).trans free.within
  apart := List.forall_mem_cons.mpr ⟨cut.apart piece listed, fun other listed' =>
    (free.apart other listed').mono (cut.piece_within listed) (.refl _)⟩

/-- No block has room between holes that touch. -/
theorem join {left right : Hole} (lent : ∀ block ∈ blocks, Lent block region)
    (free : left.Free region blocks) (free' : right.Free region blocks)
    (touching : left.stop = right.start) :
    Hole.Free ⟨left.start, left.size + right.size⟩ region blocks := by
  have within := free.within
  have within' := free'.within
  simp only [stop, range, Range.Within] at touching within within'
  refine ⟨⟨free.sound.aligned, ?_, ?_⟩, ⟨within.1, ?_⟩, fun block listed => ?_⟩
  · rw [Nat.add_mod, free.sound.whole, free'.sound.whole]
  · exact Nat.le_trans free.sound.roomy (Nat.le_add_right _ _)
  · simp only [range]
    lia
  · have positive := (lent block listed).positive
    have before := free.apart block listed
    have behind := free'.apart block listed
    simp only [range, Range.Apart] at before behind ⊢
    lia

/-- No block has room between a hole and the top of the region when a node has none. -/
theorem stretch (lent : ∀ block ∈ blocks, Lent block region) (aligned : region.start % 16 = 0)
    (whole : region.size % 8 = 0) (free : hole.Free region blocks)
    (near : region.start + region.size < hole.stop + nodeSize) :
    Hole.Free ⟨hole.start, max hole.stop (region.start + region.size) - hole.start⟩
      region blocks := by
  have within := free.within
  have hole_aligned := free.sound.aligned
  have roomy := free.sound.roomy
  rw [show max hole.stop _ = _ from Nat.max_eq_right within.2]
  simp only [stop, nodeSize, range, Range.Within] at near roomy within
  refine ⟨⟨hole_aligned, ?_, ?_⟩, ⟨within.1, ?_⟩, fun block listed => ?_⟩
  · show (region.start + region.size - hole.start) % 8 = 0
    lia
  · show 16 ≤ region.start + region.size - hole.start
    lia
  · simp only [range]
    lia
  · have inside := lent block listed
    have whole := inside.whole
    have positive := inside.positive
    have below := inside.within.2
    have apart := free.apart block listed
    simp only [range, Range.Apart, pageSize] at apart whole ⊢
    lia

end Free
end Hole

namespace Region

variable {region after : Region} {bounds block : Range} {blocks : List Range}
variable {memory memory' : Memory} {start size bits : Nat}

theorem sound_ofRange (aligned : start % 16 = 0) (large : pageSize ≤ size) :
    (ofRange start size).Sound ⟨start, size⟩ [] := by
  have room := Nat.div_mul_le_self size 8
  simp only [pageSize] at large
  have free : Hole.Free ⟨start, size / 8 * 8⟩ ⟨start, size / 8 * 8⟩ [] := by
    refine ⟨⟨aligned, Nat.mul_mod_left _ _, ?_⟩, .refl _, ?_⟩
    · simp only [nodeSize]
      lia
    · exact fun _ listed => absurd listed List.not_mem_nil
  refine ⟨⟨Nat.le_refl _, Nat.add_le_add_left room start⟩, aligned, Nat.mul_mod_left _ _,
    List.pairwise_singleton _ _, ?_, ?_, List.Pairwise.nil, rfl⟩
  · exact List.forall_mem_singleton.mpr free
  · exact fun _ listed => absurd listed List.not_mem_nil

/-- The rest of the list when a block is cut out of one of its holes. -/
theorem free_of_cut {front back pieces : List Hole} {hole : Hole}
    (ordered : Ordered (front ++ hole :: back))
    (free : ∀ other ∈ front ++ hole :: back, other.Free region.range blocks)
    (cut : hole.Cut block pieces) :
    ∀ other ∈ front ++ (pieces ++ back), other.Free region.range (block :: blocks) := by
  rcases List.pairwise_append.mp ordered with ⟨_, here, across⟩
  have behind := List.pairwise_cons.mp here
  have within := cut.block_within
  intro other listed
  rcases List.mem_append.mp listed with before | later
  · have follows := Nat.le_of_lt (across other before hole List.mem_cons_self)
    refine (free other (List.mem_append_left _ before)).cons ?_
    exact (Hole.apart_of_stop_le follows).mono (.refl _) within
  · rcases List.mem_append.mp later with piece | later
    · exact (free hole (List.mem_append_right _ List.mem_cons_self)).piece cut piece
    · have follows := Nat.le_of_lt (behind.1 other later)
      refine (free other (List.mem_append_right _ (List.mem_cons_of_mem _ later))).cons ?_
      exact (Hole.apart_of_stop_le follows).symm.mono (.refl _) within

/-- Handing out cuts a block out of a hole. -/
theorem Sound.allocate (sound : region.Sound bounds blocks) (positive : 0 < size)
    (whole : size % pageSize = 0) (wide : 12 ≤ bits)
    (given : region.allocate? memory size (2 ^ bits) = some (start, after, memory')) :
    start % 2 ^ bits = 0 ∧ after.Sound bounds (⟨start, size⟩ :: blocks) ∧
      after.holes.map Hole.start ⊆ (start + size) :: region.holes.map Hole.start ∧
      memory' = replaceNodes memory region.holes after.holes := by
  unfold allocate? at given
  cases fits : firstFit? size (2 ^ bits) region.holes with
  | none =>
      rw [fits] at given
      cases given
  | some result =>
      rw [fits] at given
      rcases result with ⟨start, holes⟩
      cases given
      rcases firstFit?_eq_some fits with ⟨front, hole, back, pieces, listed, carved, rfl⟩
      have ordered := sound.ordered
      have free := sound.free
      rw [listed] at ordered free
      have here := free hole (List.mem_append_right _ List.mem_cons_self)
      rcases Hole.cut_of_carve? here.sound positive whole wide carved with ⟨aligned, cut⟩
      have lent : Lent ⟨start, size⟩ region.range :=
        ⟨Nat.mod_eq_zero_of_dvd (Nat.dvd_trans (Nat.pow_dvd_pow 2 wide)
          (Nat.dvd_of_mod_eq_zero aligned)), whole, positive, cut.block_within.trans here.within⟩
      refine ⟨aligned, ⟨sound.within, sound.aligned, sound.whole,
        ordered.splice cut.ordered cut.inside, free_of_cut ordered free cut, ?_, ?_, ?_⟩, ?_, rfl⟩
      · exact List.forall_mem_cons.mpr ⟨lent, sound.lent⟩
      · refine List.pairwise_cons.mpr ⟨fun other listed' => ?_, sound.apart⟩
        exact (here.apart other listed').mono cut.block_within (.refl _)
      · show region.used + size = _
        rw [sound.used_eq, List.map_cons, List.sum_cons, Nat.add_comm]
      · rw [listed]
        exact cut.starts_splice

/-- What is taken back is a hole like the others. -/
theorem Sound.freed (sound : region.Sound bounds (block :: blocks)) :
    Hole.Free ⟨block.start, block.size⟩ region.range blocks := by
  have lent := sound.lent block List.mem_cons_self
  have aligned := lent.aligned
  have whole := lent.whole
  have positive := lent.positive
  simp only [pageSize] at aligned whole
  refine ⟨⟨?_, ?_, ?_⟩, lent.within, (List.pairwise_cons.mp sound.apart).1⟩
  · simp only []
    lia
  · simp only []
    lia
  · simp only [nodeSize]
    lia

/-- The holes with a block put back among them, before any are joined. -/
theorem Sound.inserted (sound : region.Sound bounds (block :: blocks)) :
    WeaklyOrdered (insertHole ⟨block.start, block.size⟩ region.holes) ∧
      ∀ hole ∈ insertHole ⟨block.start, block.size⟩ region.holes,
        hole.Free region.range blocks := by
  have ordered : WeaklyOrdered region.holes := sound.ordered.imp Nat.le_of_lt
  constructor
  · refine ordered.insert (sound.lent block List.mem_cons_self).positive ?_ ?_
    · exact fun other listed => (sound.free other listed).apart block List.mem_cons_self
    · exact fun other listed =>
        Nat.lt_of_lt_of_le (by decide) (sound.free other listed).sound.roomy
  · intro hole listed
    rcases List.mem_cons.mp ((insertHole_perm _ _).mem_iff.mp listed) with rfl | earlier
    · exact sound.freed
    · exact (sound.free hole earlier).mono (List.subset_cons_self _ _)

/-- Taking a block back makes a hole of it. -/
theorem Sound.release (sound : region.Sound bounds (block :: blocks))
    (released : region.release memory block.start block.size = (after, memory')) :
    after.Sound bounds blocks ∧
      after.holes.map Hole.start ⊆ block.start :: region.holes.map Hole.start ∧
      NodeWrites (block.start :: region.holes.map Hole.start) memory memory' := by
  have freed := sound.freed
  have lent : ∀ other ∈ blocks, Lent other region.range :=
    fun other listed => sound.lent other (List.mem_cons_of_mem _ listed)
  rcases sound.inserted with ⟨ordered, inserted⟩
  have joined := forall_coalesce (fun _ _ => Hole.Free.join lent) inserted
  have free : ∀ hole ∈ stretchLast region.stop (coalesce (insertHole ⟨block.start, block.size⟩
      region.holes)), hole.Free region.range blocks :=
    forall_stretchLast (fun _ => Hole.Free.stretch lent sound.aligned sound.whole) joined
  have starts : (stretchLast region.stop (coalesce (insertHole ⟨block.start, block.size⟩
      region.holes))).map Hole.start ⊆ block.start :: region.holes.map Hole.start := by
    rw [map_start_stretchLast]
    intro place listed
    rcases List.mem_map.mp listed with ⟨hole, listed', rfl⟩
    exact ((insertHole_perm _ _).map Hole.start).mem_iff.mp (starts_coalesce _ hole listed')
  have bottom : stretchFirst region.start (insertHole ⟨block.start, block.size⟩ region.holes) =
      insertHole ⟨block.start, block.size⟩ region.holes :=
    stretchFirst_eq sound.aligned fun hole listed =>
      ⟨(inserted hole listed).sound.aligned, (inserted hole listed).within.1⟩
  unfold Region.release at released
  simp only [Nat.max_eq_left freed.sound.roomy, bottom] at released
  cases released
  refine ⟨⟨sound.within, sound.aligned, sound.whole, ordered.coalesce.stretchLast _, free, lent,
    (List.pairwise_cons.mp sound.apart).2, ?_⟩, starts, ?_⟩
  · have used := sound.used_eq
    rw [List.map_cons, List.sum_cons] at used
    show region.used - block.size = _
    rw [used, Nat.add_sub_cancel_left]
  · refine nodeWrites_replaceNodes ?_ (fun hole listed => ?_) fun hole listed => ?_
    · exact NodeWrites.writeNode .none List.mem_cons_self freed.sound.whole none
    · exact ⟨List.mem_cons_of_mem _ (List.mem_map_of_mem listed),
        (sound.free hole listed).sound.whole⟩
    · exact ⟨starts (List.mem_map_of_mem listed), (free hole listed).sound.whole⟩

end Region

/-- The list of holes keeps the promises of a source of pages. -/
instance : LawfulPageSource Region where
  Accounts := Region.Sound
  nodes region := region.holes.map Hole.start
  perm same sound := ⟨sound.within, sound.aligned, sound.whole, sound.ordered,
    fun hole listed => (sound.free hole listed).mono same.symm.subset,
    fun block listed => sound.lent block (same.mem_iff.mpr listed),
    same.pairwise sound.apart Range.Apart.symm,
    sound.used_eq.trans (same.map Range.size).sum_nat⟩
  within sound _ listed := (sound.lent _ listed).within.trans sound.within
  apart sound := sound.apart
  node_within sound _ listed := by
    rcases List.mem_map.mp listed with ⟨hole, listed', rfl⟩
    have free := sound.free hole listed'
    exact free.sound.node_within.trans (free.within.trans sound.within)
  node_apart sound _ listed _ listed' := by
    rcases List.mem_map.mp listed with ⟨hole, member, rfl⟩
    have free := sound.free hole member
    exact (free.apart _ listed').mono free.sound.node_within (.refl _)
  used_eq sound := sound.used_eq
  manage aligned large _ managed := by
    cases managed
    refine ⟨Region.sound_ofRange aligned large, fun _ listed => listed, ?_⟩
    refine nodeWrites_replaceNodes .none (fun _ listed => absurd listed List.not_mem_nil) ?_
    exact List.forall_mem_singleton.mpr ⟨List.mem_cons_self, Nat.mul_mod_left _ _⟩
  allocate sound positive whole wide given := by
    rcases sound.allocate positive whole wide given with ⟨aligned, sound', starts, rfl⟩
    refine ⟨aligned, sound', starts, nodeWrites_replaceNodes .none ?_ ?_⟩
    · exact fun hole listed => ⟨List.mem_append_left _ (List.mem_map_of_mem listed),
        (sound.free hole listed).sound.whole⟩
    · exact fun hole listed => ⟨List.mem_append_right _ (List.mem_map_of_mem listed),
        (sound'.free hole listed).sound.whole⟩
  release sound released := sound.release released

end Heap
end ModuleHost
