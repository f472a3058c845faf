import ModuleHost.Proofs.Heap.Space

namespace ModuleHost
namespace Heap

/-!
# What memory says about the blocks

The free cells of each class hang on a chain: the heap has the first place, every header
has the link to the next one, and the last link is zero.  The header of a granted block
is the one that its layout calls for.  These headers lie in free cells and granted
blocks, so they survive whatever is written apart from those.

A client relies on its bytes being kept.  The heap relies, when it is given an address
that it does not know, on no place having the word of a block in use unless there is one.
-/

/-- The places of the free cells of a class. -/
def placesOf (index : Fin 8) (free : List Cell) : List Address :=
  (free.filter fun cell => cell.index = index).map Cell.place

/-- The places are the chain of free cells that starts at an address. -/
def Threaded (memory : Memory) (index : Fin 8) : Address → List Address → Prop
  | first, [] => first = 0
  | first, place :: rest => first = place ∧ ∃ link,
      headerIn memory place = ⟨Tag.smallFree.magic, index, link⟩ ∧
        Threaded memory index link rest

/-- Memory has the chains that start at the heads, and the headers of granted blocks. -/
structure Marks (memory : Memory) (heads : Fin 8 → Address) (free : List Cell)
    (grants : List Grant) : Prop where
  chains : ∀ index, Threaded memory index (heads index) (placesOf index free)
  headers : ∀ grant ∈ grants, headerIn memory grant.place = grant.layout.header

/-- The bytes of the grants are kept. -/
def PayloadsKept (grants : List Grant) (before after : Memory) : Prop :=
  ∀ grant ∈ grants, after.read grant.address grant.layout.size =
    before.read grant.address grant.layout.size

/-- Every aligned place of the region that looks used is that of a grant. -/
def Unforged (memory : Memory) (bounds : Range) (grants : List Grant) : Prop :=
  ∀ place, place % 16 = 0 → Range.Within (headerRange place) bounds → UsedWordAt memory place →
    ∃ grant ∈ grants, grant.place = place

/-- What a change of memory does to clients: the bytes of those in `live` are kept, and the
grants `held'` take the place of `held` as those whose headers look used. -/
structure Effect (bounds : Range) (live held held' : List Grant) (before after : Memory) :
    Prop where
  payloads : PayloadsKept live before after
  unforged : Unforged before bounds held → Unforged after bounds held'

variable {Pages : Type} [PageSource Pages] [LawfulPageSource Pages]
variable {pages : Pages} {bounds : Range} {loans : List Range} {chunks : List Chunk}
variable {free rest : List Cell} {grants grants' : List Grant} {cell : Cell} {grant : Grant}
variable {memory before after : Memory} {heads heads' : Fin 8 → Address} {index : Fin 8}

/-! ## Chains -/

theorem placesOf_cons_self (index : Fin 8) (place : Address) (free : List Cell) :
    placesOf index (⟨index, place⟩ :: free) = place :: placesOf index free := by
  simp [placesOf]

theorem placesOf_cons_of_ne {other : Fin 8} (different : other ≠ cell.index)
    (free : List Cell) : placesOf other (cell :: free) = placesOf other free := by
  simp [placesOf, Ne.symm different]

theorem mem_placesOf {place : Address} : place ∈ placesOf index free ↔ ⟨index, place⟩ ∈ free := by
  constructor
  · intro listed
    rcases List.mem_map.mp listed with ⟨cell, filtered, rfl⟩
    rcases List.mem_filter.mp filtered with ⟨member, same⟩
    exact of_decide_eq_true same ▸ member
  · intro listed
    exact List.mem_map_of_mem (List.mem_filter.mpr ⟨listed, decide_eq_true rfl⟩)

/-- The first place of a class belongs to a free cell; without it the other classes are as
before. -/
theorem exists_of_placesOf {place : Address} {places : List Address}
    (listed : placesOf index free = place :: places) :
    ∃ rest, free.Perm (⟨index, place⟩ :: rest) ∧ placesOf index rest = places ∧
      ∀ other, other ≠ index → placesOf other rest = placesOf other free := by
  rcases List.map_eq_cons_iff.mp listed with ⟨cell, cells, filtered, rfl, rfl⟩
  rcases List.filter_eq_cons_iff.mp filtered with ⟨front, back, rfl, none, same, rfl⟩
  have same : cell.index = index := of_decide_eq_true same
  subst same
  refine ⟨front ++ back, List.perm_middle, ?_, fun other different => ?_⟩
  · rw [placesOf, List.filter_append, List.filter_eq_nil_iff.mpr none, List.nil_append]
  · simp [placesOf, List.filter_append, Ne.symm different]

theorem Threaded.congr {first : Address} {places : List Address}
    (threaded : Threaded before index first places)
    (same : ∀ place ∈ places, headerIn after place = headerIn before place) :
    Threaded after index first places := by
  induction places generalizing first with
  | nil => exact threaded
  | cons place places ih =>
      rcases threaded with ⟨rfl, link, header, later⟩
      refine ⟨rfl, link, ?_,
        ih later fun other listed => same other (List.mem_cons_of_mem _ listed)⟩
      rw [same first List.mem_cons_self, header]

/-- A chain starts at zero or at one of its places. -/
theorem Threaded.first_eq {first : Address} {places : List Address}
    (threaded : Threaded memory index first places) : first = 0 ∨ first ∈ places := by
  cases places with
  | nil => exact .inl threaded
  | cons place rest => exact .inr (threaded.1 ▸ List.mem_cons_self)

namespace Marks

theorem perm (marks : Marks memory heads free grants) (same : grants.Perm grants') :
    Marks memory heads free grants' where
  chains := marks.chains
  headers grant listed := marks.headers grant (same.mem_iff.mpr listed)

/-- Headers that are as before say what they said. -/
theorem frame (marks : Marks before heads free grants)
    (cells : ∀ cell ∈ free, headerIn after cell.place = headerIn before cell.place)
    (granted : ∀ grant ∈ grants, headerIn after grant.place = headerIn before grant.place) :
    Marks after heads free grants where
  chains index := (marks.chains index).congr fun place listed => by
    rcases List.mem_map.mp listed with ⟨cell, filtered, rfl⟩
    exact cells cell (List.mem_of_mem_filter filtered)
  headers grant listed := (granted grant listed).trans (marks.headers grant listed)

/-- A free cell that leads to the old head of its class is the new one. -/
theorem push (marks : Marks memory heads free grants) {place : Address}
    (header : headerIn memory place = ⟨Tag.smallFree.magic, index, heads index⟩)
    (head : heads' index = place) (others : ∀ other, other ≠ index → heads' other = heads other) :
    Marks memory heads' (⟨index, place⟩ :: free) grants where
  chains other := by
    by_cases same : other = index
    · rw [same, head, placesOf_cons_self]
      exact ⟨rfl, heads index, header, marks.chains index⟩
    · rw [others other same, placesOf_cons_of_ne same]
      exact marks.chains other
  headers := marks.headers

/-- The head of a class gives way to the place that it leads to. -/
theorem pop (marks : Marks memory heads free grants) {link : Address}
    {places : List Address} (threaded : Threaded memory index link places)
    (rest_eq : placesOf index rest = places)
    (others_eq : ∀ other, other ≠ index → placesOf other rest = placesOf other free)
    (head : heads' index = link) (others : ∀ other, other ≠ index → heads' other = heads other) :
    Marks memory heads' rest grants where
  chains other := by
    by_cases same : other = index
    · rw [same, head, rest_eq]
      exact threaded
    · rw [others other same, others_eq other same]
      exact marks.chains other
  headers := marks.headers

theorem add (marks : Marks memory heads free grants)
    (header : headerIn memory grant.place = grant.layout.header) :
    Marks memory heads free (grant :: grants) where
  chains := marks.chains
  headers := List.forall_mem_cons.mpr ⟨header, marks.headers⟩

theorem drop (marks : Marks memory heads free (grant :: grants)) :
    Marks memory heads free grants where
  chains := marks.chains
  headers := (List.forall_mem_cons.mp marks.headers).2

end Marks

/-! ## Frames -/

namespace Space

variable {ranges : List Range}

/-- No place is twice among those of a class. -/
theorem nodup_placesOf (space : Space pages bounds loans chunks free grants) (index : Fin 8) :
    (placesOf index free).Nodup := by
  have apart := List.pairwise_map.mp (List.pairwise_append.mp space.apart).1
  refine List.pairwise_map.mpr ((apart.filter _).imp fun {cell other} apart same => ?_)
  have long := (stride_whole cell.index).2
  have long' := (stride_whole other.index).2
  simp only [Range.Apart, Cell.range, same] at apart
  lia

/-- What is written apart from free cells and granted blocks leaves all headers alone. -/
theorem frame (space : Space pages bounds loans chunks free grants)
    (marks : Marks before heads free grants) (changes : Memory.ChangesIn ranges before after)
    (apart : ∀ range ∈ ranges, ∀ unit ∈ units free grants, Range.Apart range unit) :
    Marks after heads free grants := by
  refine marks.frame (fun cell listed => ?_) fun grant listed => ?_
  · refine headerIn_of_changesIn changes fun range changed => ?_
    exact (apart range changed _ (cell_mem_units listed)).symm.mono cell.headerRange_within
      (.refl _)
  · refine headerIn_of_changesIn changes fun range changed => ?_
    exact (apart range changed _ (extent_mem_units listed)).symm.mono
      (Grant.headerRange_within (space.seated grant listed)) (.refl _)

theorem frame_header (space : Space pages bounds loans chunks free grants)
    (marks : Marks memory heads free grants) {place : Address} (header : BlockHeader)
    (apart : ∀ unit ∈ units free grants, Range.Apart (headerRange place) unit) :
    Marks (memory.write place header.encode) heads free grants :=
  space.frame marks (changesIn_header memory place header) (List.forall_mem_singleton.mpr apart)

theorem frame_nodes (space : Space pages bounds loans chunks free grants)
    (marks : Marks before heads free grants) {places : List Address}
    (writes : NodeWrites places before after)
    (apart : ∀ place ∈ places, ∀ unit ∈ units free grants, Range.Apart (nodeRange place) unit) :
    Marks after heads free grants :=
  space.frame marks writes.changesIn (List.forall_mem_map.mpr apart)

/-- What is apart from free cells and granted blocks is apart from the bytes of clients. -/
theorem payload_apart (space : Space pages bounds loans chunks free grants) {range : Range}
    (apart : ∀ unit ∈ units free grants, Range.Apart range unit) :
    ∀ grant ∈ grants, Range.Apart grant.payload range :=
  fun grant listed => (apart _ (extent_mem_units listed)).symm.mono
    (Grant.payload_within (space.seated grant listed)) (.refl _)

end Space

/-! ## Effects on clients -/

theorem PayloadsKept.of_changesIn {ranges : List Range}
    (changes : Memory.ChangesIn ranges before after)
    (apart : ∀ range ∈ ranges, ∀ grant ∈ grants, Range.Apart grant.payload range) :
    PayloadsKept grants before after :=
  fun grant listed => changes.read_eq fun range changed => apart range changed grant listed

namespace Effect

variable {live held held' held'' : List Grant}

theorem refl (bounds : Range) (live held : List Grant) (memory : Memory) :
    Effect bounds live held held memory memory :=
  ⟨fun _ _ => rfl, id⟩

theorem trans {middle : Memory} (effect : Effect bounds live held held' before middle)
    (effect' : Effect bounds live held' held'' middle after) :
    Effect bounds live held held'' before after :=
  ⟨fun grant listed => (effect'.payloads grant listed).trans (effect.payloads grant listed),
    effect'.unforged ∘ effect.unforged⟩

theorem mono {live₂ held₂ held₂' : List Grant} (effect : Effect bounds live held held' before after)
    (less : live₂ ⊆ live) (fewer : held₂ ⊆ held) (more : held' ⊆ held₂') :
    Effect bounds live₂ held₂ held₂' before after where
  payloads grant listed := effect.payloads grant (less listed)
  unforged unforged place aligned within used := by
    have wider : Unforged before bounds held := fun place aligned within used =>
      (unforged place aligned within used).imp fun _ found => ⟨fewer found.1, found.2⟩
    exact (effect.unforged wider place aligned within used).imp fun _ found =>
      ⟨more found.1, found.2⟩

/-- Nodes are written apart from the bytes of clients, and they never look used. -/
theorem nodes {places : List Address} (writes : NodeWrites places before after)
    (apart : ∀ place ∈ places, ∀ grant ∈ live, Range.Apart grant.payload (nodeRange place))
    (aligned : ∀ place ∈ places, place % 16 = 0) : Effect bounds live held held before after where
  payloads := .of_changesIn writes.changesIn (List.forall_mem_map.mpr apart)
  unforged unforged place aligned' within used :=
    unforged place aligned' within (writes.usedWordAt aligned aligned' used)

/-- A header that is written decides about its own place only. -/
theorem header {place : Address} {header : BlockHeader} (aligned : place % 16 = 0)
    (fits : header.Fits) (apart : ∀ grant ∈ live, Range.Apart grant.payload (headerRange place))
    (others : ∀ grant ∈ held, grant.place ≠ place → grant ∈ held')
    (here : header.tag? = some .smallUsed ∨ header.tag? = some .largeUsed →
      ∃ grant ∈ held', grant.place = place) :
    Effect bounds live held held' before (before.write place header.encode) where
  payloads := .of_changesIn (changesIn_header before place header)
    (List.forall_mem_singleton.mpr apart)
  unforged unforged other aligned' within used := by
    by_cases same : other = place
    · subst same
      exact here ((usedWordAt_write_self fits).mp used)
    · have earlier := used.of_write (BlockHeader.length_encode header) aligned' aligned same
      rcases unforged other aligned' within earlier with ⟨grant, listed, rfl⟩
      exact ⟨grant, others grant listed same, rfl⟩

end Effect

end Heap
end ModuleHost
