import Mathlib.Data.List.Perm.Basic
import ModuleHost.Proofs.Heap.Blocks

namespace ModuleHost
namespace Heap

/-!
# How the region is divided

The blocks that the heap has from its source of pages are chunks of cells, blocks of
large grants, and at times a loan that is neither yet.  The free cells and the granted
blocks are parts of these, and none of them has an address in common with another.
`Space` says so without a word about what memory holds; each step of the heap moves a
block from one list to another.
-/

open LawfulPageSource (Accounts nodes)

/-- The blocks of pages in chunks and in large grants. -/
def backing (chunks : List Chunk) (grants : List Grant) : List Range :=
  chunks.map Chunk.range ++ (grants.filter Grant.isLarge).map Grant.extent

/-- The free cells and the granted blocks. -/
def units (free : List Cell) (grants : List Grant) : List Range :=
  free.map Cell.range ++ grants.map Grant.extent

variable {Pages : Type} [PageSource Pages] [LawfulPageSource Pages]

/-- The bounds are divided among loans, chunks and grants, and the chunks among cells. -/
structure Space (pages : Pages) (bounds : Range) (loans : List Range) (chunks : List Chunk)
    (free : List Cell) (grants : List Grant) : Prop where
  aligned : bounds.start % 16 = 0
  bounded : bounds.start + bounds.size < addressLimit
  accounts : Accounts pages bounds (loans ++ backing chunks grants)
  paged : ∀ place ∈ nodes pages, place = bounds.start ∨ place % pageSize = 0
  housed : ∀ cell ∈ free, cell.Housed chunks
  seated : ∀ grant ∈ grants, grant.Seated chunks
  apart : (units free grants).Pairwise Range.Apart

variable {pages pages' : Pages} {bounds block : Range} {loans : List Range} {chunks : List Chunk}
variable {free rest : List Cell} {grants : List Grant} {cell : Cell} {grant : Grant} {index : Fin 8}

theorem Cell.Housed.cons (housed : cell.Housed chunks) (chunk : Chunk) :
    cell.Housed (chunk :: chunks) := by
  rcases housed with ⟨aligned, home, listed, same, within⟩
  exact ⟨aligned, home, List.mem_cons_of_mem _ listed, same, within⟩

theorem Grant.Seated.cons (seated : grant.Seated chunks) (chunk : Chunk) :
    grant.Seated (chunk :: chunks) where
  aligned := seated.aligned
  aligned' := seated.aligned'
  above := seated.above
  room := seated.room
  housed index served := (seated.housed index served).cons chunk
  paged := seated.paged

theorem units_cons_grant (grant : Grant) (free : List Cell) (grants : List Grant) :
    (units free (grant :: grants)).Perm (grant.extent :: units free grants) :=
  List.perm_middle

theorem units_perm {grants' : List Grant} (same : free.Perm rest) (same' : grants.Perm grants') :
    (units free grants).Perm (units rest grants') :=
  (same.map _).append (same'.map _)

theorem cell_mem_units (listed : cell ∈ free) : cell.range ∈ units free grants :=
  List.mem_append_left _ (List.mem_map_of_mem listed)

theorem extent_mem_units (listed : grant ∈ grants) : grant.extent ∈ units free grants :=
  List.mem_append_right _ (List.mem_map_of_mem listed)

theorem backing_cons_small (served : grant.layout.class? = some index) :
    backing chunks (grant :: grants) = backing chunks grants := by
  rw [backing, List.filter_cons_of_neg (by simp [Grant.isLarge, served]), ← backing]

theorem backing_cons_large (served : grant.layout.class? = none) :
    (backing chunks (grant :: grants)).Perm (grant.extent :: backing chunks grants) := by
  rw [backing, List.filter_cons_of_pos (by simp [Grant.isLarge, served]), List.map_cons]
  exact List.perm_middle

namespace Space

/-! ## Consequences -/

/-- Free cells and granted blocks are parts of the blocks of pages. -/
theorem unit_within (space : Space pages bounds loans chunks free grants) {unit : Range}
    (listed : unit ∈ units free grants) :
    ∃ block ∈ backing chunks grants, Range.Within unit block := by
  have inChunk : ∀ cell : Cell, cell.Housed chunks →
      ∃ block ∈ backing chunks grants, Range.Within cell.range block := by
    rintro cell ⟨_, chunk, listed, _, within⟩
    exact ⟨chunk.range, List.mem_append_left _ (List.mem_map_of_mem listed), within⟩
  rcases List.mem_append.mp listed with kept | granted
  · rcases List.mem_map.mp kept with ⟨cell, member, rfl⟩
    exact inChunk cell (space.housed cell member)
  · rcases List.mem_map.mp granted with ⟨grant, member, rfl⟩
    cases served : grant.layout.class? with
    | some index =>
        rw [Grant.extent_small served]
        exact inChunk _ ((space.seated grant member).housed index served)
    | none =>
        refine ⟨grant.extent, List.mem_append_right _ (List.mem_map_of_mem ?_), .refl _⟩
        exact List.mem_filter.mpr ⟨member, by simp [Grant.isLarge, served]⟩

theorem unit_within_bounds (space : Space pages bounds loans chunks free grants) {unit : Range}
    (listed : unit ∈ units free grants) : Range.Within unit bounds := by
  rcases space.unit_within listed with ⟨block, listed', within⟩
  exact within.trans (LawfulPageSource.within space.accounts (List.mem_append_right _ listed'))

theorem node_aligned (space : Space pages bounds loans chunks free grants) {place : Address}
    (listed : place ∈ nodes pages) : place % 16 = 0 := by
  have aligned := space.aligned
  rcases space.paged place listed with same | paged
  · rw [same, aligned]
  · simp only [pageSize] at paged
    lia

/-- The nodes of holes are apart from free cells and granted blocks. -/
theorem node_apart (space : Space pages bounds loans chunks free grants) {place : Address}
    (listed : place ∈ nodes pages) {unit : Range} (listed' : unit ∈ units free grants) :
    Range.Apart (nodeRange place) unit := by
  rcases space.unit_within listed' with ⟨block, held, within⟩
  have apart := LawfulPageSource.node_apart space.accounts listed (List.mem_append_right _ held)
  exact apart.mono (.refl _) within

/-- A loan is apart from free cells and granted blocks. -/
theorem loan_apart (space : Space pages bounds loans chunks free grants) {loan : Range}
    (listed : loan ∈ loans) {unit : Range} (listed' : unit ∈ units free grants) :
    Range.Apart loan unit := by
  rcases space.unit_within listed' with ⟨block, held, within⟩
  have apart := List.pairwise_append.mp (LawfulPageSource.apart space.accounts)
  exact (apart.2.2 loan listed block held).mono (.refl _) within

/-- The blocks of different grants have no address in common. -/
theorem extents_apart (space : Space pages bounds loans chunks free grants) :
    grants.Pairwise fun grant other => Range.Apart grant.extent other.extent :=
  List.pairwise_map.mp (List.pairwise_append.mp space.apart).2.1

/-- No two grants have the same address. -/
theorem address_ne (space : Space pages bounds loans chunks free (grant :: grants)) :
    ∀ other ∈ grants, other.address ≠ grant.address := by
  intro other listed same
  have seated := (List.forall_mem_cons.mp space.seated).1
  have apart := ((List.pairwise_cons.mp space.extents_apart).1 other listed).mono
    (Grant.headerRange_within seated)
    (Grant.headerRange_within (space.seated other (List.mem_cons_of_mem _ listed)))
  rw [Grant.place, Grant.place, same] at apart
  simp only [Range.Apart, headerRange, BlockHeader.size] at apart
  lia

theorem perm {grants' : List Grant} (space : Space pages bounds loans chunks free grants)
    (same : free.Perm rest) (same' : grants.Perm grants') :
    Space pages bounds loans chunks rest grants' where
  aligned := space.aligned
  bounded := space.bounded
  accounts := LawfulPageSource.perm
    (((same'.filter _).map _).append_left _ |>.append_left _) space.accounts
  paged := space.paged
  housed cell listed := space.housed cell (same.mem_iff.mpr listed)
  seated grant listed := space.seated grant (same'.mem_iff.mpr listed)
  apart := (units_perm same same').pairwise space.apart Range.Apart.symm

/-! ## Moving blocks -/

/-- A block from the source is a loan first. -/
theorem lend (space : Space pages bounds [] chunks free grants) {memory after : Memory}
    {size bits : Nat} {start : Address} (positive : 0 < size) (whole : size % pageSize = 0)
    (wide : 12 ≤ bits)
    (given : PageSource.allocate? pages memory size (2 ^ bits) = some (start, pages', after)) :
    start % 2 ^ bits = 0 ∧ Space pages' bounds [⟨start, size⟩] chunks free grants ∧
      NodeWrites (nodes pages ++ nodes pages') memory after := by
  rcases LawfulPageSource.allocate space.accounts positive whole wide given with
    ⟨aligned, accounts, starts, writes⟩
  have paged : start % pageSize = 0 :=
    Nat.mod_eq_zero_of_dvd (Nat.dvd_trans (Nat.pow_dvd_pow 2 wide)
      (Nat.dvd_of_mod_eq_zero aligned))
  refine ⟨aligned, ⟨space.aligned, space.bounded, accounts, fun place listed => ?_, space.housed,
    space.seated, space.apart⟩, writes⟩
  rcases List.mem_cons.mp (starts listed) with rfl | earlier
  · right
    rw [Nat.add_mod, paged, whole]
    rfl
  · exact space.paged place earlier

/-- A loan goes back to the source. -/
theorem release (space : Space pages bounds [block] chunks free grants) {memory after : Memory}
    (paged : block.start % pageSize = 0)
    (released : PageSource.release pages memory block.start block.size = (pages', after)) :
    Space pages' bounds [] chunks free grants ∧
      NodeWrites (block.start :: nodes pages) memory after := by
  rcases LawfulPageSource.release space.accounts released with ⟨accounts, starts, writes⟩
  refine ⟨⟨space.aligned, space.bounded, accounts, fun place listed => ?_, space.housed,
    space.seated, space.apart⟩, writes⟩
  rcases List.mem_cons.mp (starts listed) with rfl | earlier
  · exact .inr paged
  · exact space.paged place earlier

/-- A loan becomes a chunk. -/
theorem adopt (space : Space pages bounds [block] chunks free grants) (index : Fin 8) :
    Space pages bounds [] (⟨index, block⟩ :: chunks) free grants where
  aligned := space.aligned
  bounded := space.bounded
  accounts := space.accounts
  paged := space.paged
  housed cell listed := (space.housed cell listed).cons _
  seated grant listed := (space.seated grant listed).cons _
  apart := space.apart

/-- A loan becomes a large grant. -/
theorem grantLarge (space : Space pages bounds [grant.extent] chunks free grants)
    (served : grant.layout.class? = none) (seated : grant.Seated chunks) :
    Space pages bounds [] chunks free (grant :: grants) where
  aligned := space.aligned
  bounded := space.bounded
  accounts := LawfulPageSource.perm (backing_cons_large served).symm space.accounts
  paged := space.paged
  housed := space.housed
  seated := List.forall_mem_cons.mpr ⟨seated, space.seated⟩
  apart := (units_cons_grant grant free grants).symm.pairwise (List.pairwise_cons.mpr
    ⟨fun _ listed => space.loan_apart List.mem_cons_self listed, space.apart⟩) Range.Apart.symm

/-- A large grant becomes a loan. -/
theorem endLarge (space : Space pages bounds [] chunks free (grant :: grants))
    (served : grant.layout.class? = none) :
    Space pages bounds [grant.extent] chunks free grants where
  aligned := space.aligned
  bounded := space.bounded
  accounts := LawfulPageSource.perm (backing_cons_large served) space.accounts
  paged := space.paged
  housed := space.housed
  seated := (List.forall_mem_cons.mp space.seated).2
  apart := (List.pairwise_cons.mp ((units_cons_grant grant free grants).pairwise space.apart
    Range.Apart.symm)).2

/-- A part of a chunk that nobody has becomes a free cell. -/
theorem push (space : Space pages bounds loans chunks free grants) (housed : cell.Housed chunks)
    (apart : ∀ unit ∈ units free grants, Range.Apart cell.range unit) :
    Space pages bounds loans chunks (cell :: free) grants where
  aligned := space.aligned
  bounded := space.bounded
  accounts := space.accounts
  paged := space.paged
  housed := List.forall_mem_cons.mpr ⟨housed, space.housed⟩
  seated := space.seated
  apart := List.pairwise_cons.mpr ⟨apart, space.apart⟩

/-- A free cell is forgotten. -/
theorem dropFree (space : Space pages bounds loans chunks (cell :: free) grants) :
    Space pages bounds loans chunks free grants where
  aligned := space.aligned
  bounded := space.bounded
  accounts := space.accounts
  paged := space.paged
  housed := (List.forall_mem_cons.mp space.housed).2
  seated := space.seated
  apart := (List.pairwise_cons.mp space.apart).2

/-- A free cell becomes a small grant. -/
theorem grantSmall (space : Space pages bounds loans chunks (⟨index, grant.place⟩ :: free) grants)
    (served : grant.layout.class? = some index) (seated : grant.Seated chunks) :
    Space pages bounds loans chunks free (grant :: grants) where
  aligned := space.aligned
  bounded := space.bounded
  accounts := by
    rw [backing_cons_small served]
    exact space.accounts
  paged := space.paged
  housed := (List.forall_mem_cons.mp space.housed).2
  seated := List.forall_mem_cons.mpr ⟨seated, space.seated⟩
  apart := by
    refine (units_cons_grant grant free grants).symm.pairwise ?_ Range.Apart.symm
    rw [Grant.extent_small served]
    exact space.apart

/-- A small grant becomes a free cell. -/
theorem endSmall (space : Space pages bounds loans chunks free (grant :: grants))
    (served : grant.layout.class? = some index) :
    Space pages bounds loans chunks (⟨index, grant.place⟩ :: free) grants where
  aligned := space.aligned
  bounded := space.bounded
  accounts := by
    have accounts := space.accounts
    rwa [backing_cons_small served] at accounts
  paged := space.paged
  housed := List.forall_mem_cons.mpr
    ⟨(space.seated grant List.mem_cons_self).housed index served, space.housed⟩
  seated := (List.forall_mem_cons.mp space.seated).2
  apart := by
    have apart := (units_cons_grant grant free grants).pairwise space.apart Range.Apart.symm
    rwa [Grant.extent_small served] at apart

end Space

end Heap
end ModuleHost
