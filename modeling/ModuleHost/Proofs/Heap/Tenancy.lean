import ModuleHost.Proofs.Heap.Allocating
import ModuleHost.Proofs.Heap.Freeing
import ModuleHost.Proofs.Heap.Region

namespace ModuleHost
namespace Heap

/-!
# Clients of the heap

A tenancy is a heap together with what its clients have from it.  Clients ask for memory,
give memory back and write; which requests they may make is a parameter, so that one
notion of a run serves for clients of every discipline.

A request has one of five outcomes, and each of them leaves the heap sound and its counts
right; so does every run, by induction.  Whatever polite clients do, each of them has its
bytes for itself.  Clients that give back addresses at random find out which of them are
live: those are the addresses that the heap takes back.
-/

open LawfulPageSource (nodes)

/-- What clients may do. -/
inductive Request
  | allocate (layout : Layout)
  | free (address : Address)
  | write (address : Address) (bytes : List UInt8)

/-- A heap and the memory that clients have from it. -/
structure Tenancy (Pages : Type) [PageSource Pages] where
  heap : SlabHeap Pages
  grants : List Grant

namespace Tenancy

section Runs

variable {Pages : Type} [PageSource Pages]

/-- Some client has memory at the address. -/
def Live (tenancy : Tenancy Pages) (address : Address) : Prop :=
  ∃ grant ∈ tenancy.grants, grant.address = address

/-- The addresses are bytes of one client. -/
def Owned (tenancy : Tenancy Pages) (range : Range) : Prop :=
  ∃ grant ∈ tenancy.grants, Range.Within range grant.payload

/-- Make a request; one that is refused changes nothing. -/
def perform (tenancy : Tenancy Pages) : Request → Tenancy Pages
  | .allocate layout =>
    match tenancy.heap.allocate layout with
    | .ok (address, heap) => ⟨heap, ⟨address, layout⟩ :: tenancy.grants⟩
    | .error _ => tenancy
  | .free address =>
    match tenancy.heap.free address with
    | .ok heap => ⟨heap, tenancy.grants.filter fun grant => grant.address ≠ address⟩
    | .error _ => tenancy
  | .write address bytes =>
    { tenancy with heap.memory := tenancy.heap.memory.write address bytes }

/-- The chunks that are cut to serve a request. -/
def freshChunks (tenancy : Tenancy Pages) : Request → List Chunk
  | .allocate layout =>
    match tenancy.heap.allocate layout with
    | .ok _ => tenancy.heap.freshChunks layout
    | .error _ => []
  | .free _ | .write _ _ => []

/-- What a run can come to that makes only requests that are allowed. -/
inductive Reachable (allowed : Tenancy Pages → Request → Prop) (memory : Memory)
    (start size : Nat) : Tenancy Pages → Prop
  | opened {heap : SlabHeap Pages}
      (opened : SlabHeap.setRegion { memory } start size = .ok heap) :
      Reachable allowed memory start size ⟨heap, []⟩
  | step {tenancy : Tenancy Pages} {request : Request}
      (reachable : Reachable allowed memory start size tenancy)
      (allows : allowed tenancy request) :
      Reachable allowed memory start size (tenancy.perform request)

/-- What a run can come to, and the chunks that were cut on the way. -/
inductive Cutting (allowed : Tenancy Pages → Request → Prop) (memory : Memory)
    (start size : Nat) : Tenancy Pages → List Chunk → Prop
  | opened {heap : SlabHeap Pages}
      (opened : SlabHeap.setRegion { memory } start size = .ok heap) :
      Cutting allowed memory start size ⟨heap, []⟩ []
  | step {tenancy : Tenancy Pages} {chunks : List Chunk} {request : Request}
      (run : Cutting allowed memory start size tenancy chunks) (allows : allowed tenancy request) :
      Cutting allowed memory start size (tenancy.perform request)
        (tenancy.freshChunks request ++ chunks)

/-- Polite clients ask for at least one byte, write only their own bytes, and give back
only what they have. -/
def Polite (tenancy : Tenancy Pages) : Request → Prop
  | .allocate layout => 0 < layout.size
  | .free address => tenancy.Live address
  | .write address bytes => tenancy.Owned ⟨address, bytes.length⟩

/-- Careless clients give back any address, but they write only their own bytes, and no
word of a block in use to an aligned place. -/
def Careless (tenancy : Tenancy Pages) : Request → Prop
  | .allocate layout => 0 < layout.size
  | .free _ => True
  | .write address bytes => tenancy.Owned ⟨address, bytes.length⟩ ∧ ∀ place, place % 16 = 0 →
      UsedWordAt (tenancy.heap.memory.write address bytes) place →
        UsedWordAt tenancy.heap.memory place

/-- Modest clients write only their own bytes and give back only what they have.  They may ask
for no bytes at all. -/
def Modest (tenancy : Tenancy Pages) : Request → Prop
  | .allocate _ => True
  | .free address => tenancy.Live address
  | .write address bytes => tenancy.Owned ⟨address, bytes.length⟩

/-- Heedless clients ask for anything and give back any address, but they write only their own
bytes, and no word of a block in use to an aligned place. -/
def Heedless (tenancy : Tenancy Pages) : Request → Prop
  | .allocate _ => True
  | .free _ => True
  | .write address bytes => tenancy.Owned ⟨address, bytes.length⟩ ∧ ∀ place, place % 16 = 0 →
      UsedWordAt (tenancy.heap.memory.write address bytes) place →
        UsedWordAt tenancy.heap.memory place

/-- A place of the chain of free blocks that starts at an address. -/
inductive OnChain (memory : Memory) : Address → Address → Prop
  | here {first : Address} (some : first ≠ 0) : OnChain memory first first
  | next {first place : Address} (some : first ≠ 0)
      (later : OnChain memory (headerIn memory first).link place) : OnChain memory first place

variable {allowed allowed' : Tenancy Pages → Request → Prop} {memory : Memory} {start size : Nat}
variable {tenancy : Tenancy Pages} {request : Request}

theorem Polite.modest (polite : tenancy.Polite request) : tenancy.Modest request := by
  cases request with
  | allocate layout => trivial
  | free address => exact polite
  | write address bytes => exact polite

theorem Careless.heedless (careless : tenancy.Careless request) : tenancy.Heedless request := by
  cases request with
  | allocate layout => trivial
  | free address => trivial
  | write address bytes => exact careless

/-- Every run has cut some chunks. -/
theorem exists_cutting (reachable : Reachable allowed memory start size tenancy) :
    ∃ chunks, Cutting allowed memory start size tenancy chunks := by
  induction reachable with
  | opened opened => exact ⟨[], .opened opened⟩
  | step _ allows ih =>
      rcases ih with ⟨chunks, run⟩
      exact ⟨_, run.step allows⟩

/-- What is reached under a strict discipline is reached under a lax one. -/
theorem Reachable.mono (reachable : Reachable allowed memory start size tenancy)
    (lax : ∀ tenancy request, allowed tenancy request → allowed' tenancy request) :
    Reachable allowed' memory start size tenancy := by
  induction reachable with
  | opened opened => exact .opened opened
  | step _ allows ih => exact ih.step (lax _ _ allows)

/-- Clients that never ask for nothing have no empty block. -/
theorem Reachable.positive (reachable : Reachable allowed memory start size tenancy)
    (asks : ∀ tenancy layout, allowed tenancy (.allocate layout) → 0 < layout.size) :
    ∀ grant ∈ tenancy.grants, 0 < grant.layout.size := by
  induction reachable with
  | opened opened => exact fun _ listed => absurd listed List.not_mem_nil
  | @step tenancy request _ allows ih =>
      cases request with
      | allocate layout =>
          simp only [perform]
          split
          · exact List.forall_mem_cons.mpr ⟨asks _ _ allows, ih⟩
          · exact ih
      | free address =>
          simp only [perform]
          split
          · exact fun grant listed => ih grant (List.mem_of_mem_filter listed)
          · exact ih
      | write address bytes => exact ih

end Runs

variable {Pages : Type} [PageSource Pages] [LawfulPageSource Pages]

/-- What clients may rely on. -/
structure Contract (tenancy : Tenancy Pages) (region : Range) : Prop where
  inside : ∀ grant ∈ tenancy.grants, Range.Within grant.payload region
  aligned : ∀ grant ∈ tenancy.grants, grant.address % grant.layout.align = 0
  apart : tenancy.grants.Pairwise fun grant other => Range.Apart grant.payload other.payload
  apart_headers : ∀ grant ∈ tenancy.grants, ∀ other ∈ tenancy.grants,
    Range.Apart grant.payload (headerRange other.place)
  apart_chains : ∀ grant ∈ tenancy.grants, ∀ (index : Fin 8) (place : Address),
    OnChain tenancy.heap.memory (tenancy.heap.head index) place →
      Range.Apart grant.payload (headerRange place)
  apart_nodes : ∀ grant ∈ tenancy.grants, ∀ place ∈ nodes tenancy.heap.region,
    Range.Apart grant.payload (nodeRange place)
  kept_allocate : ∀ layout, PayloadsKept tenancy.grants tenancy.heap.memory
    (tenancy.perform (.allocate layout)).heap.memory
  kept_free : ∀ address, tenancy.Live address →
    PayloadsKept tenancy.grants tenancy.heap.memory (tenancy.perform (.free address)).heap.memory
  allocates : ∀ layout, (∃ address after, tenancy.heap.allocate layout = .ok (address, after)) ∨
    tenancy.heap.allocate layout = .error .outOfMemory
  frees : ∀ address, tenancy.Live address → ∃ after, tenancy.heap.free address = .ok after

/-- What becomes of a request. -/
inductive Outcome (tenancy : Tenancy Pages) (bounds : Range) (chunks : List Chunk)
    (free : List Cell) : Request → Tenancy Pages → List Cell → Prop
  | exhausted {layout : Layout} (refused : tenancy.heap.allocate layout = .error .outOfMemory) :
      Outcome tenancy bounds chunks free (.allocate layout) tenancy free
  | allocated {layout : Layout} {address : Address} {after : SlabHeap Pages} {free' : List Cell}
      (given : tenancy.heap.allocate layout = .ok (address, after))
      (allocation : tenancy.heap.Allocation after bounds chunks free tenancy.grants
        ⟨address, layout⟩ free') :
      Outcome tenancy bounds chunks free (.allocate layout)
        ⟨after, ⟨address, layout⟩ :: tenancy.grants⟩ free'
  | rejected {address : Address} {error : HeapError}
      (refused : tenancy.heap.free address = .error error) :
      Outcome tenancy bounds chunks free (.free address) tenancy free
  | released {grant : Grant} {after : SlabHeap Pages} {others : List Grant} {free' : List Cell}
      (freed : tenancy.heap.free grant.address = .ok after)
      (same : tenancy.grants.Perm (grant :: others))
      (release : tenancy.heap.Release after bounds chunks free others grant free') :
      Outcome tenancy bounds chunks free (.free grant.address) ⟨after, others⟩ free'
  | wrote {address : Address} {bytes : List UInt8} {grant : Grant} (listed : grant ∈ tenancy.grants)
      (within : Range.Within ⟨address, bytes.length⟩ grant.payload) :
      Outcome tenancy bounds chunks free (.write address bytes)
        { tenancy with heap.memory := tenancy.heap.memory.write address bytes } free

/-- The heap is sound, and its counts are right. -/
structure Kept (tenancy : Tenancy Pages) (bounds : Range) (chunks : List Chunk)
    (free : List Cell) : Prop where
  sound : tenancy.heap.Sound bounds [] chunks free tenancy.grants
  counted : tenancy.heap.Counted free tenancy.grants

/-- The grants are those of a sound heap, and none of them is empty. -/
structure Sound (tenancy : Tenancy Pages) (bounds : Range) (chunks : List Chunk)
    (free : List Cell) : Prop where
  heap : tenancy.heap.Sound bounds [] chunks free tenancy.grants
  positive : ∀ grant ∈ tenancy.grants, 0 < grant.layout.size

variable {tenancy after : Tenancy Pages} {bounds : Range} {chunks : List Chunk}
variable {free free' : List Cell} {request : Request}
variable {memory : Memory} {start size : Nat} {address : Address}

/-! ## Requests -/

/-- Memory that a client has goes back, unless it is behind the end of the region. -/
theorem perform_release (sound : tenancy.heap.Sound bounds [] chunks free tenancy.grants)
    {grant : Grant} (listed : grant ∈ tenancy.grants) (below : grant.address < tenancy.heap.stop) :
    ∃ after others free', tenancy.heap.free grant.address = .ok after ∧
      tenancy.perform (.free grant.address) = ⟨after, others⟩ ∧
      tenancy.grants.Perm (grant :: others) ∧
      tenancy.heap.Release after bounds chunks free others grant free' := by
  have same := List.perm_cons_erase listed
  have others := (sound.perm same).space.address_ne
  have kept : (tenancy.grants.filter fun other => other.address ≠ grant.address).Perm
      (tenancy.grants.erase grant) := by
    refine (same.filter _).trans (.of_eq ?_)
    rw [List.filter_cons_of_neg (by simp)]
    exact List.filter_eq_self.mpr fun other member => decide_eq_true (others other member)
  have same' := same.trans (kept.symm.cons grant)
  rcases (sound.perm same').free_grant below with ⟨after, free', freed, release⟩
  refine ⟨after, _, free', freed, ?_, same', release⟩
  simp only [perform, freed]

/-- A request for memory is refused, or it adds a grant. -/
theorem outcome_allocate (sound : tenancy.heap.Sound bounds [] chunks free tenancy.grants)
    (layout : Layout) :
    ∃ free', Outcome tenancy bounds chunks free (.allocate layout)
      (tenancy.perform (.allocate layout)) free' := by
  rcases sound.allocate layout with refused | ⟨address, after, free', given, allocation⟩
  · simp only [perform, refused]
    exact ⟨free, .exhausted refused⟩
  · simp only [perform, given]
    exact ⟨free', .allocated given allocation⟩

/-- Memory that a client has goes back, or its address is refused at the end of the region. -/
theorem outcome_free (sound : tenancy.heap.Sound bounds [] chunks free tenancy.grants)
    (live : tenancy.Live address) :
    ∃ free', Outcome tenancy bounds chunks free (.free address)
      (tenancy.perform (.free address)) free' := by
  rcases live with ⟨grant, listed, rfl⟩
  rcases Nat.lt_or_ge grant.address tenancy.heap.stop with below | beyond
  · rcases perform_release sound listed below with
      ⟨after, others, free', freed, result, same, release⟩
    rw [result]
    exact ⟨free', .released freed same release⟩
  · have refused := sound.free_beyond beyond
    have result : tenancy.perform (.free grant.address) = tenancy := by
      simp only [perform, refused]
    rw [result]
    exact ⟨free, .rejected refused⟩

theorem outcome_of_modest (sound : tenancy.heap.Sound bounds [] chunks free tenancy.grants)
    (modest : tenancy.Modest request) :
    ∃ free', Outcome tenancy bounds chunks free request (tenancy.perform request) free' := by
  cases request with
  | allocate layout => exact outcome_allocate sound layout
  | free address => exact outcome_free sound modest
  | write address bytes =>
      rcases modest with ⟨grant, listed, within⟩
      exact ⟨free, .wrote listed within⟩

/-- An address that nobody has is refused. -/
theorem outcome_of_heedless (sound : tenancy.heap.Sound bounds [] chunks free tenancy.grants)
    (unforged : Unforged tenancy.heap.memory bounds tenancy.grants)
    (heedless : tenancy.Heedless request) :
    ∃ free', Outcome tenancy bounds chunks free request (tenancy.perform request) free' := by
  cases request with
  | allocate layout => exact outcome_allocate sound layout
  | free address =>
      cases freed : tenancy.heap.free address with
      | ok after => exact outcome_free sound (sound.granted_of_free unforged freed)
      | error error =>
          have result : tenancy.perform (.free address) = tenancy := by
            simp only [perform, freed]
          rw [result]
          exact ⟨free, .rejected freed⟩
  | write address bytes => exact outcome_of_modest sound heedless.1

/-- Whatever becomes of a request, the heap stays sound and its counts right. -/
theorem Outcome.kept (outcome : Outcome tenancy bounds chunks free request after free')
    (kept : tenancy.Kept bounds chunks free) :
    after.Kept bounds (tenancy.freshChunks request ++ chunks) free' := by
  cases outcome with
  | exhausted refused =>
      rw [freshChunks, refused]
      exact kept
  | allocated given allocation =>
      rw [freshChunks, given]
      exact ⟨allocation.sound, allocation.move.counts kept.counted⟩
  | rejected refused => exact kept
  | released freed same release =>
      exact ⟨release.sound, release.move.counts (kept.counted.perm same)⟩
  | @wrote address bytes grant listed within =>
      have same := List.perm_cons_erase listed
      exact ⟨((kept.sound.perm same).writePayload within).perm same.symm,
        kept.counted.congr rfl rfl⟩

/-- The bytes that clients have are kept when memory is handed out. -/
theorem Outcome.payloads_of_allocate {layout : Layout}
    (outcome : Outcome tenancy bounds chunks free (.allocate layout) after free') :
    PayloadsKept tenancy.grants tenancy.heap.memory after.heap.memory := by
  cases outcome with
  | exhausted refused => exact fun _ _ => rfl
  | allocated given allocation => exact allocation.effect.payloads

/-- Whatever becomes of a request of a heedless client, only blocks in use look used. -/
theorem Outcome.unforged (outcome : Outcome tenancy bounds chunks free request after free')
    (heedless : tenancy.Heedless request)
    (unforged : Unforged tenancy.heap.memory bounds tenancy.grants) :
    Unforged after.heap.memory bounds after.grants := by
  cases outcome with
  | exhausted refused => exact unforged
  | allocated given allocation => exact allocation.effect.unforged unforged
  | rejected refused => exact unforged
  | released freed same release =>
      exact (release.effect.mono (List.Subset.refl _) same.subset
        (List.Subset.refl _)).unforged unforged
  | wrote listed within =>
      exact fun place aligned inside used =>
        unforged place aligned inside (heedless.2 place aligned used)

/-! ## Runs -/

theorem kept_opened {heap : SlabHeap Pages}
    (opened : SlabHeap.setRegion { memory } start size = .ok heap) :
    Kept ⟨heap, []⟩ ⟨start, size⟩ [] [] :=
  ⟨(SlabHeap.sound_setRegion opened).1, SlabHeap.counted_setRegion opened⟩

/-- A new heap has no blocks in use, and nothing looks used if nothing did before. -/
theorem unforged_opened {heap : SlabHeap Pages}
    (opened : SlabHeap.setRegion { memory } start size = .ok heap)
    (clean : ∀ place, place % 16 = 0 → start ≤ place → place + 4 ≤ start + size →
      ¬UsedWordAt memory place) : Unforged heap.memory ⟨start, size⟩ [] := by
  rcases SlabHeap.sound_setRegion opened with ⟨_, writes, whole⟩
  intro place aligned within used
  have before := writes.usedWordAt (List.forall_mem_singleton.mpr whole) aligned used
  simp only [Range.Within, headerRange, BlockHeader.size] at within
  exact absurd before (clean place aligned within.1 (by lia))

/-- Modest clients keep the heap sound and its counts right. -/
theorem exists_kept (run : Cutting Modest memory start size tenancy chunks) :
    ∃ free, tenancy.Kept ⟨start, size⟩ chunks free := by
  induction run with
  | opened opened => exact ⟨[], kept_opened opened⟩
  | step _ allows ih =>
      rcases ih with ⟨free, kept⟩
      rcases outcome_of_modest kept.sound allows with ⟨free', outcome⟩
      exact ⟨free', outcome.kept kept⟩

/-- So do heedless clients, when the region had no words of blocks in use at first; then only
blocks in use have them. -/
theorem exists_kept_unforged (run : Cutting Heedless memory start size tenancy chunks)
    (clean : ∀ place, place % 16 = 0 → start ≤ place → place + 4 ≤ start + size →
      ¬UsedWordAt memory place) :
    ∃ free, tenancy.Kept ⟨start, size⟩ chunks free ∧
      Unforged tenancy.heap.memory ⟨start, size⟩ tenancy.grants := by
  induction run with
  | opened opened => exact ⟨[], kept_opened opened, unforged_opened opened clean⟩
  | step _ allows ih =>
      rcases ih with ⟨free, kept, unforged⟩
      rcases outcome_of_heedless kept.sound unforged allows with ⟨free', outcome⟩
      exact ⟨free', outcome.kept kept, outcome.unforged allows unforged⟩

/-! ## Polite clients -/

/-- Memory that a client has goes back if it is not empty. -/
theorem perform_free (sound : tenancy.Sound bounds chunks free) (live : tenancy.Live address) :
    ∃ after free', tenancy.heap.free address = .ok after ∧
      (tenancy.perform (.free address)).heap = after ∧
      (tenancy.perform (.free address)).Sound bounds chunks free' ∧
      Effect bounds tenancy.grants tenancy.grants (tenancy.perform (.free address)).grants
        tenancy.heap.memory after.memory := by
  rcases live with ⟨grant, listed, rfl⟩
  have below : grant.address < tenancy.heap.stop := by
    have reach := (sound.heap.perm (List.perm_cons_erase listed)).address_bounds.2
    have positive := sound.positive grant listed
    lia
  rcases perform_release sound.heap listed below with
    ⟨after, others, free', freed, result, same, release⟩
  rw [result]
  refine ⟨after, free', freed, rfl, ⟨release.sound, fun other member => ?_⟩,
    release.effect.mono same.subset same.subset (List.Subset.refl _)⟩
  exact sound.positive other (same.mem_iff.mpr (List.mem_cons_of_mem _ member))

theorem exists_sound (reachable : Reachable Polite memory start size tenancy) :
    ∃ chunks free, tenancy.Sound ⟨start, size⟩ chunks free := by
  rcases exists_cutting (reachable.mono fun _ _ => Polite.modest) with ⟨chunks, run⟩
  rcases exists_kept run with ⟨free, kept⟩
  exact ⟨chunks, free, kept.sound, reachable.positive fun _ _ asks => asks⟩

/-- The chain that a class has in memory is made of places of free cells. -/
theorem mem_of_onChain {index : Fin 8} {first place : Address} {places : List Address}
    (threaded : Threaded memory index first places) (chain : OnChain memory first place) :
    place ∈ places := by
  induction chain generalizing places with
  | here some =>
      cases places with
      | nil => exact absurd threaded some
      | cons head rest => exact threaded.1 ▸ List.mem_cons_self
  | next some _ ih =>
      cases places with
      | nil => exact absurd threaded some
      | cons head rest =>
          rcases threaded with ⟨rfl, link, header, later⟩
          rw [header] at ih
          exact List.mem_cons_of_mem _ (ih later)

/-- A sound tenancy keeps what clients rely on. -/
theorem Sound.contract (sound : tenancy.Sound bounds chunks free) : tenancy.Contract bounds where
  inside grant listed :=
    (Grant.payload_within (sound.heap.space.seated grant listed)).trans
      (sound.heap.space.unit_within_bounds (extent_mem_units listed))
  aligned grant listed := (sound.heap.space.seated grant listed).aligned
  apart := sound.heap.space.extents_apart.imp_of_mem fun listed listed' apart =>
    apart.mono (Grant.payload_within (sound.heap.space.seated _ listed))
      (Grant.payload_within (sound.heap.space.seated _ listed'))
  apart_headers grant listed other listed' := by
    have same := List.perm_cons_erase listed'
    exact (sound.heap.perm same).payload_apart_header grant (same.mem_iff.mp listed)
  apart_chains grant listed index place chain := by
    have member := mem_of_onChain (sound.heap.marks.chains index) chain
    rcases List.mem_map.mp member with ⟨cell, filtered, rfl⟩
    have apart := (List.pairwise_append.mp sound.heap.space.apart).2.2 cell.range
      (List.mem_map_of_mem (List.mem_of_mem_filter filtered)) grant.extent
      (List.mem_map_of_mem listed)
    exact apart.symm.mono (Grant.payload_within (sound.heap.space.seated grant listed))
      cell.headerRange_within
  apart_nodes grant listed place member :=
    sound.heap.space.payload_apart (fun _ => sound.heap.space.node_apart member) grant listed
  kept_allocate layout := by
    rcases outcome_allocate sound.heap layout with ⟨free', outcome⟩
    exact outcome.payloads_of_allocate
  kept_free address live := by
    rcases perform_free sound live with ⟨after, free', _, rfl, _, effect⟩
    exact effect.payloads
  allocates layout := by
    rcases sound.heap.allocate layout with refused | ⟨address, after, _, given, _⟩
    · exact .inr refused
    · exact .inl ⟨address, after, given⟩
  frees address live := by
    rcases perform_free sound live with ⟨after, _, freed, _⟩
    exact ⟨after, freed⟩

/-- Whatever polite clients do, they may rely on the heap. -/
theorem contract_of_polite (reachable : Reachable Polite memory start size tenancy) :
    tenancy.Contract ⟨start, size⟩ := by
  rcases exists_sound reachable with ⟨chunks, free, sound⟩
  exact sound.contract

/-- A heap of sixteen pages of zeros, before anything is asked of it. -/
def vacant : Tenancy Region where
  heap :=
    { memory := replaceNodes (.filled 0) [] (Region.ofRange 65536 65536).holes
      region := .ofRange 65536 65536
      start := 65536
      stop := 131072
      initialized := true }
  grants := []

/-- A hundred bytes were written and given back while five thousand stayed. -/
theorem contract_of_polite_vacant :
    let tenancy := (((vacant.perform (.allocate ⟨100, 3, by decide⟩)).perform
      (.write 65552 [1, 2, 3])).perform (.allocate ⟨5000, 4, by decide⟩)).perform (.free 65552)
    tenancy.grants.map Grant.address = [69664] ∧ tenancy.Contract ⟨65536, 65536⟩ := by
  have opened : Reachable Polite (.filled 0) 65536 65536 vacant := .opened rfl
  have small := opened.step (show Polite _ (.allocate ⟨100, 3, by decide⟩) from Nat.succ_pos 99)
  have written := small.step (show Polite _ (.write 65552 [1, 2, 3]) from
    ⟨⟨65552, ⟨100, 3, by decide⟩⟩, by decide +kernel, by decide, by decide⟩)
  have large := written.step
    (show Polite _ (.allocate ⟨5000, 4, by decide⟩) from Nat.succ_pos 4999)
  have freed := large.step (show Polite _ (.free 65552) from
    ⟨⟨65552, ⟨100, 3, by decide⟩⟩, by decide +kernel, rfl⟩)
  exact ⟨by decide +kernel, contract_of_polite freed⟩

/-! ## Careless clients -/

/-- Only a block in use looks used, so an address that goes back was live. -/
theorem Sound.live_of_free (sound : tenancy.Sound bounds chunks free)
    (unforged : Unforged tenancy.heap.memory bounds tenancy.grants) {after : SlabHeap Pages}
    (freed : tenancy.heap.free address = .ok after) : tenancy.Live address :=
  sound.heap.granted_of_free unforged freed

/-- When the region had no words of blocks in use at first, only blocks in use have them. -/
theorem exists_unforged (reachable : Reachable Careless memory start size tenancy)
    (clean : ∀ place, place % 16 = 0 → start ≤ place → place + 4 ≤ start + size →
      ¬UsedWordAt memory place) :
    ∃ chunks free, tenancy.Sound ⟨start, size⟩ chunks free ∧
      Unforged tenancy.heap.memory ⟨start, size⟩ tenancy.grants := by
  rcases exists_cutting (reachable.mono fun _ _ => Careless.heedless) with ⟨chunks, run⟩
  rcases exists_kept_unforged run clean with ⟨free, kept, unforged⟩
  exact ⟨chunks, free, ⟨kept.sound, reachable.positive fun _ _ asks => asks⟩, unforged⟩

/-- The heap takes back exactly the addresses that are live. -/
theorem frees_iff_live (reachable : Reachable Careless memory start size tenancy)
    (clean : ∀ place, place % 16 = 0 → start ≤ place → place + 4 ≤ start + size →
      ¬UsedWordAt memory place) (address : Address) :
    (∃ after, tenancy.heap.free address = .ok after) ↔ tenancy.Live address := by
  rcases exists_unforged reachable clean with ⟨chunks, free, sound, unforged⟩
  constructor
  · rintro ⟨after, freed⟩
    exact sound.live_of_free unforged freed
  · intro live
    rcases perform_free sound live with ⟨after, _, freed, _⟩
    exact ⟨after, freed⟩

/-- After an address inside a block was refused and the block given back, only the other
block goes back. -/
theorem frees_iff_live_vacant :
    let tenancy := (((vacant.perform (.allocate ⟨100, 3, by decide⟩)).perform
      (.free 65568)).perform (.allocate ⟨5000, 4, by decide⟩)).perform (.free 65552)
    (∃ after, tenancy.heap.free 69664 = .ok after) ∧
      ¬∃ after, tenancy.heap.free 65552 = .ok after := by
  have clean : ∀ place, place % 16 = 0 → 65536 ≤ place → place + 4 ≤ 65536 + 65536 →
      ¬UsedWordAt (.filled 0) place := by
    intro place _ _ _
    have zeros : (Memory.filled 0).read place 4 = [0, 0, 0, 0] := rfl
    rw [UsedWordAt, zeros]
    decide
  have opened : Reachable Careless (.filled 0) 65536 65536 vacant := .opened rfl
  have small := opened.step
    (show Careless _ (.allocate ⟨100, 3, by decide⟩) from Nat.succ_pos 99)
  have refused := small.step (show Careless _ (.free 65568) from trivial)
  have large := refused.step
    (show Careless _ (.allocate ⟨5000, 4, by decide⟩) from Nat.succ_pos 4999)
  have freed := large.step (show Careless _ (.free 65552) from trivial)
  constructor
  · refine (frees_iff_live freed clean 69664).mpr ?_
    exact ⟨⟨69664, ⟨5000, 4, by decide⟩⟩, by decide +kernel, rfl⟩
  · intro taken
    rcases (frees_iff_live freed clean 65552).mp taken with ⟨grant, listed, same⟩
    revert grant
    decide +kernel

end Tenancy

end Heap
end ModuleHost
