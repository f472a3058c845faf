import Mathlib.Data.List.Pairwise
import ModuleHost.Proofs.Host.Confinement
import ModuleHost.Proofs.Object
import ModuleHost.Proofs.Session.Soundness

namespace ModuleHost

/-!
# Modules do not interfere

As long as module code does not write into memory itself, the memory of a registered module
and the shared page of zeros stay as they are, whatever is loaded and unloaded besides.  An
address that has been handed out once is never part of another module, not even after the
module that it was handed out for has gone.
-/

/-- The address lies on a page of a section that has pages of its own, or on the page of
stubs. -/
def LoadedModule.Owns (module : LoadedModule) (address : Address) : Prop :=
  (∃ placement ∈ module.placements, placement.ownsPages = true ∧
    (⟨placement.address, wholePages placement.size⟩ : Range).Has address) ∨
  ∃ page, module.stubPage = some page ∧ (⟨page, pageSize⟩ : Range).Has address

theorem LoadedModule.owns_iff {module : LoadedModule}
    (rounds : ∀ lease ∈ module.leases, pagesFor? lease.range.size = some lease.pages.size)
    (address : Address) :
    module.Owns address ↔ ∃ lease ∈ module.leases, lease.pages.Has address := by
  have whole {placement : Placement} {lease : Lease} (listed : lease ∈ module.leases)
      (own : placement.lease? = some lease) :
      (⟨placement.address, wholePages placement.size⟩ : Range) = lease.pages := by
    rw [← lease.mk_pages_size, eq_wholePages (rounds lease listed),
      Placement.range_of_lease? own]
  constructor
  · rintro (⟨placement, listed, owns, inside⟩ | ⟨page, stubbed, inside⟩)
    · rcases placement.ownsPages_iff.mp owns with ⟨lease, own⟩
      have member : lease ∈ module.leases :=
        List.mem_append_left _ (List.mem_filterMap.mpr ⟨placement, listed, own⟩)
      exact ⟨lease, member, whole member own ▸ inside⟩
    · refine ⟨stubLease page, List.mem_append_right _ ?_, pages_stubLease page ▸ inside⟩
      rw [stubbed]
      exact List.mem_singleton_self _
  · rintro ⟨lease, listed, inside⟩
    rcases List.mem_append.mp listed with own | stub
    · rcases List.mem_filterMap.mp own with ⟨placement, member, found⟩
      exact Or.inl ⟨placement, member, placement.ownsPages_iff.mpr ⟨lease, found⟩,
        whole listed found ▸ inside⟩
    · rcases Option.map_eq_some_iff.mp (Option.mem_toList.mp stub) with ⟨page, stubbed, rfl⟩
      exact Or.inr ⟨page, stubbed, pages_stubLease page ▸ inside⟩

theorem LoadedModule.owns_of_lasting {first second : LoadedModule}
    (same : first.lasting = second.lasting) {address : Address} (owns : second.Owns address) :
    first.Owns address := by
  have owned : first.lasting.Owns address := same ▸ owns
  exact owned

/-- Module code writes into memory. -/
def Operation.isWrite : Operation → Bool
  | .write _ _ => true
  | _ => false

namespace Session

variable {session : Session}

/-! ## One operation -/

/-- A half that begins no load is quiet. -/
theorem quiet_advance (session : Session) {half : Half}
    (calm : ∀ address bytes, half ≠ .write address bytes)
    (unloading : ∀ name image, half ≠ .beginLoad name image) :
    session.host.Quiet (session.advance half).host := by
  cases half with
  | beginLoad name image => exact absurd rfl (unloading name image)
  | finishLoad code =>
      unfold advance
      simp only
      split
      · exact Host.Quiet.finishLoad _ _ _
      · exact Host.Quiet.refl _
  | beginUnload name =>
      have quiet := Host.Quiet.beginUnload session.host name
      unfold advance
      simp only
      split <;>
        (next began =>
          rw [began] at quiet
          exact quiet)
  | finishUnload =>
      unfold advance
      simp only
      split
      · exact Host.Quiet.finishUnload _ _
      · exact Host.Quiet.refl _
  | acquire name =>
      simp only [advance, perform, Session.acquire]
      cases acquired : session.host.acquire name with
      | error error => exact Host.Quiet.refl _
      | ok result => exact Host.Quiet.acquire acquired
  | drop number =>
      simp only [advance, perform, Session.drop?]
      split
      · exact Host.Quiet.dropReference _ _
      · exact Host.Quiet.refl _
  | collect => exact Host.Quiet.aside _ _
  | write address bytes => exact absurd rfl (calm address bytes)

/-- Only a load registers a module. -/
theorem persists_advance (session : Session) {half : Half}
    (unloading : ∀ name image, half ≠ .beginLoad name image) :
    session.host.registry.Persists (session.advance half).host.registry := by
  by_cases writing : ∃ address bytes, half = .write address bytes
  · rcases writing with ⟨address, bytes, rfl⟩
    exact Registry.Persists.refl _
  · exact (session.quiet_advance (fun address bytes same => writing ⟨address, bytes, same⟩)
      unloading).persists

theorem Sound.confined_advance (sound : session.Sound) {half : Half}
    (calm : ∀ address bytes, half ≠ .write address bytes) :
    session.host.Confined (session.advance half).host := by
  by_cases loading : ∃ name image, half = .beginLoad name image
  · rcases loading with ⟨name, image, rfl⟩
    have confined := sound.accounted.confined_beginLoad name image
    unfold Session.advance
    simp only
    split <;>
      (next began =>
        rw [began] at confined
        exact confined)
  · exact (session.quiet_advance calm
      fun name image same => loading ⟨name, image, same⟩).confined

/-- The halves of an operation write only if it does, and begin a load only if it is one. -/
theorem halves_calm (session : Session) {operation : Operation}
    (calm : operation.isWrite = false) {half : Half} (listed : half ∈ session.halves operation) :
    (∀ address bytes, half ≠ .write address bytes) ∧
      ((∀ name image, operation ≠ .load name image) →
        ∀ name image, half ≠ .beginLoad name image) := by
  cases operation with
  | load name image =>
      refine ⟨?_, fun other => absurd rfl (other name image)⟩
      rintro address bytes rfl
      simp only [halves] at listed
      split at listed <;> simp at listed
  | unload name =>
      simp only [halves] at listed
      split at listed <;> simp only [List.mem_cons, List.not_mem_nil, or_false] at listed
      · rcases listed with rfl | rfl <;> simp
      · simp [listed]
  | hookReturns code =>
      simp only [halves] at listed
      split at listed
      · simp [List.mem_singleton.mp listed]
      · simp [List.mem_singleton.mp listed]
      · exact absurd listed List.not_mem_nil
  | acquire name => simp only [halves, List.mem_singleton] at listed; simp [listed]
  | drop number => simp only [halves, List.mem_singleton] at listed; simp [listed]
  | collect => simp only [halves, List.mem_singleton] at listed; simp [listed]
  | write address bytes => cases calm

theorem Sound.confined_perform (sound : session.Sound) {operation : Operation}
    (calm : operation.isWrite = false) :
    (session.perform operation).Sound ∧
      session.host.Confined (session.perform operation).host := by
  rw [perform_eq]
  refine List.foldlRecOn (motive := fun state => state.Sound ∧ session.host.Confined state.host)
    (session.halves operation) Session.advance ⟨sound, (Host.Quiet.refl _).confined⟩
    fun state here half listed => ?_
  have step := here.1.confined_advance (session.halves_calm calm listed).1
  exact ⟨(here.1.advance half).1, here.2.trans step⟩

theorem quiet_perform (session : Session) {operation : Operation}
    (calm : operation.isWrite = false) (other : ∀ name image, operation ≠ .load name image) :
    session.host.Quiet (session.perform operation).host := by
  rw [perform_eq]
  refine List.foldlRecOn (motive := fun state => session.host.Quiet state.host)
    (session.halves operation) advance (Host.Quiet.refl _) fun state here half listed => ?_
  rcases session.halves_calm calm listed with ⟨writing, loading⟩
  exact here.trans (state.quiet_advance writing (loading other))

/-! ## What a module owns -/

theorem mem_leases {handle : Handle} {module : LoadedModule}
    (found : session.host.registry.get? handle = some module) {lease : Lease}
    (listed : lease ∈ module.leases) : lease ∈ session.host.registry.leases :=
  List.mem_flatMap.mpr ⟨(handle, module), (Registry.get?_eq_some_iff _ _ _).mp found, listed⟩

theorem Sound.owns_iff (sound : session.Sound) {handle : Handle} {module : LoadedModule}
    (found : session.host.registry.get? handle = some module) (address : Address) :
    module.Owns address ↔ ∃ lease ∈ module.leases, lease.pages.Has address := by
  refine LoadedModule.owns_iff (fun lease listed => ?_) address
  exact (sound.accounted.leased.inside lease (mem_leases found listed)).rounds

/-- What is owned has been handed out. -/
theorem Sound.spent_of_owns (sound : session.Sound) {handle : Handle} {module : LoadedModule}
    (found : session.host.registry.get? handle = some module) {address : Address}
    (owns : module.Owns address) : session.host.arena.Spent address := by
  rcases (sound.owns_iff found address).mp owns with ⟨lease, listed, inside⟩
  exact sound.accounted.leased.spent (mem_leases found listed) inside

/-- No two modules own an address. -/
theorem Sound.owner_unique (sound : session.Sound) {handle other : Handle}
    {module module' : LoadedModule}
    (found : session.host.registry.get? handle = some module)
    (found' : session.host.registry.get? other = some module') {address : Address}
    (owns : module.Owns address) (owns' : module'.Owns address) : other = handle := by
  rcases (sound.owns_iff found address).mp owns with ⟨lease, listed, inside⟩
  rcases (sound.owns_iff found' address).mp owns' with ⟨lease', listed', inside'⟩
  have entry := (Registry.get?_eq_some_iff _ _ _).mp found
  have entry' := (Registry.get?_eq_some_iff _ _ _).mp found'
  have apart := (List.pairwise_flatMap.mp sound.accounted.leased.apart).2
  have symmetric : Std.Symm fun first second : Handle × LoadedModule =>
      ∀ lease ∈ first.2.leases, ∀ lease' ∈ second.2.leases,
        Range.Apart lease.pages lease'.pages :=
    ⟨fun _ _ far lease listed lease' listed' => (far lease' listed' lease listed).symm⟩
  by_contra different
  have entries : ((other, module') : Handle × LoadedModule) ≠ (handle, module) :=
    fun same => different (congrArg Prod.fst same)
  have far := apart.forall entry' entry entries
  exact (far lease' listed' lease listed).not_has inside' inside

/-! ## One step -/

/-- What an operation does to memory and to the addresses that modules own. -/
structure Isolated (before after : Session) (operation : Operation) : Prop where
  /-- Only loads write, and only what was handed out in the course of them. -/
  writes : ∀ address, after.host.memory.byteAt address ≠ before.host.memory.byteAt address →
    (∃ name image, operation = .load name image) ∧
      before.host.arena.GivesOut after.host.arena address
  kept : ∀ handle module address, before.host.registry.get? handle = some module →
    module.Owns address →
      after.host.memory.byteAt address = before.host.memory.byteAt address
  /-- A module has been given all that it owns by the operation that registered it. -/
  fresh : ∀ handle module address, before.host.registry.get? handle = none →
    after.host.registry.get? handle = some module → module.Owns address →
      before.host.arena.GivesOut after.host.arena address

theorem Sound.isolated (sound : session.Sound) {operation : Operation}
    (calm : operation.isWrite = false) :
    Isolated session (session.perform operation) operation := by
  rcases sound.confined_perform calm with ⟨sound', confined⟩
  refine ⟨fun address changed => ⟨?_, ?_⟩, fun handle module address found owns => ?_,
    fun handle module address missing found owns => ?_⟩
  · by_contra other
    have quiet := session.quiet_perform calm fun name image same => other ⟨name, image, same⟩
    exact changed (by rw [quiet.memory_eq])
  · by_contra outside
    exact changed (confined.kept address outside)
  · apply confined.kept
    exact (sound.spent_of_owns found owns).not_givesOut confined.grows
      sound'.accounted.leased.arena_sound
  · rcases confined.modules handle module found with ⟨earlier, found', _⟩ | fresh
    · rw [missing] at found'
      cases found'
    · rcases (sound'.owns_iff found address).mp owns with ⟨lease, listed, inside⟩
      exact (fresh lease listed).given address inside

/-- A module that owns an address which was handed out before is not new. -/
theorem Sound.registered_of_spent (sound : session.Sound) {operation : Operation}
    (calm : operation.isWrite = false) {address : Address}
    (spent : session.host.arena.Spent address) {handle : Handle} {module : LoadedModule}
    (found : (session.perform operation).host.registry.get? handle = some module)
    (owns : module.Owns address) :
    ∃ earlier, session.host.registry.get? handle = some earlier ∧
      earlier.lasting = module.lasting := by
  rcases sound.confined_perform calm with ⟨sound', confined⟩
  rcases confined.modules handle module found with ⟨earlier, found', same⟩ | fresh
  · exact ⟨earlier, found', same.symm⟩
  · rcases (sound'.owns_iff found address).mp owns with ⟨lease, listed, inside⟩
    exact absurd ((fresh lease listed).given address inside)
      (spent.not_givesOut confined.grows sound'.accounted.leased.arena_sound)

/-! ## Runs -/

/-- The operations are calm: none of them writes. -/
def Calm (operations : List Operation) : Prop :=
  ∀ operation ∈ operations, operation.isWrite = false

instance (operations : List Operation) : Decidable (Calm operations) :=
  inferInstanceAs (Decidable (∀ operation ∈ operations, operation.isWrite = false))

/-- A run is confined to what was handed out in its course. -/
theorem Sound.confined_performAll (sound : session.Sound) {operations : List Operation}
    (calm : Calm operations) :
    (session.performAll operations).Sound ∧
      session.host.Confined (session.performAll operations).host := by
  refine List.foldlRecOn (motive := fun state => state.Sound ∧ session.host.Confined state.host)
    operations Session.perform ⟨sound, (Host.Quiet.refl _).confined⟩
    fun state here operation listed => ?_
  rcases here.1.confined_perform (calm operation listed) with ⟨sound', confined⟩
  exact ⟨sound', here.2.trans confined⟩

/-- A module that owns an address which was handed out before has been registered since. -/
theorem Sound.registered_since (sound : session.Sound) {more : List Operation} (calm : Calm more)
    {address : Address} (spent : session.host.arena.Spent address) {handle : Handle}
    {module : LoadedModule}
    (found : (session.performAll more).host.registry.get? handle = some module)
    (owns : module.Owns address) :
    ∀ front, front <+: more → ∃ held,
      (session.performAll front).host.registry.get? handle = some held ∧
        held.lasting = module.lasting := by
  induction more generalizing session with
  | nil =>
      intro front leading
      rw [List.prefix_nil.mp leading]
      exact ⟨module, found, rfl⟩
  | cons operation rest ih =>
      rcases sound.confined_perform (calm operation List.mem_cons_self) with ⟨sound', confined⟩
      have since := ih sound' (fun other listed => calm other (List.mem_cons_of_mem _ listed))
        (spent.onward confined.grows) found
      intro front leading
      cases front with
      | nil =>
          rcases since [] List.nil_prefix with ⟨held, found', same⟩
          rcases sound.registered_of_spent (calm operation List.mem_cons_self) spent found'
            (LoadedModule.owns_of_lasting same owns) with ⟨earlier, found'', same'⟩
          exact ⟨earlier, found'', same'.trans same⟩
      | cons first front =>
          rcases List.cons_prefix_cons.mp leading with ⟨rfl, leading'⟩
          exact since front leading'

/-- From here on, addresses are not recycled. -/
structure Unrecycled (session : Session) : Prop where
  /-- An address that has been handed out, be it to a load that failed, is owned by no module
  but one that is registered now and stays so. -/
  since : ∀ more, Calm more → ∀ address, session.host.arena.Spent address →
    ∀ handle module,
      (session.performAll more).host.registry.get? handle = some module → module.Owns address →
        ∀ front, front <+: more → ∃ held,
          (session.performAll front).host.registry.get? handle = some held ∧
            held.lasting = module.lasting
  /-- An address that a module owns is owned later by that module only, and only as long as it
  stays registered. -/
  alone : ∀ handle module address, session.host.registry.get? handle = some module →
    module.Owns address → ∀ more, Calm more → ∀ other module',
      (session.performAll more).host.registry.get? other = some module' → module'.Owns address →
        other = handle ∧ ∀ front, front <+: more → ∃ held,
          (session.performAll front).host.registry.get? handle = some held ∧
            held.lasting = module.lasting

theorem Sound.unrecycled (sound : session.Sound) : Unrecycled session := by
  refine ⟨fun more calm address spent handle module found owns =>
    sound.registered_since calm spent found owns, ?_⟩
  intro handle module address found owns more calm other module' found' owns'
  have since := sound.registered_since calm (sound.spent_of_owns found owns) found' owns'
  rcases since [] List.nil_prefix with ⟨held, here, same⟩
  have alone := sound.owner_unique found here owns (LoadedModule.owns_of_lasting same owns')
  subst alone
  have lasting : module.lasting = module'.lasting := by
    rw [← same, Option.some.inj (found.symm.trans here)]
  exact ⟨rfl, lasting ▸ since⟩

theorem zeros_of_create {settings : Settings} {exports : ExportTable} {memory : Memory}
    {zeroPage : Address} {host : Host}
    (created : Host.create settings exports memory zeroPage = .ok host) :
    host.zeroPage = zeroPage ∧
      ∀ offset < pageSize, host.memory.byteAt (zeroPage + offset) = 0 := by
  unfold Host.create at created
  cases made : Arena.ofSpecs settings.text settings.data with
  | error error =>
      rw [made] at created
      cases created
  | ok arena =>
      rw [made] at created
      cases created
      refine ⟨rfl, fun offset inside => ?_⟩
      show (memory.fill zeroPage pageSize 0).byteAt (zeroPage + offset) = 0
      rw [Memory.byteAt_fill, if_pos ⟨Nat.le_add_right _ _, Nat.add_lt_add_left inside _⟩]

/-- In a run in which module code writes nothing, loads write into pages of their own, so that
modules keep what they have in memory; the shared page, if it is not in a window, stays all
zero; and no address becomes another module's. -/
theorem loads_isolated {settings : Settings} {exports : ExportTable} {memory : Memory}
    {zeroPage : Address} {host : Host}
    (created : Host.create settings exports memory zeroPage = .ok host)
    (operations : List Operation) (calm : Calm operations) :
    (∀ operation, operation.isWrite = false →
      Isolated (performAll { host } operations)
        ((performAll { host } operations).perform operation) operation) ∧
    ((∀ kind, Range.Apart ⟨zeroPage, pageSize⟩
        ⟨(host.arena.window kind).base, (host.arena.window kind).size⟩) →
      ∀ offset < pageSize,
        (performAll { host } operations).host.memory.byteAt (zeroPage + offset) = 0) ∧
    Unrecycled (performAll { host } operations) := by
  have start : Session.Sound { host } := sound_start created
  rcases start.confined_performAll calm with ⟨sound, confined⟩
  refine ⟨fun operation quiet => sound.isolated quiet, fun apart offset inside => ?_,
    sound.unrecycled⟩
  rw [← (zeros_of_create created).2 offset inside]
  apply confined.kept
  intro given
  rcases sound.accounted.leased.window_of_spent (given.spent confined.grows) with ⟨kind, here⟩
  rw [confined.grows.base_eq kind, confined.grows.size_eq kind] at here
  exact (apart kind).not_has
    ⟨Nat.le_add_right _ _, Nat.add_lt_add_left inside _⟩ here

set_option maxRecDepth 4096 in
/-- A module is loaded and unloaded, then another one loaded. -/
theorem loads_isolated_unloaded :
    ∃ host module address, Host.create {} ⟨[]⟩ (.filled 0) 0 = .ok host ∧
      (performAll { host } [.load "self" (Object.selfPointing 1)]).host.registry.get? ⟨0, 0⟩ =
        some module ∧
      module.Owns address ∧
      (∀ offset < pageSize, (performAll { host }
        [.load "self" (Object.selfPointing 1)]).host.memory.byteAt (0 + offset) = 0) ∧
      ∀ handle other, ((performAll { host } [.load "self" (Object.selfPointing 1)]).performAll
        [.unload "self", .load "other" (Object.selfPointing 1)]).host.registry.get? handle =
          some other → ¬other.Owns address := by
  have ran : (Host.create {} ⟨[]⟩ (.filled 0) 0).toOption.map (fun host =>
      let loaded := performAll { host } [.load "self" (Object.selfPointing 1)]
      (decide (4096 ≤ host.arena.text.base), decide (4096 ≤ host.arena.data.base),
        ((loaded.host.registry.get? ⟨0, 0⟩).bind fun module => module.placements[2]?),
        (loaded.performAll [.unload "self"]).host.registry.entries.length)) =
      some (true, true, some ⟨0xffffffffa8000000, 8, .data⟩, 0) := by
    decide +kernel
  rcases Option.map_eq_some_iff.mp ran with ⟨host, found, outcome⟩
  simp only [Prod.mk.injEq, decide_eq_true_eq] at outcome
  rcases outcome with ⟨text, data, placed, gone⟩
  rcases Option.bind_eq_some_iff.mp placed with ⟨module, registered, placement⟩
  have created := Host.create_of_toOption found
  rcases loads_isolated created [.load "self" (Object.selfPointing 1)] (by decide) with
    ⟨_, zeros, unrecycled⟩
  have owns : module.Owns 0xffffffffa8000000 :=
    Or.inl ⟨_, List.mem_of_getElem? placement, rfl, by decide, by decide⟩
  refine ⟨host, module, _, created, registered, owns, zeros fun kind => ?_, ?_⟩
  · cases kind
    · exact Or.inl text
    · exact Or.inl data
  · intro handle other found' owns'
    rcases unrecycled.alone _ _ _ registered owns _ (by decide) handle other found' owns' with
      ⟨rfl, since⟩
    rcases since [.unload "self"] ⟨_, rfl⟩ with ⟨held, still, _⟩
    have entry := (Registry.get?_eq_some_iff _ _ _).mp still
    rw [List.eq_nil_of_length_eq_zero gone] at entry
    exact absurd entry List.not_mem_nil

end Session
end ModuleHost
