import ModuleHost.Host.Query
import ModuleHost.Proofs.Session.Exports

namespace ModuleHost

/-!
# What an address belongs to

Loading gives sections their pages and symbols their addresses; attribution goes back from an
address to the section that holds it and to the symbol that starts next below it.  Pages are
never shared, so there is at most one such section among all registered modules, and the order
in which modules are asked does not matter.

A symbol belongs to the section whose index it has.  For section 0 that goes wrong: the index
of an undefined symbol is 0 too, and attribution does not tell the two apart.
-/

/-- The test by which sections are searched for an address. -/
theorem Placement.holds_iff (placement : Placement) (address : Address) :
    (placement.kind ≠ .zeroPage && placement.contains address) = true ↔
      placement.ownsPages = true ∧
        (⟨placement.address, placement.size⟩ : Range).Has address := by
  rcases placement with ⟨start, size, kind⟩
  cases kind <;>
    simp only [contains, ownsPages, Range.Has, ne_eq, reduceCtorEq, not_false_eq_true, decide_true,
      not_true, decide_false, Bool.true_and, Bool.false_and, Bool.and_eq_true, decide_eq_true_eq,
      Bool.or_true, Bool.or_false, true_and, false_and, Bool.false_eq_true] <;>
    exact and_congr_right fun above => Nat.sub_lt_iff_lt_add' above

namespace LoadedModule

variable {module : LoadedModule} {addresses : List Address} {index : Nat} {address : Address}

/-- The address lies in a section of the module that has pages of its own. -/
def Holds (module : LoadedModule) (index : Nat) (address : Address) : Prop :=
  ∃ header placement, module.sections[index]? = some header ∧
    module.placements[index]? = some placement ∧ placement.ownsPages = true ∧
    (⟨placement.address, header.size.toNat⟩ : Range).Has address

/-- The symbol has the index of the section, and marks a place with a name. -/
def Marks (module : LoadedModule) (index : Nat) (symbol : Object.Symbol) : Prop :=
  symbol.sectionIndex.toNat = index ∧ symbol.marksPlace = true ∧ module.symbolName symbol ≠ ""

/-- The addresses that the symbols of a module were given when it was assembled. -/
def Assigned (module : LoadedModule) (addresses : List Address) : Prop :=
  ∃ host image object staging assembly name, Object.ofImage image = .ok object ∧
    Staging.assemble object { host } = (staging, .ok assembly) ∧
    module.lasting = (assembly.module name object staging.held).lasting ∧
    addresses = assembly.addresses

/-- What is told of an address in a section: the symbol that starts next at or below it and
how far behind the start it lies, or if there is none how far it lies in the section. -/
inductive Locates (module : LoadedModule) (addresses : List Address) (index : Nat)
    (address : Address) : Attribution → Prop
  | symbol (placement : Placement) (position : Nat) (symbol : Object.Symbol)
      (start offset : Nat) (found : module.placements[index]? = some placement)
      (listed : module.symbols[position]? = some symbol) (marks : module.Marks index symbol)
      (starts : start = placement.addressAt symbol.value.toNat)
      (reaches : start + offset = address)
      (next : ∀ other ∈ module.symbols, module.Marks index other →
        ¬(start < placement.addressAt other.value.toNat ∧
          placement.addressAt other.value.toNat ≤ address))
      (defined : index ≠ 0 → symbol.home = .inSection index ∧ addresses[position]? = some start)
      (undefined : index = 0 → symbol.home = .undefined) :
      Locates module addresses index address
        ⟨module.name, some (module.symbolName symbol), offset⟩
  | start (placement : Placement) (offset : Nat)
      (found : module.placements[index]? = some placement)
      (reaches : placement.address + offset = address)
      (above : ∀ symbol ∈ module.symbols, module.Marks index symbol →
        address < placement.addressAt symbol.value.toNat) :
      Locates module addresses index address ⟨module.name, none, offset⟩

/-! ## The nearest place -/

/-- What is found among places: the highest one at or below the address, none if all lie
above it. -/
def Nearest (places : List (String × Address)) (address : Address) :
    Option (String × Address) → Prop
  | none => ∀ place ∈ places, address < place.2
  | some found => found ∈ places ∧ found.2 ≤ address ∧
      ∀ place ∈ places, place.2 ≤ address → place.2 ≤ found.2

theorem nearest_nearest? (places : List (String × Address)) (address : Address) :
    Nearest places address (nearest? places address) := by
  unfold nearest?
  -- The search goes through the table from its front, so the last place is looked at last.
  induction places using List.reverseRecOn with
  | nil => exact fun _ listed => absurd listed List.not_mem_nil
  | append_singleton front place ih =>
      rw [List.foldl_concat]
      generalize List.foldl _ none front = best at ih ⊢
      have last : place ∈ front ++ [place] := List.mem_append_right _ (List.mem_singleton_self _)
      split
      · next above =>
          have beyond : place.2 ≤ address → ∀ bound, place.2 ≤ bound :=
            fun below => absurd above (Nat.not_lt_of_le below)
          cases best with
          | none => exact List.forall_mem_append.mpr ⟨ih, List.forall_mem_singleton.mpr above⟩
          | some found =>
              exact ⟨List.mem_append_left _ ih.1, ih.2.1, List.forall_mem_append.mpr
                ⟨ih.2.2, List.forall_mem_singleton.mpr fun below => beyond below _⟩⟩
      · next reached =>
          have below := Nat.le_of_not_lt reached
          split
          · next found =>
              split
              · next higher =>
                  exact ⟨last, below, List.forall_mem_append.mpr
                    ⟨fun other listed reached => (ih.2.2 other listed reached).trans higher,
                      List.forall_mem_singleton.mpr fun _ => Nat.le_refl _⟩⟩
              · next lower =>
                  exact ⟨List.mem_append_left _ ih.1, ih.2.1, List.forall_mem_append.mpr
                    ⟨ih.2.2, List.forall_mem_singleton.mpr fun _ => Nat.le_of_not_le lower⟩⟩
          · exact ⟨last, below, List.forall_mem_append.mpr
              ⟨fun other listed reached => absurd (ih other listed) (Nat.not_lt_of_le reached),
                List.forall_mem_singleton.mpr fun _ => Nat.le_refl _⟩⟩

theorem mem_placesIn_iff {placement : Placement} {start : Address} {name : String} :
    (name, start) ∈ module.placesIn index placement ↔ ∃ symbol ∈ module.symbols,
      module.Marks index symbol ∧ module.symbolName symbol = name ∧
        start = placement.addressAt symbol.value.toNat := by
  simp only [placesIn, List.mem_filterMap]
  refine exists_congr fun symbol => and_congr_right fun _ => ?_
  split
  · next marks =>
      simp only [Bool.and_eq_true, decide_eq_true_eq] at marks
      simp [Marks, marks, eq_comm]
  · next marks =>
      simp only [Bool.and_eq_true, decide_eq_true_eq, and_assoc] at marks
      simp [Marks, marks]

/-! ## One module -/

/-- The placements have the sizes of the sections, and the symbols defined in them are given
their addresses. -/
structure Mapped (module : LoadedModule) (addresses : List Address) : Prop where
  length_eq : module.placements.length = module.sections.length
  size_eq : ∀ {index : Nat} {header placement}, module.sections[index]? = some header →
    module.placements[index]? = some placement → placement.ownsPages = true →
      placement.size = header.size.toNat
  address_eq : ∀ {position index : Nat} {symbol placement},
    module.symbols[position]? = some symbol → symbol.home = .inSection index →
      module.placements[index]? = some placement → placement.ownsPages = true →
        addresses[position]? = some (placement.addressAt symbol.value.toNat)

namespace Mapped

theorem holds_iff (mapped : module.Mapped addresses) : module.Holds index address ↔
    ∃ placement, module.placements[index]? = some placement ∧ placement.ownsPages = true ∧
      (⟨placement.address, placement.size⟩ : Range).Has address := by
  constructor
  · rintro ⟨header, placement, present, found, owns, inside⟩
    exact ⟨placement, found, owns, mapped.size_eq present found owns ▸ inside⟩
  · rintro ⟨placement, found, owns, inside⟩
    have bounded := mapped.length_eq ▸ (List.getElem?_eq_some_iff.mp found).1
    have present := List.getElem?_eq_getElem bounded
    exact ⟨_, placement, present, found, owns, mapped.size_eq present found owns ▸ inside⟩

theorem holds_of_sectionAt? (mapped : module.Mapped addresses)
    (here : module.sectionAt? address = some index) : module.Holds index address := by
  rcases List.findIdx?_eq_some_iff_getElem.mp here with ⟨bounded, inside, _⟩
  exact mapped.holds_iff.mpr
    ⟨_, List.getElem?_eq_getElem bounded, (Placement.holds_iff _ _).mp inside⟩

theorem isSome_sectionAt? (mapped : module.Mapped addresses)
    (holds : module.Holds index address) : (module.sectionAt? address).isSome = true := by
  rcases mapped.holds_iff.mp holds with ⟨placement, found, inside⟩
  rw [sectionAt?, List.findIdx?_isSome, List.any_eq_true]
  exact ⟨placement, List.mem_of_getElem? found, (Placement.holds_iff _ _).mpr inside⟩

/-- The symbols with the index of a section are defined in it, unless that index is 0. -/
theorem home_of_marks (bounded : index < 0xff00) {symbol : Object.Symbol}
    (marks : module.Marks index symbol) :
    (index ≠ 0 → symbol.home = .inSection index) ∧ (index = 0 → symbol.home = .undefined) := by
  have indexed := marks.1
  rcases Object.Format.home_cases symbol with ⟨zero, own⟩ | ⟨absolute, _⟩ | ⟨common, _⟩ |
    ⟨later, _, _, own⟩
  · exact ⟨fun other => absurd (indexed.symm.trans zero) other, fun _ => own⟩
  · omega
  · omega
  · exact ⟨fun _ => indexed ▸ own, fun zero => absurd (indexed.trans zero) later⟩

/-- An address of a section is told by the symbol next below it. -/
theorem locates (mapped : module.Mapped addresses) (few : module.sections.length < 0xff00)
    (here : module.sectionAt? address = some index) : ∃ attribution,
      module.attribute? address = some attribution ∧
      module.Locates addresses index address attribution := by
  rcases mapped.holds_iff.mp (mapped.holds_of_sectionAt? here) with
    ⟨placement, found, owns, above, below⟩
  have bounded : index < 0xff00 :=
    Nat.lt_trans (mapped.length_eq ▸ (List.getElem?_eq_some_iff.mp found).1) few
  have nearest := nearest_nearest? (module.placesIn index placement) address
  simp only [attribute?, here, found, Option.bind_eq_bind, Option.bind_some]
  cases chosen : nearest? (module.placesIn index placement) address with
  | none =>
      rw [chosen] at nearest
      refine ⟨_, rfl, .start placement _ found (Nat.add_sub_cancel' above) ?_⟩
      intro symbol listed marks
      exact nearest (_, _) (mem_placesIn_iff.mpr ⟨symbol, listed, marks, rfl, rfl⟩)
  | some place =>
      rw [chosen] at nearest
      rcases place with ⟨name, start⟩
      rcases nearest with ⟨listed, reached, highest⟩
      rcases mem_placesIn_iff.mp listed with ⟨symbol, member, marks, rfl, starts⟩
      rcases List.mem_iff_getElem?.mp member with ⟨position, present⟩
      rcases home_of_marks bounded marks with ⟨defined, undefined⟩
      refine ⟨_, rfl, .symbol placement position symbol start _ found present marks starts
        (Nat.add_sub_cancel' reached) ?_ ?_ undefined⟩
      · rintro other listed marks' ⟨higher, reached'⟩
        have place : (_, placement.addressAt _) ∈ module.placesIn index placement :=
          mem_placesIn_iff.mpr ⟨other, listed, marks', rfl, rfl⟩
        have lower := highest _ place reached'
        exact absurd higher (Nat.not_lt_of_le lower)
      · intro later
        exact ⟨defined later, starts ▸ mapped.address_eq present (defined later) found owns⟩

/-- A module attributes the addresses of its sections and no others. -/
theorem isSome_attribute?_iff (mapped : module.Mapped addresses)
    (few : module.sections.length < 0xff00) :
    (module.attribute? address).isSome = true ↔ ∃ index, module.Holds index address := by
  constructor
  · intro present
    cases here : module.sectionAt? address with
    | none => simp [attribute?, here] at present
    | some index => exact ⟨index, mapped.holds_of_sectionAt? here⟩
  · rintro ⟨index, holds⟩
    rcases Option.isSome_iff_exists.mp (mapped.isSome_sectionAt? holds) with ⟨other, here⟩
    rcases mapped.locates few here with ⟨attribution, told, _⟩
    rw [told, Option.isSome_some]

end Mapped

theorem mapped_of_lasting {first second : LoadedModule} (same : first.lasting = second.lasting)
    (mapped : second.Mapped addresses) : first.Mapped addresses := by
  have lasting : second.lasting.Mapped addresses :=
    ⟨mapped.length_eq, mapped.size_eq, mapped.address_eq⟩
  rw [← same] at lasting
  exact ⟨lasting.length_eq, lasting.size_eq, lasting.address_eq⟩

end LoadedModule

/-- A validated object is registered with the addresses that it was given. -/
theorem Staging.Sound.mapped {origin : Host} {holders : List Handle} {staging after : Staging}
    {object : Object} {assembly : Assembly} (sound : Sound origin holders staging [])
    (assembled : staging.assemble object = (after, .ok assembly)) (name : String) :
    (assembly.module name object after.held).Mapped assembly.addresses := by
  rcases assemble_eq_ok assembled with ⟨placed, resolved, places, resolves, _⟩
  rcases sound.filled places with ⟨length, filled⟩
  rcases (sound.placeAll places).resolves resolves with ⟨_, resolution⟩
  refine ⟨length, ?_, ?_⟩
  · intro index header placement present found owns
    rcases placement.ownsPages_iff.mp owns with ⟨lease, own⟩
    exact ((filled index header placement present found).rounds lease own).1
  · intro position index symbol placement present defined found owns
    have placed : placement.kind ≠ .unplaced := by
      intro unplaced
      simp [Placement.ownsPages, unplaced] at owns
    have found' : assembly.placements[index]? = some placement := found
    rcases resolution position symbol present with ⟨address, given, resolves⟩
    rw [given, resolves.eq_addressIn defined, addressIn, found']
    simp only [if_neg placed]

namespace Session

variable {session : Session} {address : Address}

/-- Every registered module is mapped as it was when it was assembled. -/
theorem Reachable.mapped (reachable : session.Reachable) {handle : Handle}
    {module : LoadedModule} (found : session.host.registry.get? handle = some module) :
    ∃ addresses, module.Assigned addresses ∧ module.Mapped addresses := by
  refine reachable.of_registered (motive := fun _ module =>
    ∃ addresses, module.Assigned addresses ∧ module.Mapped addresses) ?_ ?_ found
  · rintro _ first second same ⟨addresses, assigned, mapped⟩
    rcases assigned with
      ⟨host, image, object, staging, assembly, name, parsed, assembled, same', given⟩
    exact ⟨addresses, ⟨host, image, object, staging, assembly, name, parsed, assembled,
      same.trans same', given⟩, LoadedModule.mapped_of_lasting same mapped⟩
  · intro host holders image object staging assembly name accounted parsed assembled
    exact ⟨_, ⟨host, image, object, staging, assembly, name, parsed, assembled, rfl, rfl⟩,
      (Staging.sound_start accounted).mapped assembled name⟩

/-- An address of a section lies on the pages of the section. -/
theorem Sound.pages_of_holds (sound : session.Sound) {handle : Handle} {module : LoadedModule}
    (found : session.host.registry.get? handle = some module) {addresses : List Address}
    (mapped : module.Mapped addresses) {index : Nat} (holds : module.Holds index address) :
    ∃ placement lease, module.placements[index]? = some placement ∧
      placement.lease? = some lease ∧ lease ∈ module.leases ∧ lease.pages.Has address := by
  rcases mapped.holds_iff.mp holds with ⟨placement, placed, owns, above, below⟩
  rcases placement.ownsPages_iff.mp owns with ⟨lease, own⟩
  have listed : lease ∈ module.leases :=
    List.mem_append_left _ (List.mem_filterMap.mpr ⟨placement, List.mem_of_getElem? placed, own⟩)
  have rounds := (sound.accounted.leased.inside lease (mem_leases found listed)).rounds
  refine ⟨placement, lease, placed, own, listed, ?_⟩
  rw [Lease.pages_eq rounds, Placement.range_of_lease? own]
  exact ⟨above, Nat.lt_of_lt_of_le below (Nat.add_le_add_left (le_wholePages _) _)⟩

/-- An address lies in one section of one module at most. -/
theorem Reachable.holds_unique (reachable : session.Reachable) {handle other : Handle}
    {module module' : LoadedModule} (found : session.host.registry.get? handle = some module)
    (found' : session.host.registry.get? other = some module') {index index' : Nat}
    (holds : module.Holds index address) (holds' : module'.Holds index' address) :
    other = handle ∧ index' = index := by
  have sound := reachable.sound
  rcases reachable.mapped found with ⟨_, _, mapped⟩
  rcases reachable.mapped found' with ⟨_, _, mapped'⟩
  rcases sound.pages_of_holds found mapped holds with
    ⟨placement, lease, placed, own, listed, inside⟩
  rcases sound.pages_of_holds found' mapped' holds' with
    ⟨placement', lease', placed', own', listed', inside'⟩
  have same : other = handle := sound.owner_unique found found'
    ((sound.owns_iff found address).mpr ⟨lease, listed, inside⟩)
    ((sound.owns_iff found' address).mpr ⟨lease', listed', inside'⟩)
  subst same
  cases found.symm.trans found'
  refine ⟨rfl, by_contra fun different => ?_⟩
  have entry := (Registry.get?_eq_some_iff _ _ _).mp found
  have apart := (List.pairwise_flatMap.mp sound.accounted.leased.apart).1 _ entry
  have far := Placement.pages_apart (List.pairwise_append.mp apart).1 different placed placed' own
    own'
  exact far.not_has inside inside'

/-! ## All modules -/

/-- If one entry alone answers, its answer is found wherever it stands. -/
theorem findSome?_eq_of_alone {entries : List (Handle × LoadedModule)}
    {answer : Handle × LoadedModule → Option Attribution} {entry : Handle × LoadedModule}
    (listed : entry ∈ entries)
    (alone : ∀ other ∈ entries, (answer other).isSome = true → other = entry) :
    entries.findSome? answer = answer entry := by
  cases searched : entries.findSome? answer with
  | none => exact (List.findSome?_eq_none_iff.mp searched entry listed).symm
  | some attribution =>
      rcases List.exists_of_findSome?_eq_some searched with ⟨other, listed', told⟩
      rw [← alone other listed' (told ▸ rfl), told]

/-- The module that holds an address answers for it, in whatever order modules are asked. -/
theorem Reachable.findSome?_eq (reachable : session.Reachable)
    (few : ∀ entry ∈ session.host.registry.entries, entry.2.sections.length < 0xff00)
    {handle : Handle} {module : LoadedModule}
    (found : session.host.registry.get? handle = some module) {index : Nat}
    (holds : module.Holds index address) {entries : List (Handle × LoadedModule)}
    (same : List.Perm entries session.host.registry.entries) :
    entries.findSome? (fun entry => entry.2.attribute? address) = module.attribute? address := by
  have entry := (Registry.get?_eq_some_iff _ _ _).mp found
  refine findSome?_eq_of_alone (same.mem_iff.mpr entry) ?_
  rintro ⟨other, module'⟩ listed told
  have listed' := same.mem_iff.mp listed
  have found' := (Registry.get?_eq_some_iff _ _ _).mpr listed'
  rcases reachable.mapped found' with ⟨_, _, mapped'⟩
  rcases (mapped'.isSome_attribute?_iff (few _ listed')).mp told with ⟨index', holds'⟩
  rcases reachable.holds_unique found found' holds holds' with ⟨rfl, _⟩
  rw [Option.some.inj (found.symm.trans found')]

/-- Attribution goes back from the addresses that loading has given.  An address is attributed
iff it lies in a section with pages of its own, and that section is the only one, so that the
order of the modules does not matter.  The answer is the symbol of that section that starts next
below the address, at the address that it was given; but in section 0 it is an undefined symbol,
which may have got any address. -/
theorem attribution_inverts_addresses (reachable : session.Reachable)
    (few : ∀ entry ∈ session.host.registry.entries, entry.2.sections.length < 0xff00) :
    (∀ address, (session.host.attribute? address).isSome = true ↔
      ∃ handle module index, session.host.registry.get? handle = some module ∧
        module.Holds index address) ∧
    (∀ address entries, List.Perm entries session.host.registry.entries →
      entries.findSome? (fun entry => entry.2.attribute? address) =
        session.host.attribute? address) ∧
    ∀ handle module, session.host.registry.get? handle = some module →
      ∃ addresses, module.Assigned addresses ∧
        ∀ index address, module.Holds index address →
          (∀ other module' index', session.host.registry.get? other = some module' →
            module'.Holds index' address → other = handle ∧ index' = index) ∧
          ∃ attribution, session.host.attribute? address = some attribution ∧
            module.Locates addresses index address attribution := by
  have tells {entry : Handle × LoadedModule} (listed : entry ∈ session.host.registry.entries)
      (address : Address) : (entry.2.attribute? address).isSome = true ↔
        ∃ index, entry.2.Holds index address := by
    rcases reachable.mapped ((Registry.get?_eq_some_iff _ _ _).mpr listed) with ⟨_, _, mapped⟩
    exact mapped.isSome_attribute?_iff (few _ listed)
  have held (address : Address) : (session.host.attribute? address).isSome = true ↔
      ∃ handle module index, session.host.registry.get? handle = some module ∧
        module.Holds index address := by
    simp only [Host.attribute?, List.findSome?_isSome_iff, Prod.exists, Registry.get?_eq_some_iff]
    constructor
    · rintro ⟨handle, module, listed, told⟩
      rcases (tells listed address).mp told with ⟨index, holds⟩
      exact ⟨handle, module, index, listed, holds⟩
    · rintro ⟨handle, module, index, listed, holds⟩
      exact ⟨handle, module, listed, (tells listed address).mpr ⟨index, holds⟩⟩
  refine ⟨held, fun address entries same => ?_, fun handle module found => ?_⟩
  · cases told : session.host.attribute? address with
    | some attribution =>
        rcases (held address).mp (told ▸ rfl) with ⟨handle, module, index, found, holds⟩
        rw [reachable.findSome?_eq few found holds same, ← told]
        exact (reachable.findSome?_eq few found holds (List.Perm.refl _)).symm
    | none =>
        have silent := List.findSome?_eq_none_iff.mp told
        exact List.findSome?_eq_none_iff.mpr fun entry listed =>
          silent entry (same.mem_iff.mp listed)
  · rcases reachable.mapped found with ⟨addresses, assigned, mapped⟩
    refine ⟨addresses, assigned, fun index address holds => ⟨fun other module' index' found' =>
      reachable.holds_unique found found' holds, ?_⟩⟩
    rcases Option.isSome_iff_exists.mp (mapped.isSome_sectionAt? holds) with ⟨other, here⟩
    have same := (reachable.holds_unique found found holds (mapped.holds_of_sectionAt? here)).2
    subst same
    rcases mapped.locates (few _ ((Registry.get?_eq_some_iff _ _ _).mp found)) here with
      ⟨attribution, told, locates⟩
    refine ⟨attribution, ?_, locates⟩
    rw [← told]
    exact reachable.findSome?_eq few found holds (List.Perm.refl _)

set_option maxRecDepth 4096 in
/-- An address in the middle of a word, told by the symbol that stands for the word. -/
theorem attribution_inverts_addresses_word :
    ∃ host, Host.create {} ⟨[]⟩ (.filled 0) 0 = .ok host ∧
      let session := performAll { host } [.load "shares" (Object.sharing 3 2)]
      (∀ entry ∈ session.host.registry.entries, entry.2.sections.length < 0xff00) ∧
      ∃ module addresses, session.host.registry.get? ⟨0, 0⟩ = some module ∧
        module.Assigned addresses ∧ module.Holds 2 0xffffffffa8000004 ∧
        session.host.attribute? 0xffffffffa8000004 = some ⟨"shares", some "x", 4⟩ ∧
        module.Locates addresses 2 0xffffffffa8000004 ⟨"shares", some "x", 4⟩ := by
  have ran : (Host.create {} ⟨[]⟩ (.filled 0) 0).toOption.any (fun host =>
      let session := performAll { host } [.load "shares" (Object.sharing 3 2)]
      (session.host.registry.entries.all fun entry => entry.2.sections.length < 0xff00) &&
      (session.host.registry.get? ⟨0, 0⟩).any (fun module =>
        (module.sections[2]?.any fun header => header.size = 8) &&
          module.placements[2]? = some ⟨0xffffffffa8000000, 8, .data⟩) &&
      session.host.attribute? 0xffffffffa8000004 = some ⟨"shares", some "x", 4⟩) = true := by
    decide +kernel
  simp only [Option.any_eq_true, Bool.and_eq_true, List.all_eq_true, decide_eq_true_eq] at ran
  rcases ran with ⟨host, found, ⟨few, module, registered, ⟨header, present, size⟩, placed⟩, told⟩
  have created := Host.create_of_toOption found
  have reachable : Reachable _ := .step (.start created) (.load "shares" (Object.sharing 3 2))
  have inside : (⟨0xffffffffa8000000, header.size.toNat⟩ : Range).Has 0xffffffffa8000004 := by
    rw [size]
    exact ⟨by decide, by decide⟩
  have holds : module.Holds 2 0xffffffffa8000004 := ⟨header, _, present, placed, rfl, inside⟩
  rcases (attribution_inverts_addresses reachable few).2.2 _ _ registered with
    ⟨addresses, assigned, attributes⟩
  rcases (attributes _ _ holds).2 with ⟨attribution, told', locates⟩
  have same := Option.some.inj (told'.symm.trans told)
  exact ⟨host, created, few, module, addresses, registered, assigned, holds, told, same ▸ locates⟩

set_option maxRecDepth 4096 in
/-- The null section of the module takes memory.  Its start is told by the symbol `x`, which the
module does not define. -/
theorem undefined_symbol_attributed :
    ∃ host, Host.create {} ⟨[]⟩ (.filled 0) 0 = .ok host ∧
      let session := performAll { host } [.load "asks" Object.nullLoaded]
      ∃ module, session.host.registry.get? ⟨0, 0⟩ = some module ∧
        module.sections.length < 0xff00 ∧
        module.placements[0]? = some ⟨0xffffffffa8000000, 8, .data⟩ ∧
        session.host.attribute? 0xffffffffa8000000 = some ⟨"asks", some "x", 0⟩ ∧
        ∀ symbol ∈ module.symbols, symbol.home = .undefined := by
  have ran : (Host.create {} ⟨[]⟩ (.filled 0) 0).toOption.any (fun host =>
      let session := performAll { host } [.load "asks" Object.nullLoaded]
      (session.host.registry.get? ⟨0, 0⟩).any (fun module =>
        decide (module.sections.length < 0xff00) &&
          module.placements[0]? = some ⟨0xffffffffa8000000, 8, .data⟩ &&
          module.symbols.all fun symbol => symbol.home = .undefined) &&
      session.host.attribute? 0xffffffffa8000000 = some ⟨"asks", some "x", 0⟩) = true := by
    decide +kernel
  simp only [Option.any_eq_true, Bool.and_eq_true, List.all_eq_true, decide_eq_true_eq] at ran
  rcases ran with ⟨host, found, ⟨module, registered, ⟨few, placed⟩, undefined⟩, told⟩
  exact ⟨host, Host.create_of_toOption found, module, registered, few, placed, told, undefined⟩

end Session
end ModuleHost
