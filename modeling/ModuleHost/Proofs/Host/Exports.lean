import ModuleHost.Proofs.Host.Assembling
import ModuleHost.Proofs.Host.Resolution
import ModuleHost.Proofs.Object.Validation

namespace ModuleHost

/-!
# Exported addresses

A module exports its visible symbols at the addresses that they have got from its
placements.  An absolute symbol has its value for an address, and a symbol in a section with
memory lies behind the start of that section, unless its value is so large that the sum wraps.
A symbol in a section without memory has no place; its address is zero, and it is exported all
the same.
-/

/-- An address is the sum unless the sum wraps. -/
theorem Placement.addressAt_eq_iff {placement : Placement} {value : Nat} :
    placement.addressAt value = placement.address + value ↔
      placement.address + value < addressLimit := by
  constructor
  · intro same
    rw [← same, addressAt]
    exact Nat.mod_lt _ (by decide)
  · exact Nat.mod_eq_of_lt

namespace LoadedModule

/-- Other modules can bind to the symbol: it is visible, defined and named, and no entry
point. -/
def offers (module : LoadedModule) (symbol : Object.Symbol) : Bool :=
  let name := module.symbolName symbol
  symbol.isVisible && !symbol.isUndefined && symbol.home ≠ .common && name ≠ "" &&
    name ≠ Assembly.initSymbol && name ≠ Assembly.exitSymbol

/-- The address that a symbol gets from the placements of its module. -/
def addressOf (module : LoadedModule) (symbol : Object.Symbol) : Address :=
  match symbol.home with
  | .absolute => symbol.value.toNat
  | .inSection home => Staging.addressIn module.placements home symbol.value.toNat
  | .undefined | .common => 0

/-- The symbol is defined in a section without memory. -/
def Dangling (module : LoadedModule) (symbol : Object.Symbol) : Prop :=
  ∃ home header, symbol.home = .inSection home ∧ module.sections[home]? = some header ∧
    header.isOmitted = true

/-- The symbol is defined in a section with memory, and the sum of its value and the start of the
section is no address. -/
def Wraps (module : LoadedModule) (symbol : Object.Symbol) : Prop :=
  ∃ home placement, symbol.home = .inSection home ∧
    module.placements[home]? = some placement ∧ placement.kind ≠ .unplaced ∧
    addressLimit ≤ placement.address + symbol.value.toNat

/-- What the symbol stands for is at the address: it is absolute, or it is defined in a
section with memory and the address is as far behind the start as its value says. -/
def Backed (module : LoadedModule) (symbol : Object.Symbol) (address : Address) : Prop :=
  (symbol.home = .absolute ∧ address = symbol.value.toNat) ∨
    ∃ home placement, symbol.home = .inSection home ∧
      module.placements[home]? = some placement ∧ placement.kind ≠ .unplaced ∧
      address = placement.address + symbol.value.toNat

/-- The exports of a module are its symbols at their addresses, and its placements those of
its sections. -/
structure Accurate (module : LoadedModule) : Prop where
  exports_eq : module.exports = (module.symbols.filter module.offers).map fun symbol =>
    (module.symbolName symbol, module.addressOf symbol)
  length_eq : module.placements.length = module.sections.length
  unplaced_iff : ∀ (index : Nat) header placement, module.sections[index]? = some header →
    module.placements[index]? = some placement →
      (placement.kind = .unplaced ↔ header.isOmitted = true)
  home_lt : ∀ symbol ∈ module.symbols, ∀ home, symbol.home = .inSection home →
    home < module.sections.length

variable {module : LoadedModule} {symbol : Object.Symbol} {address : Address} {name : String}

theorem home_of_offers (offered : module.offers symbol = true) :
    symbol.home = .absolute ∨ ∃ home, symbol.home = .inSection home := by
  simp only [offers, Object.Symbol.isUndefined, Bool.and_eq_true, Bool.not_eq_true',
    decide_eq_false_iff_not, decide_eq_true_eq] at offered
  rcases offered with ⟨⟨⟨⟨⟨_, defined⟩, owned⟩, _⟩, _⟩, _⟩
  cases home : symbol.home with
  | undefined => exact absurd home defined
  | absolute => exact Or.inl rfl
  | common => exact absurd home owned
  | inSection index => exact Or.inr ⟨index, rfl⟩

/-! ## Symbols of one section -/

section
variable {home : Nat} {header : Object.Section} {placement : Placement}

theorem dangling_iff (defined : symbol.home = .inSection home)
    (present : module.sections[home]? = some header) :
    module.Dangling symbol ↔ header.isOmitted = true := by
  simp [Dangling, defined, present]

theorem backed_iff (defined : symbol.home = .inSection home)
    (found : module.placements[home]? = some placement) : module.Backed symbol address ↔
      placement.kind ≠ .unplaced ∧ address = placement.address + symbol.value.toNat := by
  simp [Backed, defined, found]

theorem addressOf_eq (defined : symbol.home = .inSection home)
    (found : module.placements[home]? = some placement) : module.addressOf symbol =
      if placement.kind = .unplaced then 0 else placement.addressAt symbol.value.toNat := by
  simp only [addressOf, defined, Staging.addressIn, found]

theorem wraps_iff (defined : symbol.home = .inSection home)
    (found : module.placements[home]? = some placement) : module.Wraps symbol ↔
      placement.kind ≠ .unplaced ∧ addressLimit ≤ placement.address + symbol.value.toNat := by
  simp [Wraps, defined, found]

end

/-- In a section with memory the address is the sum, or what is left of the sum. -/
theorem addressOf_of_placed {home : Nat} {placement : Placement}
    (defined : symbol.home = .inSection home)
    (found : module.placements[home]? = some placement) (placed : placement.kind ≠ .unplaced) :
    module.addressOf symbol =
      (placement.address + symbol.value.toNat) % addressLimit := by
  rw [addressOf_eq defined found, if_neg placed, Placement.addressAt]

namespace Accurate

/-- A symbol that is offered has a place at its address, unless it has none at all or its
address has wrapped. -/
theorem backed_iff_not_dangling (accurate : module.Accurate) (listed : symbol ∈ module.symbols)
    (offered : module.offers symbol = true) :
    (module.Backed symbol (module.addressOf symbol) ↔
      ¬module.Dangling symbol ∧ ¬module.Wraps symbol) ∧
    (module.Dangling symbol → module.addressOf symbol = 0 ∧
      ∀ address, ¬module.Backed symbol address) := by
  rcases home_of_offers offered with absolute | ⟨home, defined⟩
  · have backed : module.Backed symbol (module.addressOf symbol) :=
      .inl ⟨absolute, by rw [addressOf, absolute]⟩
    have here : ¬module.Dangling symbol ∧ ¬module.Wraps symbol := by
      simp [Dangling, Wraps, absolute]
    exact ⟨iff_of_true backed here, fun dangling => absurd dangling here.1⟩
  · have bounded := accurate.home_lt symbol listed home defined
    have present := List.getElem?_eq_getElem bounded
    have found := List.getElem?_eq_getElem (accurate.length_eq ▸ bounded)
    have unplaced := accurate.unplaced_iff home _ _ present found
    simp only [backed_iff defined found, addressOf_eq defined found, dangling_iff defined present,
      wraps_iff defined found]
    by_cases omitted : module.sections[home].isOmitted = true
    · have kind := unplaced.mpr omitted
      exact ⟨iff_of_false (fun backed => backed.1 kind) fun apart => apart.1 omitted,
        fun _ => ⟨if_pos kind, fun address backed => backed.1 kind⟩⟩
    · have kind := mt unplaced.mp omitted
      refine ⟨?_, fun dangling => absurd dangling omitted⟩
      simp only [kind, omitted, ne_eq, not_false_eq_true, true_and, if_false,
        Bool.false_eq_true, Placement.addressAt_eq_iff, not_le]

/-- What is exported under a name is the address of a symbol of that name. -/
theorem exists_of_exported (accurate : module.Accurate)
    (exported : module.exported? name = some address) :
    ∃ symbol ∈ module.symbols, module.offers symbol = true ∧
      module.symbolName symbol = name ∧ address = module.addressOf symbol := by
  rcases Option.map_eq_some_iff.mp exported with ⟨⟨title, _⟩, found, rfl⟩
  have listed := List.mem_of_find?_eq_some found
  have named : title = name := by simpa using List.find?_some found
  rw [accurate.exports_eq] at listed
  rcases List.mem_map.mp listed with ⟨symbol, kept, same⟩
  rcases List.mem_filter.mp kept with ⟨member, offered⟩
  rcases Prod.mk.inj same with ⟨rfl, rfl⟩
  exact ⟨symbol, member, offered, named, rfl⟩

end Accurate
end LoadedModule

namespace Staging

variable {origin : Host} {holders : List Handle} {staging after : Staging} {loose : List Lease}
variable {object : Object} {header : Object.Section} {placement : Placement}
variable {placements : List Placement} {assembly : Assembly}

/-- Only a section without memory is left unplaced. -/
theorem unplaced_iff_of_place (placed : Staging.place object staging header =
    (after, .ok placement)) : placement.kind = .unplaced ↔ header.isOmitted = true := by
  cases place_cases placed with
  | omitted absent => exact iff_of_true rfl absent
  | shared present => exact iff_of_false nofun (Bool.eq_false_iff.mp present)
  | given present =>
      refine iff_of_false ?_ (Bool.eq_false_iff.mp present)
      cases windowFor header <;> nofun

theorem unplaced_iff_of_placeAll
    (placed : Staging.placeAll object staging = (after, .ok placements)) :
    placements.length = object.sections.length ∧
      ∀ (index : Nat) header placement, object.sections[index]? = some header →
        placements[index]? = some placement →
          (placement.kind = .unplaced ↔ header.isOmitted = true) := by
  have run := Stepwise.mapList_ok
    (motive := fun done _ => ∀ entry ∈ done,
      entry.2.kind = .unplaced ↔ Object.Section.isOmitted entry.1 = true)
    (fun done state header after placement here step entry listed => by
      rcases List.mem_append.mp listed with earlier | new
      · exact here entry earlier
      · rw [List.mem_singleton.mp new]
        exact unplaced_iff_of_place step)
    (fun _ listed => absurd listed List.not_mem_nil) placed
  refine ⟨run.1, fun index header placement present found => ?_⟩
  refine run.2 (header, placement) (List.mem_of_getElem? (i := index) ?_)
  exact List.getElem?_zip_eq_some.mpr ⟨present, found⟩

end Staging

open Object.Format in
/-- A symbol is defined in a section of its object, if in any. -/
theorem Object.home_lt_of_ofImage {image : List UInt8} {object : Object}
    (parsed : ofImage image = .ok object) {symbol : Symbol} (listed : symbol ∈ object.symbols)
    {home : Nat} (defined : symbol.home = .inSection home) : home < object.sections.length := by
  have validates := (ofImage_eq_ok_iff.mp parsed).2
  have count : object.sections.length = sectionCount image := by
    rw [validates.made, Format.sections, List.length_map, List.length_range]
  rcases List.mem_iff_getElem?.mp listed with ⟨index, found⟩
  have faultless := List.findSome?_eq_none_iff.mp validates.symbols (symbol, index)
    (List.mem_zipIdx_iff_getElem?.mpr found)
  have bounds := ((symbolFault?_eq_none _ _ symbol index).mp faultless).1
  rcases home_cases symbol with ⟨_, own⟩ | ⟨_, own⟩ | ⟨_, own⟩ | ⟨zero, absolute, common, own⟩
  · simp [own] at defined
  · simp [own] at defined
  · simp [own] at defined
  · rw [own] at defined
    cases defined
    omega

section
variable {host : Host} {object : Object} {placements : List Placement} {symbol : Object.Symbol}
variable {index : Nat} {address : Address}

/-- A symbol that is defined in a section gets its address from the placement of the section. -/
theorem Resolves.eq_addressIn (resolves : Resolves host object placements symbol index address)
    {home : Nat} (defined : symbol.home = .inSection home) :
    address = Staging.addressIn placements home symbol.value.toNat := by
  unfold Staging.addressIn
  cases resolves with
  | null undefined | kernel _ undefined | provider _ undefined | weak undefined =>
      simp [undefined] at defined
  | absolute absolute => simp [absolute] at defined
  | placed home' placement defined' found placed =>
      cases defined.symm.trans defined'
      simp only [found, if_neg placed]
  | unplaced home' defined' unplaced =>
      cases defined.symm.trans defined'
      split
      · next placement found => rw [if_pos (unplaced placement found)]
      · rfl

/-- A symbol that its own object defines gets its address from the placements. -/
theorem Resolves.eq_addressOf {module : LoadedModule}
    (resolves : Resolves host object placements symbol index address)
    (same : module.placements = placements) (offered : module.offers symbol = true) :
    address = module.addressOf symbol := by
  unfold LoadedModule.addressOf
  rcases LoadedModule.home_of_offers offered with absolute | ⟨home, defined⟩
  · simp only [absolute]
    cases resolves with
    | absolute _ => rfl
    | null undefined | kernel _ undefined | provider _ undefined | weak undefined =>
        simp [undefined] at absolute
    | placed _ _ defined | unplaced _ defined => simp [defined] at absolute
  · simp only [defined, same]
    exact resolves.eq_addressIn defined

end

namespace Assembly

/-- The module exports the symbols that it offers, if these have the addresses that its
placements give them. -/
theorem exports_eq (assembly : Assembly) (name : String) (object : Object) (held : List Handle)
    (length : assembly.addresses.length = object.symbols.length)
    (given : ∀ entry ∈ object.symbols.zip assembly.addresses,
      (assembly.module name object held).offers entry.1 = true →
        entry.2 = (assembly.module name object held).addressOf entry.1) :
    assembly.exports object =
      (object.symbols.filter (assembly.module name object held).offers).map fun symbol =>
        (object.symbolName symbol, (assembly.module name object held).addressOf symbol) := by
  let module := assembly.module name object held
  let located (symbol : Object.Symbol) := (object.symbolName symbol, module.addressOf symbol)
  let exported (symbol : Object.Symbol) : Option (String × Address) :=
    if module.offers symbol = true then some (located symbol) else none
  have entries : assembly.exports object =
      (object.symbols.zip assembly.addresses).filterMap (exported ∘ Prod.fst) := by
    refine List.filterMap_congr ?_
    rintro ⟨symbol, address⟩ listed
    -- Only here the addresses must agree: an undefined symbol has that of another module.
    by_cases offered : module.offers symbol = true
    · rw [show address = module.addressOf symbol from given _ listed offered]
      exact (if_pos offered).trans (if_pos offered).symm
    · exact (if_neg offered).trans (if_neg offered).symm
  have symbols : (object.symbols.zip assembly.addresses).map Prod.fst = object.symbols :=
    List.map_fst_zip length.ge
  calc assembly.exports object
      = object.symbols.filterMap exported := by rw [entries, ← List.filterMap_map, symbols]
    _ = (object.symbols.filter module.offers).filterMap (some ∘ located) :=
        List.filterMap_filter.symm
    _ = (object.symbols.filter module.offers).map located := by rw [List.filterMap_eq_map]

end Assembly

namespace Staging

/-- A validated object is registered with its symbols exported accurately. -/
theorem Sound.accurate (sound : Sound origin holders staging []) {bytes : List UInt8}
    (parsed : Object.ofImage bytes = .ok object)
    (assembled : staging.assemble object = (after, .ok assembly)) (name : String) :
    (assembly.module name object after.held).Accurate := by
  rcases assemble_eq_ok assembled with ⟨placed, resolved, places, resolves, _⟩
  rcases unplaced_iff_of_placeAll places with ⟨length, unplaced⟩
  rcases (sound.placeAll places).resolves resolves with ⟨_, resolution⟩
  refine ⟨?_, length, unplaced, fun symbol listed home => Object.home_lt_of_ofImage parsed listed⟩
  refine assembly.exports_eq name object after.held ?_ fun entry listed offered => ?_
  · have run := Stepwise.mapList_ok (motive := fun _ _ => True)
      (fun _ _ _ _ _ _ _ => trivial) trivial resolves
    rw [run.1, List.length_zipIdx]
  · rcases List.mem_iff_getElem?.mp listed with ⟨index, found⟩
    rcases List.getElem?_zip_eq_some.mp found with ⟨present, address⟩
    rcases resolution index entry.1 present with ⟨address', address'', resolves⟩
    rw [address] at address''
    cases address''
    exact resolves.eq_addressOf rfl offered

end Staging
end ModuleHost
