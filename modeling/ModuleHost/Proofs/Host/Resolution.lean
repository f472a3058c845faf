import ModuleHost.Proofs.Host.Staging
import ModuleHost.Proofs.Object

namespace ModuleHost

/-!
# The addresses of symbols

`Resolves` says which address a symbol of an object has at run time, in terms of the host
as it was before the object was staged.  References taken while symbols are resolved do
not change the answer.
-/

namespace Registry

/-- The module is the first one open to binding that exports the name. -/
def Provides (registry : Registry) (name : String) (address : Address) : Prop :=
  ∃ front handle module back, registry.entries = front ++ (handle, module) :: back ∧
    module.phase.isOpen = true ∧ module.exported? name = some address ∧
    ∀ entry ∈ front, entry.2.phase.isOpen = true → entry.2.exported? name = none

/-- No module open to binding exports the name. -/
def Lacks (registry : Registry) (name : String) : Prop :=
  ∀ entry ∈ registry.entries, entry.2.phase.isOpen = true → entry.2.exported? name = none

theorem lacks_of_resolve? {registry : Registry} {name : String}
    (missing : registry.resolve? name = none) : registry.Lacks name := by
  intro entry listed opened
  have none' := List.findSome?_eq_none_iff.mp missing entry
    (List.mem_filter.mpr ⟨listed, opened⟩)
  exact Option.map_eq_none_iff.mp none'

theorem provides_of_resolve? {registry : Registry} {name : String} {handle : Handle}
    {address : Address} (found : registry.resolve? name = some (handle, address)) :
    registry.Provides name address := by
  rcases List.findSome?_eq_some_iff.mp found with ⟨before, entry, after, split, own, earlier⟩
  rcases List.filter_eq_append_iff.mp split with ⟨front, rest, entries, kept, split'⟩
  rcases List.filter_eq_cons_iff.mp split' with ⟨closed, back, rfl, shut, opened, _⟩
  rcases Option.map_eq_some_iff.mp own with ⟨_, exported, same⟩
  cases same
  refine ⟨front ++ closed, entry.1, entry.2, back, ?_, opened, exported, ?_⟩
  · rw [entries, List.append_assoc]
  · intro other listed opened'
    rcases List.mem_append.mp listed with listed | listed
    · have open' : other ∈ before := kept ▸ List.mem_filter.mpr ⟨listed, opened'⟩
      exact Option.map_eq_none_iff.mp (earlier other open')
    · exact absurd opened' (shut other listed)

end Registry

/-- The address of a symbol at an index of the symbol table: for an undefined one the
kernel's, else that of the first module open to binding, else zero if it is weak. -/
inductive Resolves (host : Host) (object : Object) (placements : List Placement)
    (symbol : Object.Symbol) (index : Nat) : Address → Prop
  | null (undefined : symbol.home = .undefined) (first : index = 0) :
      Resolves host object placements symbol index 0
  | kernel (address : Address) (undefined : symbol.home = .undefined) (later : index ≠ 0)
      (exported : host.exports.lookup (object.symbolName symbol) = some address) :
      Resolves host object placements symbol index address
  | provider (address : Address) (undefined : symbol.home = .undefined) (later : index ≠ 0)
      (unexported : host.exports.lookup (object.symbolName symbol) = none)
      (provides : host.registry.Provides (object.symbolName symbol) address) :
      Resolves host object placements symbol index address
  | weak (undefined : symbol.home = .undefined) (later : index ≠ 0)
      (unexported : host.exports.lookup (object.symbolName symbol) = none)
      (lacks : host.registry.Lacks (object.symbolName symbol)) (weak : symbol.isWeak = true) :
      Resolves host object placements symbol index 0
  | absolute (absolute : symbol.home = .absolute) :
      Resolves host object placements symbol index symbol.value.toNat
  | placed (home : Nat) (placement : Placement) (defined : symbol.home = .inSection home)
      (found : placements[home]? = some placement) (placed : placement.kind ≠ .unplaced) :
      Resolves host object placements symbol index (placement.addressAt symbol.value.toNat)
  | unplaced (home : Nat) (defined : symbol.home = .inSection home)
      (unplaced : ∀ placement, placements[home]? = some placement → placement.kind = .unplaced) :
      Resolves host object placements symbol index 0

namespace Staging

variable {origin : Host} {holders : List Handle} {staging after : Staging} {loose : List Lease}
variable {object : Object} {placements : List Placement}

theorem resolves_importSymbol (continues : origin.Continues staging.host)
    {symbol : Object.Symbol} {index : Nat} {address : Address}
    (undefined : symbol.home = .undefined) (later : index ≠ 0)
    (imported : staging.importSymbol (object.symbolName symbol) symbol.isWeak =
      (after, .ok address)) :
    Resolves origin object placements symbol index address := by
  have exports := continues.exports_eq
  have providers := continues.alike.resolve?_eq (object.symbolName symbol)
  unfold Staging.importSymbol at imported
  rw [exports, ← providers] at imported
  cases exported : origin.exports.lookup (object.symbolName symbol) with
  | some own =>
      simp only [exported, Prod.mk.injEq, Except.ok.injEq] at imported
      exact .kernel address undefined later (imported.2 ▸ exported)
  | none =>
      simp only [exported] at imported
      cases found : origin.registry.resolve? (object.symbolName symbol) with
      | some provider =>
          simp only [found] at imported
          split at imported
          · simp at imported
          · simp only [Prod.mk.injEq, Except.ok.injEq] at imported
            refine .provider address undefined later exported ?_
            rw [← imported.2]
            exact Registry.provides_of_resolve? found
      | none =>
          simp only [found] at imported
          split at imported
          · next isWeak =>
              simp only [Prod.mk.injEq, Except.ok.injEq] at imported
              rw [← imported.2]
              exact .weak undefined later exported (Registry.lacks_of_resolve? found) isWeak
          · simp at imported

theorem resolves_assignAddress (continues : origin.Continues staging.host)
    {entry : Object.Symbol × Nat} {address : Address}
    (assigned : staging.assignAddress object placements entry = (after, .ok address)) :
    Resolves origin object placements entry.1 entry.2 address := by
  unfold Staging.assignAddress at assigned
  simp only at assigned
  cases home : entry.1.home with
  | undefined =>
      simp only [home] at assigned
      split at assigned
      · next first =>
          simp only [Prod.mk.injEq, Except.ok.injEq] at assigned
          exact assigned.2 ▸ .null home first
      · next later => exact resolves_importSymbol continues home later assigned
  | absolute =>
      simp only [home, Prod.mk.injEq, Except.ok.injEq] at assigned
      exact assigned.2 ▸ .absolute home
  | common => simp [home] at assigned
  | inSection inside =>
      simp only [home, Prod.mk.injEq, Except.ok.injEq] at assigned
      rw [← assigned.2, addressIn]
      cases found : placements[inside]? with
      | none =>
          refine .unplaced inside home fun placement found' => ?_
          rw [found] at found'
          cases found'
      | some placement =>
          simp only
          split
          · next kind =>
              refine .unplaced inside home fun placement' found' => ?_
              rw [found] at found'
              rw [← Option.some.inj found', kind]
          · next kind => exact .placed inside placement home found kind

/-- Resolving does not touch memory. -/
theorem memory_assignAddress (object : Object) (placements : List Placement)
    (staging : Staging) (entry : Object.Symbol × Nat) :
    (staging.assignAddress object placements entry).1.host.memory = staging.host.memory := by
  unfold Staging.assignAddress Staging.importSymbol
  simp only
  repeat' split
  all_goals rfl

/-- Every symbol gets the address that it resolves to on the host before the staging. -/
theorem Sound.resolves (sound : Sound origin holders staging loose) {addresses : List Address}
    (assigned : staging.assignAddresses object placements = (after, .ok addresses)) :
    after.host.memory = staging.host.memory ∧
      ∀ index symbol, object.symbols[index]? = some symbol →
        ∃ address, addresses[index]? = some address ∧
          Resolves origin object placements symbol index address := by
  have run := Stepwise.mapList_ok
    (motive := fun done state => Sound origin holders state loose ∧
      state.host.memory = staging.host.memory ∧
      ∀ item ∈ done, Resolves origin object placements item.1.1 item.1.2 item.2)
    (fun done state entry next address here step => by
      have sound' := here.1.assignAddress object placements entry
      have memory := memory_assignAddress object placements state entry
      rw [step] at sound' memory
      refine ⟨sound', memory.trans here.2.1, ?_⟩
      intro item listed
      rcases List.mem_append.mp listed with earlier | new
      · exact here.2.2 item earlier
      · rw [List.mem_singleton.mp new]
        exact resolves_assignAddress here.1.continues step)
    ⟨sound, rfl, fun _ listed => absurd listed List.not_mem_nil⟩ assigned
  rcases run with ⟨length, _, memory, resolved⟩
  refine ⟨memory, ?_⟩
  intro index symbol found
  have bounded : index < addresses.length := by
    rw [length, List.length_zipIdx]
    exact (List.getElem?_eq_some_iff.mp found).1
  refine ⟨addresses[index], List.getElem?_eq_getElem bounded, ?_⟩
  refine resolved ((symbol, index), addresses[index]) (List.mem_of_getElem? (i := index) ?_)
  rw [List.getElem?_zip_eq_some]
  refine ⟨?_, List.getElem?_eq_getElem bounded⟩
  rw [List.getElem?_zipIdx, found, Option.map_some, Nat.zero_add]

end Staging

end ModuleHost
