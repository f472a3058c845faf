import ModuleHost.Proofs.Host.Exports
import ModuleHost.Proofs.Session.Isolation

namespace ModuleHost

/-!
# What exports stand for

The exports of a module do not change while it is registered.  So at any time an export of
any module is the address of one of its symbols, and a strong symbol of another object that
is bound to a module gets such an address.

An export has something at its address unless its symbol is defined in a section without
memory, or its value is so large that the address wraps.  An export of the first kind is zero,
and strong symbols are bound to it like to any other.
-/

/-- A module open to binding offers a symbol of the name, with the address. -/
def Registry.Supplies (registry : Registry) (name : String) (address : Address) : Prop :=
  ∃ entry ∈ registry.entries, entry.2.phase.isOpen = true ∧
    ∃ symbol ∈ entry.2.symbols, entry.2.offers symbol = true ∧
      entry.2.symbolName symbol = name ∧ address = entry.2.addressOf symbol

theorem LoadedModule.accurate_of_lasting {first second : LoadedModule}
    (same : first.lasting = second.lasting) (accurate : second.Accurate) : first.Accurate := by
  have lasting : second.lasting.Accurate :=
    ⟨accurate.exports_eq, accurate.length_eq, accurate.unplaced_iff, accurate.home_lt⟩
  rw [← same] at lasting
  exact ⟨lasting.exports_eq, lasting.length_eq, lasting.unplaced_iff, lasting.home_lt⟩

namespace Session

variable {session : Session}

/-- After the first half of a load a registered module was there before, or it has been
assembled from the image. -/
theorem Sound.module_of_beginLoad (sound : session.Sound) (name : String) (image : List UInt8)
    {handle : Handle} {module : LoadedModule}
    (found : (session.advance (.beginLoad name image)).host.registry.get? handle = some module) :
    (∃ earlier, session.host.registry.get? handle = some earlier ∧
      module.lasting = earlier.lasting) ∨
    ∃ journal object staging assembly, Object.ofImage image = .ok object ∧
      Staging.assemble object { host := { session.host with journal } } =
        (staging, .ok assembly) ∧
      module.lasting = (assembly.module name object staging.held).lasting := by
  unfold Session.advance at found
  simp only at found
  cases began : session.host.beginLoad name image with
  | mk host result =>
      cases result with
      | error error =>
          rw [began] at found
          exact Or.inl
            ((sound.accounted.beginLoad_error began).2.alike.persists handle module found)
      | ok pending =>
          rw [began] at found
          rcases Host.beginLoad_eq_ok began with
            ⟨journal, object, staging, assembly, parsed, _, _, assembled, registered⟩
          have accounted := sound.accounted.aside session.host.memory journal
          have staged := (Staging.sound_start accounted).assemble assembled
          rcases Host.register_eq_ok staged.accounted.consistent registered with
            ⟨registry, changes, _, rfl, _⟩
          -- The staging has taken references on the other modules, which does not last.
          by_cases new : handle = pending.handle
          · rw [new, changes.get?_new] at found
            rw [← Option.some.inj found]
            exact Or.inr ⟨journal, object, staging, assembly, parsed, assembled, rfl⟩
          · rw [changes.get?_other new] at found
            exact Or.inl (staged.continues.alike.persists handle module found)

/-- The shared page stays where it is. -/
theorem Sound.zeroPage_advance (sound : session.Sound) (half : Half) :
    (session.advance half).host.zeroPage = session.host.zeroPage := by
  by_cases writing : ∃ address bytes, half = .write address bytes
  · rcases writing with ⟨address, bytes, rfl⟩
    rfl
  · have confined := sound.confined_advance fun address bytes same => writing ⟨address, bytes, same⟩
    exact confined.zeroPage_eq

/-- What every module has when it is registered, and what does not depend on references and
phase, every registered module has. -/
theorem Reachable.of_registered (reachable : session.Reachable)
    {motive : Address → LoadedModule → Prop}
    (lasts : ∀ zeroPage, ∀ first second : LoadedModule, first.lasting = second.lasting →
      motive zeroPage second → motive zeroPage first)
    (registers : ∀ host holders image object staging assembly name,
      Host.Accounted host holders [] → Object.ofImage image = .ok object →
      Staging.assemble object { host } = (staging, .ok assembly) →
      motive host.zeroPage (assembly.module name object staging.held))
    {handle : Handle} {module : LoadedModule}
    (found : session.host.registry.get? handle = some module) :
    motive session.host.zeroPage module := by
  refine (reachable.keeps (motive := fun session => session.Sound ∧ ∀ handle module,
    session.host.registry.get? handle = some module → motive session.host.zeroPage module)
      ?_ ?_).2 handle module found
  · intro settings exports memory zeroPage host created
    refine ⟨sound_start created, fun handle module found => ?_⟩
    rw [(Host.create_eq_ok created).1] at found
    simp [Registry.get?] at found
  · rintro session half ⟨sound, here⟩
    refine ⟨(sound.advance half).1, fun handle module found => ?_⟩
    rw [sound.zeroPage_advance half]
    -- Every half but the first of a load keeps what lasts of a module, or removes it.
    by_cases loading : ∃ name image, half = .beginLoad name image
    · rcases loading with ⟨name, image, rfl⟩
      rcases sound.module_of_beginLoad name image found with
        ⟨earlier, found', same⟩ | ⟨journal, object, staging, assembly, parsed, assembled, same⟩
      · exact lasts _ _ _ same (here handle earlier found')
      · have accounted := sound.accounted.aside session.host.memory journal
        exact lasts _ _ _ same (registers { session.host with journal } _ _ _ _ _ name accounted
          parsed assembled)
    · rcases session.persists_advance (fun name image same => loading ⟨name, image, same⟩) handle
        module found with ⟨earlier, found', same⟩
      exact lasts _ _ _ same (here handle earlier found')

/-- The exports of a registered module are accurate. -/
theorem Reachable.accurate (reachable : session.Reachable) {entry : Handle × LoadedModule}
    (listed : entry ∈ session.host.registry.entries) : entry.2.Accurate := by
  refine reachable.of_registered (motive := fun _ module => module.Accurate)
    (fun _ _ _ => LoadedModule.accurate_of_lasting) ?_
    ((Registry.get?_eq_some_iff _ entry.1 entry.2).mpr listed)
  intro host holders image object staging assembly name accounted parsed assembled
  exact (Staging.sound_start accounted).accurate parsed assembled name

theorem Reachable.supplies (reachable : session.Reachable) {name : String} {address : Address}
    (provides : session.host.registry.Provides name address) :
    session.host.registry.Supplies name address := by
  rcases provides with ⟨front, handle, module, back, entries, opened, exported, _⟩
  have listed : (handle, module) ∈ session.host.registry.entries :=
    entries ▸ List.mem_append_right _ List.mem_cons_self
  exact ⟨(handle, module), listed, opened, (reachable.accurate listed).exists_of_exported exported⟩

/-- A strong symbol that the kernel does not export gets the address of a symbol that a
module offers. -/
theorem Reachable.strong_supplied (reachable : session.Reachable) {journal : List Notice}
    {object : Object} {staging : Staging} {assembly : Assembly}
    (assembled : Staging.assemble object { host := { session.host with journal } } =
      (staging, .ok assembly))
    {index : Nat} {symbol : Object.Symbol} (present : object.symbols[index]? = some symbol)
    (undefined : symbol.home = .undefined) (later : index ≠ 0) (strong : symbol.isWeak = false)
    (unexported : session.host.exports.lookup (object.symbolName symbol) = none) :
    ∃ address, assembly.addresses[index]? = some address ∧
      session.host.registry.Supplies (object.symbolName symbol) address := by
  have accounted := reachable.sound.accounted.aside session.host.memory journal
  rcases Staging.assemble_eq_ok assembled with ⟨placed, resolved, places, resolves, _⟩
  rcases ((Staging.sound_start accounted).placeAll places).resolves resolves with ⟨_, resolution⟩
  rcases resolution index symbol present with ⟨address, given, resolves⟩
  refine ⟨address, given, ?_⟩
  cases resolves with
  | null _ first => exact absurd first later
  | kernel _ _ _ exported =>
      have exported' : session.host.exports.lookup (object.symbolName symbol) = some address :=
        exported
      rw [unexported] at exported'
      cases exported'
  | provider _ _ _ _ provides => exact reachable.supplies provides
  | weak _ _ _ _ weak =>
      rw [strong] at weak
      cases weak
  | absolute absolute => simp [undefined] at absolute
  | placed _ _ defined => simp [undefined] at defined
  | unplaced _ defined => simp [undefined] at defined

/-- A module exports exactly the symbols that it offers, at their addresses.  Such a symbol
has something at its address unless it is defined in a section without memory, or its address has
wrapped.  In the first case there is no place for it, and the address is zero; in a section with
memory the address is the sum of start and value, as far as that goes.  A strong symbol of an
object that is loaded, if the kernel does not export it, gets such an address of a module's
symbol. -/
theorem exports_backed_unless_dangling (reachable : session.Reachable) :
    (∀ entry ∈ session.host.registry.entries,
      entry.2.exports = (entry.2.symbols.filter entry.2.offers).map (fun symbol =>
        (entry.2.symbolName symbol, entry.2.addressOf symbol)) ∧
      ∀ symbol ∈ entry.2.symbols, entry.2.offers symbol = true →
        (entry.2.Backed symbol (entry.2.addressOf symbol) ↔
          ¬entry.2.Dangling symbol ∧ ¬entry.2.Wraps symbol) ∧
        (entry.2.Dangling symbol → entry.2.addressOf symbol = 0 ∧
          ∀ address, ¬entry.2.Backed symbol address) ∧
        ∀ home placement, symbol.home = .inSection home →
          entry.2.placements[home]? = some placement → placement.kind ≠ .unplaced →
            entry.2.addressOf symbol =
              (placement.address + symbol.value.toNat) % addressLimit) ∧
    ∀ (journal : List Notice) (object : Object) (staging : Staging) (assembly : Assembly),
      Staging.assemble object { host := { session.host with journal } } =
        (staging, .ok assembly) →
      ∀ (index : Nat) symbol, object.symbols[index]? = some symbol → index ≠ 0 →
        symbol.home = .undefined → symbol.isWeak = false →
        session.host.exports.lookup (object.symbolName symbol) = none →
        ∃ address, assembly.addresses[index]? = some address ∧
          session.host.registry.Supplies (object.symbolName symbol) address := by
  constructor
  · intro entry listed
    have accurate := reachable.accurate listed
    refine ⟨accurate.exports_eq, fun symbol member offered => ?_⟩
    have backed := accurate.backed_iff_not_dangling member offered
    exact ⟨backed.1, backed.2, fun _ _ => LoadedModule.addressOf_of_placed⟩
  · intro journal object staging assembly assembled index symbol present later undefined strong
    exact reachable.strong_supplied assembled present undefined later strong

set_option maxRecDepth 4096 in
/-- The export of a module whose word takes memory, and an object whose strong symbol gets the
address of the word. -/
theorem exports_backed_word :
    ∃ host, Host.create {} ⟨[]⟩ (.filled 0) 0 = .ok host ∧
      let session := performAll { host } [.load "shares" (Object.sharing 3 2)]
      (∃ entry ∈ session.host.registry.entries, ∃ symbol ∈ entry.2.symbols,
        entry.2.exports = [("x", 0xffffffffa8000000)] ∧ entry.2.symbolName symbol = "x" ∧
        entry.2.Backed symbol 0xffffffffa8000000) ∧
      ∃ object staging assembly symbol, Object.ofImage (Object.sharing 3 0) = .ok object ∧
        Staging.assemble object { host := { session.host with journal := [] } } =
          (staging, .ok assembly) ∧
        object.symbols[1]? = some symbol ∧ symbol.home = .undefined ∧ symbol.isWeak = false ∧
        assembly.addresses[1]? = some 0xffffffffa8000000 ∧
        session.host.registry.Supplies (object.symbolName symbol) 0xffffffffa8000000 := by
  have ran : (Host.create {} ⟨[]⟩ (.filled 0) 0).toOption.any (fun host =>
      let session := performAll { host } [.load "shares" (Object.sharing 3 2)]
      (session.host.registry.entries.map fun entry => entry.2.exports) =
          [[("x", 0xffffffffa8000000)]] &&
        (session.host.registry.entries.all fun entry => entry.2.placements.all fun placement =>
          entry.2.symbols.all fun symbol =>
            placement.address + symbol.value.toNat < addressLimit) &&
        (Object.ofImage (Object.sharing 3 0)).toOption.any fun object =>
          (Staging.assemble object
            { host := { session.host with journal := [] } }).2.toOption.any (fun assembly =>
              assembly.addresses[1]? = some 0xffffffffa8000000) &&
          object.symbols[1]?.any fun symbol =>
            symbol.home = .undefined && !symbol.isWeak &&
              (session.host.exports.lookup (object.symbolName symbol)).isNone) = true := by
    decide +kernel
  simp only [Option.any_eq_true, List.all_eq_true, Bool.and_eq_true, Bool.not_eq_true',
    decide_eq_true_eq, Option.isNone_iff_eq_none] at ran
  rcases ran with ⟨host, found, ⟨outcome, small⟩, object, parsed, ⟨assembly, assembled, given⟩,
    strong, present, ⟨undefined, required⟩, unexported⟩
  have created := Host.create_of_toOption found
  have reachable : Reachable _ := .step (.start created) (.load "shares" (Object.sharing 3 2))
  have exporting := exports_backed_unless_dangling reachable
  refine ⟨host, created, ?_, object, _, assembly, strong, ok_of_toOption parsed,
    Prod.ext rfl (ok_of_toOption assembled), present, undefined, required, given, ?_⟩
  · rcases List.map_eq_singleton_iff.mp outcome with ⟨entry, entries, exports⟩
    have listed : entry ∈ _ := entries ▸ List.mem_singleton_self entry
    rcases exporting.1 entry listed with ⟨accurate, backed⟩
    rcases List.map_eq_singleton_iff.mp (accurate.symm.trans exports) with ⟨symbol, kept, same⟩
    rcases Prod.mk.inj same with ⟨named, located⟩
    rcases List.mem_filter.mp (kept ▸ List.mem_singleton_self symbol) with ⟨member, offered⟩
    rcases backed symbol member offered with ⟨backed, dangling, -⟩
    rw [located] at backed dangling
    refine ⟨entry, listed, symbol, member, exports, named, backed.mpr ⟨?_, ?_⟩⟩
    · exact fun without => absurd (dangling without).1 (by decide)
    · rintro ⟨home, placement, _, placed, _, large⟩
      have fits := small entry listed placement (List.mem_of_getElem? placed) symbol member
      exact Nat.not_lt_of_le large fits
  · rcases exporting.2 [] object _ assembly (Prod.ext rfl (ok_of_toOption assembled)) 1 strong
      present (by decide) undefined required unexported with ⟨address, given', supplied⟩
    rcases Option.some.inj (given.symm.trans given')
    exact supplied

set_option maxRecDepth 4096 in
/-- The word of the provider takes no memory.  It is exported at address zero, where nothing
of the provider is, and the strong symbol of the other module is bound to that. -/
theorem dangling_export_bound :
    ∃ host, Host.create {} ⟨[]⟩ (.filled 0) 0 = .ok host ∧
      let session := performAll { host }
        [.load "shares" (Object.sharing 0 2), .load "asks" (Object.sharing 3 0)]
      ∃ provider asker, session.host.registry.get? ⟨0, 0⟩ = some provider ∧
        session.host.registry.get? ⟨1, 0⟩ = some asker ∧
        provider.exports = [("x", 0)] ∧
        (∀ symbol ∈ provider.symbols, ¬provider.Backed symbol 0) ∧
        asker.phase = .live ∧ asker.dependencies = [⟨0, 0⟩] ∧
        (∃ symbol ∈ asker.symbols, asker.symbolName symbol = "x" ∧ symbol.home = .undefined ∧
          symbol.isWeak = false) ∧
        asker.placements[2]? = some ⟨0xffffffffa8000000, 8, .data⟩ ∧
        session.host.memory.read 0xffffffffa8000000 8 = List.replicate 8 0 := by
  have ran : (Host.create {} ⟨[]⟩ (.filled 0) 0).toOption.any (fun host =>
      let session := performAll { host }
        [.load "shares" (Object.sharing 0 2), .load "asks" (Object.sharing 3 0)]
      (session.host.registry.get? ⟨0, 0⟩).any (fun provider =>
        provider.exports = [("x", 0)] &&
          (provider.symbols.all fun symbol => symbol.home ≠ .absolute) &&
          provider.placements.all fun placement => placement.kind = .unplaced) &&
      (session.host.registry.get? ⟨1, 0⟩).any (fun asker =>
        asker.phase = .live && asker.dependencies = [⟨0, 0⟩] &&
          (asker.symbols.any fun symbol =>
            asker.symbolName symbol = "x" && symbol.home = .undefined && !symbol.isWeak) &&
          asker.placements[2]? = some ⟨0xffffffffa8000000, 8, .data⟩) &&
      session.host.memory.read 0xffffffffa8000000 8 = List.replicate 8 0) = true := by
    decide +kernel
  simp only [Option.any_eq_true, Bool.and_eq_true, List.all_eq_true, List.any_eq_true,
    Bool.not_eq_true', decide_eq_true_eq] at ran
  rcases ran with ⟨host, found, ⟨⟨provider, registered, ⟨exports, relative⟩, unplaced⟩,
    asker, registered', ⟨⟨live, bound⟩, symbol, listed, ⟨named, undefined⟩, strong⟩, placed⟩, word⟩
  refine ⟨host, Host.create_of_toOption found, provider, asker, registered, registered', exports,
    ?_, live, bound, ⟨symbol, listed, named, undefined, strong⟩, placed, word⟩
  rintro symbol listed (⟨absolute, _⟩ | ⟨home, placement, _, found, placed, _⟩)
  · exact relative symbol listed absolute
  · exact placed (unplaced placement (List.mem_of_getElem? found))

end Session
end ModuleHost
