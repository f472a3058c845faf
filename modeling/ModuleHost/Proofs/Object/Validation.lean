import ModuleHost.Proofs.Object
import ModuleHost.Proofs.Object.Reading

namespace ModuleHost
namespace Object

/-!
# Validation accepts the well-formed images

Each check of the validation is one clause of the format, said of the sections at their
indices.  An image passes all of them exactly if it is well-formed, and what validation
yields then is what the image says.
-/

open Endian (slice)

variable {image : List UInt8} {object : Object} {machine : Machine}

/-! ## The header -/

theorem eq_numberAt_two (position number : Nat) (small : number < 2 ^ 16) :
    UInt16.ofNat (numberAt image position 2) = UInt16.ofNat number ↔
      numberAt image position 2 = number := by
  rw [← UInt16.toNat_inj, toNat_numberAt_two, UInt16.toNat_ofNat_of_lt' small]

theorem eq_numberAt_four (position number : Nat) (small : number < 2 ^ 32) :
    UInt32.ofNat (numberAt image position 4) = UInt32.ofNat number ↔
      numberAt image position 4 = number := by
  rw [← UInt32.toNat_inj, toNat_numberAt_four, UInt32.toNat_ofNat_of_lt' small]

/-- A byte of the identification. -/
theorem ident_eq_some_iff (long : 64 ≤ image.length) {position number : Nat} (early : position < 16)
    (small : number < 2 ^ 8) : (image.take 16)[position]? = some (UInt8.ofNat number) ↔
      numberAt image position 1 = number := by
  have inside : position < image.length := by omega
  rw [List.getElem?_take_of_lt early, List.getElem?_eq_getElem inside, Option.some.injEq,
    ← UInt8.toNat_inj, UInt8.toNat_ofNat_of_lt' small]
  simp [numberAt, inside]

theorem ofCode?_eq_some_iff (position : Nat) :
    Machine.ofCode? (.ofNat (numberAt image position 2)) = some machine ↔
      machine.code.toNat = numberAt image position 2 := by
  constructor
  · intro found
    have same : machine.code = .ofNat (numberAt image position 2) := by
      unfold Machine.ofCode? at found
      simpa using List.find?_some found
    rw [same, toNat_numberAt_two]
  · intro same
    rw [← same, UInt16.ofNat_toNat, Machine.ofCode?_code]

namespace Format

/-! ## The sections -/

theorem toNat_sectionCount : (headerRecord image).sectionCount.toNat = sectionCount image :=
  toNat_numberAt_two image 60

theorem toNat_namesIndex : (headerRecord image).namesIndex.toNat = namesIndex image :=
  toNat_numberAt_two image 62

theorem toNat_sectionOffset : (headerRecord image).sectionOffset.toNat = numberAt image 40 8 :=
  toNat_numberAt_eight image 40

theorem records_headers (table : numberAt image 40 8 + 64 * sectionCount image ≤ image.length) :
    (records sectionHeaderSize (slice image (headerRecord image).sectionOffset.toNat
      ((headerRecord image).sectionCount.toNat * sectionHeaderSize))).map Section.decode =
        sections image := by
  rw [toNat_sectionOffset, toNat_sectionCount]
  have inside : numberAt image 40 8 + sectionCount image * sectionHeaderSize ≤ image.length := by
    rw [sectionHeaderSize, Nat.mul_comm]
    exact table
  rw [records_slice image _ _ (by decide) inside, List.map_map, sections]
  exact List.map_congr_left fun index _ => decode_section image _

theorem getElem?_sections (index : Nat) :
    (sections image)[index]? = if index < sectionCount image then some (sectionAt image index)
      else none := by
  rw [sections, List.getElem?_map]
  split
  · next inside => rw [List.getElem?_range inside, Option.map_some]
  · next outside =>
      rw [List.getElem?_eq_none (by simpa using outside), Option.map_none]

theorem zipIdx_sections : (sections image).zipIdx =
    (List.range (sectionCount image)).map fun index => (sectionAt image index, index) :=
  List.ext_getElem (by simp [sections]) (by simp [sections])

theorem kind_eq_iff (index number : Nat) (small : number < 2 ^ 32) :
    (sectionAt image index).kind = .ofNat number ↔ kind image index = number :=
  eq_numberAt_four _ number small

theorem toNat_offset (index : Nat) : (sectionAt image index).offset.toNat = offset image index :=
  toNat_numberAt_eight image _

theorem toNat_size (index : Nat) : (sectionAt image index).size.toNat = size image index :=
  toNat_numberAt_eight image _

theorem toNat_link (index : Nat) : (sectionAt image index).link.toNat = link image index :=
  toNat_numberAt_four image _

theorem toNat_info (index : Nat) : (sectionAt image index).info.toNat = info image index :=
  toNat_numberAt_four image _

theorem toNat_entrySize (index : Nat) :
    (sectionAt image index).entrySize.toNat = entrySize image index :=
  toNat_numberAt_eight image _

theorem claimed?_eq (index : Nat) : claimed? image (sectionAt image index) =
    if offset image index + size image index ≤ image.length then some (contents image index)
    else none := by
  unfold claimed?
  rw [toNat_offset, toNat_size]
  rfl

theorem claimed_eq {index : Nat}
    (inside : offset image index + size image index ≤ image.length) :
    claimed image (sectionAt image index) = contents image index := by
  rw [claimed, claimed?_eq, if_pos inside, Option.getD_some]

/-- Every section with contents has them in the image. -/
def Inside (image : List UInt8) : Prop :=
  ∀ index < sectionCount image, kind image index ≠ 0 → kind image index ≠ 8 →
    offset image index + size image index ≤ image.length

theorem sectionFault?_eq_none_iff : sectionFault? image (sections image) = none ↔ Inside image := by
  have null (index : Nat) : (sectionAt image index).kind = kindNull ↔ kind image index = 0 :=
    kind_eq_iff index 0 (by decide)
  have noBits (index : Nat) : (sectionAt image index).isNoBits = true ↔ kind image index = 8 :=
    decide_eq_true_iff.trans (kind_eq_iff index 8 (by decide))
  simp only [sectionFault?, zipIdx_sections, List.findSome?_eq_none_iff, List.mem_map,
    List.mem_range, forall_exists_index, and_imp, forall_apply_eq_imp_iff₂, null, noBits]
  refine forall₂_congr fun index _ => ?_
  rw [claimed?_eq]
  by_cases isNull : kind image index = 0
  · simp [isNull]
  · by_cases isNoBits : kind image index = 8
    · simp [isNoBits]
    · simp [isNull, isNoBits]

/-- A string table is a section of that kind. -/
theorem stringTable?_eq_some_iff (inside : Inside image) {index : Nat} {names : List UInt8} :
    stringTable? image (sections image) index = some names ↔
      index < sectionCount image ∧ kind image index = 3 ∧ names = contents image index := by
  have strings : (sectionAt image index).kind = kindStrings ↔ kind image index = 3 :=
    kind_eq_iff index 3 (by decide)
  unfold stringTable?
  rw [getElem?_sections]
  by_cases bounded : index < sectionCount image
  · by_cases tabled : kind image index = 3
    · have held := claimed_eq (inside index bounded (by omega) (by omega))
      simp [bounded, strings, tabled, held, eq_comm]
    · simp [bounded, strings, tabled]
  · simp [bounded]

/-! ## The symbol table -/

/-- The indices of the symbol tables. -/
def tableIndices (image : List UInt8) : List Nat :=
  (List.range (sectionCount image)).filter fun index => kind image index = 2

theorem mem_tableIndices {index : Nat} :
    index ∈ tableIndices image ↔ index < sectionCount image ∧ kind image index = 2 := by
  simp [tableIndices]

theorem symbolTables_sections : symbolTables (sections image) =
    (tableIndices image).map fun index => (sectionAt image index, index) := by
  have tables (index : Nat) : (sectionAt image index).kind = kindSymbols ↔
      kind image index = 2 := kind_eq_iff index 2 (by decide)
  have same : ((List.range (sectionCount image)).filter fun index =>
      (sectionAt image index).kind = kindSymbols) = tableIndices image := by
    simp only [tables, tableIndices]
  rw [symbolTables, zipIdx_sections, List.filter_map, ← same]
  rfl

/-- There is at most one symbol table if any two are the same. -/
theorem length_tableIndices_le_one_iff : (tableIndices image).length ≤ 1 ↔
    ∀ index < sectionCount image, ∀ other < sectionCount image,
      kind image index = 2 → kind image other = 2 → index = other := by
  have distinct : (tableIndices image).Nodup := List.nodup_range.filter _
  have each : (∀ index < sectionCount image, ∀ other < sectionCount image,
      kind image index = 2 → kind image other = 2 → index = other) ↔
      ∀ index ∈ tableIndices image, ∀ other ∈ tableIndices image, index = other := by
    simp only [mem_tableIndices]
    grind
  rw [each]
  generalize tableIndices image = indices at distinct
  cases indices with
  | nil => simp
  | cons first rest =>
      cases rest with
      | nil => simp
      | cons second rest =>
          have different := (List.nodup_cons.mp distinct).1
          refine iff_of_false (by simp) fun same => different ?_
          rw [same first (by simp) second (by simp)]
          exact List.mem_cons_self

/-- The only symbol table is the first one. -/
theorem head?_tableIndices (one : (tableIndices image).length ≤ 1) (index : Nat) :
    (tableIndices image).head? = some index ↔
      index < sectionCount image ∧ kind image index = 2 := by
  rw [← mem_tableIndices]
  generalize tableIndices image = indices at one
  cases indices with
  | nil => simp
  | cons first rest =>
      have nothing : rest = [] := List.eq_nil_of_length_eq_zero (by simpa using one)
      simp [nothing, eq_comm]

/-- The entries of a section are the slices of the image at their places. -/
theorem records_contents {index : Nat}
    (inside : offset image index + size image index ≤ image.length)
    (whole : 24 ∣ size image index) : records 24 (contents image index) =
      (List.range (entryCount image index)).map fun entry =>
        slice image (entryStart image index entry) 24 := by
  have total : entryCount image index * 24 = size image index := Nat.div_mul_cancel whole
  have whole : offset image index + entryCount image index * 24 ≤ image.length := total ▸ inside
  have entries := records_slice image (offset image index) _ (by decide) whole
  rw [total] at entries
  exact entries

theorem symbols_of_records {index : Nat}
    (inside : offset image index + size image index ≤ image.length)
    (whole : 24 ∣ size image index) :
    (records symbolSize (claimed image (sectionAt image index))).map Symbol.decode =
      symbols image index := by
  rw [claimed_eq inside, symbolSize, records_contents inside whole, List.map_map, symbols]
  exact List.map_congr_left fun entry _ => decode_symbol image _

theorem relocationsIn_eq {index : Nat}
    (inside : offset image index + size image index ≤ image.length)
    (whole : 24 ∣ size image index) :
    relocationsIn image (sectionAt image index) = relocations image index := by
  rw [relocationsIn, claimed_eq inside, relocationSize, records_contents inside whole,
    List.map_map, relocations]
  exact List.map_congr_left fun entry _ => decode_relocation image _

theorem symbolTable?_eq_some_iff (inside : Inside image) {index : Nat}
    (bounded : index < sectionCount image) (tabled : kind image index = 2)
    {found : List Symbol} {names : List UInt8} :
    symbolTable? image (sections image) (sectionAt image index) = some (found, names) ↔
      (entrySize image index = 24 ∧ 24 ∣ size image index ∧
        link image index < sectionCount image ∧ kind image (link image index) = 3) ∧
      found = symbols image index ∧ names = contents image (link image index) := by
  have here := inside index bounded (by omega) (by omega)
  simp only [symbolTable?, toNat_entrySize, toNat_size, toNat_link, symbolSize,
    Option.ite_none_right_eq_some, Option.map_eq_some_iff, Prod.mk.injEq,
    stringTable?_eq_some_iff inside, ← Nat.dvd_iff_mod_eq_zero]
  constructor
  · rintro ⟨⟨sized, whole⟩, _, ⟨linked, named, rfl⟩, rfl, rfl⟩
    exact ⟨⟨sized, whole, linked, named⟩, symbols_of_records here whole, rfl⟩
  · rintro ⟨⟨sized, whole, linked, named⟩, rfl, rfl⟩
    exact ⟨⟨sized, whole⟩, _, ⟨linked, named, rfl⟩, symbols_of_records here whole, rfl⟩

/-! ## Faults of symbols and relocations -/

theorem home_cases (symbol : Symbol) :
    (symbol.sectionIndex.toNat = 0 ∧ symbol.home = .undefined) ∨
      (symbol.sectionIndex.toNat = 0xfff1 ∧ symbol.home = .absolute) ∨
      (symbol.sectionIndex.toNat = 0xfff2 ∧ symbol.home = .common) ∨
      (symbol.sectionIndex.toNat ≠ 0 ∧ symbol.sectionIndex.toNat ≠ 0xfff1 ∧
        symbol.sectionIndex.toNat ≠ 0xfff2 ∧
        symbol.home = .inSection symbol.sectionIndex.toNat) := by
  have number (index : UInt16) : symbol.sectionIndex = index ↔
      symbol.sectionIndex.toNat = index.toNat := UInt16.toNat_inj.symm
  simp only [Symbol.home, number, UInt16.reduceToNat, UInt16.toNat_zero]
  grind

theorem isUndefined_iff (symbol : Symbol) :
    symbol.isUndefined = true ↔ symbol.sectionIndex.toNat = 0 := by
  rcases home_cases symbol with ⟨index, home⟩ | ⟨index, home⟩ | ⟨index, home⟩ | ⟨index, _, _, home⟩
  all_goals simp [Symbol.isUndefined, home, index]

theorem symbolFault?_eq_none (count : Nat) (names : List UInt8) (symbol : Symbol) (index : Nat) :
    symbolFault? count names symbol index = none ↔
      (symbol.sectionIndex.toNat = 0 ∨ symbol.sectionIndex.toNat = 0xfff1 ∨
        symbol.sectionIndex.toNat = 0xfff2 ∨
        (symbol.sectionIndex.toNat < 0xff00 ∧ symbol.sectionIndex.toNat < count)) ∧
      ∃ text, strictTextAt? names symbol.nameOffset.toNat = some text ∧
        (index ≠ 0 → symbol.sectionIndex.toNat = 0 → text ≠ "") := by
  unfold symbolFault?
  cases strictTextAt? names symbol.nameOffset.toNat with
  | none =>
      simp only [reduceCtorEq, false_and, exists_false, and_false, iff_false]
      grind
  | some text =>
      simp only [isUndefined_iff, Option.some.injEq, exists_eq_left']
      rcases home_cases symbol with
        ⟨index, home⟩ | ⟨index, home⟩ | ⟨index, home⟩ | ⟨zero, absolute, common, home⟩
      · simp [home, index]
      · simp [home, index]
      · simp [home, index]
      · simp only [home, zero, absolute, common]
        grind

theorem symbolFault?_eq_none_iff (table entry : Nat) :
    symbolFault? (sectionCount image) (contents image (link image table))
      (symbolRecord image (entryStart image table entry)) entry = none ↔
      SymbolSound image table entry := by
  have home : (symbolRecord image (entryStart image table entry)).sectionIndex.toNat =
      symbolHome image table entry := toNat_numberAt_two image _
  have name : (symbolRecord image (entryStart image table entry)).nameOffset.toNat =
      symbolName image table entry := toNat_numberAt_four image _
  rw [symbolFault?_eq_none, home, name]
  simp only [strictTextAt?_eq_some_iff]
  exact ⟨fun ⟨home, name⟩ => ⟨home, name⟩, fun sound => ⟨sound.home, sound.name⟩⟩

theorem symbolFaults_eq_none_iff (table : Nat) :
    ((symbols image table).zipIdx.findSome? fun (symbol, index) =>
      symbolFault? (sectionCount image) (contents image (link image table)) symbol index) = none ↔
      ∀ entry < entryCount image table, SymbolSound image table entry := by
  have numbered : (symbols image table).zipIdx = (List.range (entryCount image table)).map
      fun entry => (symbolRecord image (entryStart image table entry), entry) :=
    List.ext_getElem (by simp [symbols]) (by simp [symbols])
  simp only [numbered, List.findSome?_eq_none_iff, List.mem_map, List.mem_range,
    forall_exists_index, and_imp, forall_apply_eq_imp_iff₂, symbolFault?_eq_none_iff]

theorem symbolIndex_eq (index entry : Nat) :
    (relocationRecord image (entryStart image index entry)).symbolIndex =
      relocationSymbol image index entry := by
  have word : (relocationRecord image (entryStart image index entry)).info.toNat =
      numberAt image (entryStart image index entry + 8) 8 := toNat_numberAt_eight image _
  rw [Relocation.symbolIndex, UInt64.toNat_shiftRight, word, relocationSymbol]
  exact Nat.shiftRight_eq_div_pow _ _

/-- A relocation section is checked against the one symbol table. -/
theorem relocationFault?_eq_none_iff (inside : Inside image)
    (one : (tableIndices image).length ≤ 1) {symbolCount : Nat}
    (counted : ∀ table < sectionCount image, kind image table = 2 →
      symbolCount = entryCount image table) {index : Nat} (bounded : index < sectionCount image) :
    relocationFault? image (sectionCount image) (tableIndices image).head? symbolCount
      (sectionAt image index) index = none ↔
        (kind image index = 4 → RelocationsSound image index) := by
  have isRelocations : (sectionAt image index).kind = kindRelocations ↔ kind image index = 4 :=
    kind_eq_iff index 4 (by decide)
  rw [relocationFault?]
  by_cases relocates : kind image index = 4
  · have here := inside index bounded (by omega) (by omega)
    simp only [ne_eq, isRelocations, relocates, not_true_eq_false, if_false, forall_const,
      toNat_entrySize, toNat_size, toNat_info, toNat_link, relocationSize,
      head?_tableIndices one, ← Nat.dvd_iff_mod_eq_zero]
    rw [ite_eq_left_iff]
    simp only [reduceCtorEq, imp_false, not_not]
    constructor
    · rintro ⟨sized, whole, positive, bounded', ⟨linked, tabled⟩, known⟩
      refine ⟨sized, whole, Nat.pos_of_ne_zero positive, bounded', linked, tabled, ?_⟩
      intro entry listed
      rw [relocationsIn_eq here whole] at known
      have small := List.all_eq_true.mp known _
        (List.mem_map.mpr ⟨entry, List.mem_range.mpr listed, rfl⟩)
      rw [← counted _ linked tabled, ← symbolIndex_eq]
      exact of_decide_eq_true small
    · rintro ⟨sized, whole, positive, bounded', linked, tabled, known⟩
      refine ⟨sized, whole, Nat.ne_of_gt positive, bounded', ⟨linked, tabled⟩, ?_⟩
      rw [relocationsIn_eq here whole, List.all_eq_true]
      intro relocation member
      rcases List.mem_map.mp member with ⟨entry, listed, rfl⟩
      have small := known entry (List.mem_range.mp listed)
      rw [← counted _ linked tabled, ← symbolIndex_eq] at small
      exact decide_eq_true small
  · simp [isRelocations, relocates]

/-! ## The whole validation -/

/-- The checks on the header are those of the format. -/
theorem headerSound_iff : (HeaderSound image ∧ machine.code.toNat = numberAt image 18 2) ↔
    Object.headerSize ≤ image.length ∧ slice (headerRecord image).ident 0 4 = Object.magic ∧
      (headerRecord image).ident[4]? = some 2 ∧ (headerRecord image).ident[5]? = some 1 ∧
      ((headerRecord image).ident[6]? = some 1 ∧ (headerRecord image).version = 1) ∧
      (headerRecord image).kind = 1 ∧
      Machine.ofCode? (headerRecord image).machine = some machine ∧
      (headerRecord image).sectionEntrySize.toNat = sectionHeaderSize ∧
      (headerRecord image).sectionOffset.toNat +
        (headerRecord image).sectionCount.toNat * sectionHeaderSize ≤ image.length := by
  have start : slice (headerRecord image).ident 0 4 = image.take 4 := by
    simp [slice, headerRecord, List.take_take]
  have version : (headerRecord image).version = 1 ↔ numberAt image 20 4 = 1 :=
    eq_numberAt_four 20 1 (by decide)
  have relocatable : (headerRecord image).kind = 1 ↔ numberAt image 16 2 = 1 :=
    eq_numberAt_two 16 1 (by decide)
  have known : Machine.ofCode? (headerRecord image).machine = some machine ↔
      machine.code.toNat = numberAt image 18 2 := ofCode?_eq_some_iff 18
  have entry : (headerRecord image).sectionEntrySize.toNat = numberAt image 58 2 :=
    toNat_numberAt_two image 58
  rw [start, version, relocatable, known, entry, toNat_sectionOffset, toNat_sectionCount,
    Object.headerSize, sectionHeaderSize, Nat.mul_comm _ 64]
  constructor
  · rintro ⟨header, code⟩
    have ident (position number : Nat) (early : position < 16) (small : number < 2 ^ 8) :=
      ident_eq_some_iff header.long early small
    exact ⟨header.long, header.magic, (ident 4 2 (by decide) (by decide)).mpr header.width,
      (ident 5 1 (by decide) (by decide)).mpr header.order,
      ⟨(ident 6 1 (by decide) (by decide)).mpr header.identVersion, header.version⟩,
      header.relocatable, code, header.headerSize, header.table⟩
  · rintro ⟨long, magic, width, order, ⟨identVersion, version⟩, relocatable, code, headerSize,
      table⟩
    have ident (position number : Nat) (early : position < 16) (small : number < 2 ^ 8) :=
      ident_eq_some_iff long early small
    refine ⟨⟨long, magic, ?_, ?_, ?_, version, relocatable, ?_, headerSize, table⟩, code⟩
    · exact (ident 4 2 (by decide) (by decide)).mp width
    · exact (ident 5 1 (by decide) (by decide)).mp order
    · exact (ident 6 1 (by decide) (by decide)).mp identVersion
    · rw [← code]
      cases machine <;> decide

/-- What the symbol table tells, if there is one. -/
def symbolsIn? (image : List UInt8) : Option (List Symbol × List UInt8) :=
  match (tableIndices image).head? with
  | none => some ([], [])
  | some table => symbolTable? image (sections image) (sectionAt image table)

/-- The checks behind the header, in terms of the sections at their indices. -/
structure Validates (image : List UInt8) (object : Object) : Prop where
  inside : Inside image
  names_pos : 0 < namesIndex image
  names : stringTable? image (sections image) (namesIndex image) = some object.sectionNames
  one : (tableIndices image).length ≤ 1
  found : symbolsIn? image = some (object.symbols, object.symbolNames)
  symbols : (object.symbols.zipIdx.findSome? fun entry =>
    symbolFault? (sectionCount image) object.symbolNames entry.1 entry.2) = none
  relocations : ((sections image).zipIdx.findSome? fun entry =>
    relocationFault? image (sectionCount image) (tableIndices image).head? object.symbols.length
      entry.1 entry.2) = none
  made : object = { object with
    image, header := headerRecord image, sections := sections image }

theorem ofImage_eq_ok_iff : ofImage image = .ok object ↔
    (HeaderSound image ∧ object.machine.code.toNat = numberAt image 18 2) ∧
      Validates image object := by
  have named : (headerRecord image).namesIndex ≠ 0 ↔ 0 < namesIndex image := by
    rw [ne_eq, ← UInt16.toNat_inj, toNat_namesIndex, UInt16.toNat_zero, Nat.pos_iff_ne_zero]
  have first : (symbolTables (sections image)).head? =
      (tableIndices image).head?.map fun index => (sectionAt image index, index) := by
    rw [symbolTables_sections, List.head?_map]
  have count : (symbolTables (sections image)).length = (tableIndices image).length := by
    rw [symbolTables_sections, List.length_map]
  constructor
  · intro parsed
    simp only [ofImage, bind_eq_ok, require_eq_ok, demand_eq_ok, refuse_eq_ok, exists_const,
      decode_header] at parsed
    rcases parsed with ⟨long, magic, width, order, version, relocatable, machine, known,
      headerSize, table, rest⟩
    have header : HeaderSound image ∧ machine.code.toNat = numberAt image 18 2 :=
      headerSound_iff.mpr ⟨long, magic, width, order, version, relocatable, known, headerSize,
        table⟩
    rw [records_headers header.1.table] at rest
    simp only [sectionFault?_eq_none_iff, named, toNat_namesIndex, toNat_sectionCount,
      count] at rest
    rcases rest with ⟨inside, names_pos, sectionNames, names, one, rest⟩
    rw [first] at rest
    cases head : (tableIndices image).head? with
    | none =>
        simp only [head, Option.map_none, bind_eq_ok, refuse_eq_ok] at rest
        rcases rest with ⟨found, given, _, symbols, _, relocations, made⟩
        cases given
        cases made
        exact ⟨header, inside, names_pos, names, one, by rw [symbolsIn?, head], symbols,
          head ▸ relocations, rfl⟩
    | some index =>
        simp only [head, Option.map_some, bind_eq_ok, refuse_eq_ok, demand_eq_ok] at rest
        rcases rest with ⟨found, given, _, symbols, _, relocations, made⟩
        cases made
        exact ⟨header, inside, names_pos, names, one, by rw [symbolsIn?, head]; exact given,
          symbols, head ▸ relocations, rfl⟩
  · rintro ⟨header, validates⟩
    rcases headerSound_iff.mp header with
      ⟨long, magic, width, order, version, relocatable, known, headerSize, table⟩
    simp only [ofImage, bind_eq_ok, require_eq_ok, demand_eq_ok, refuse_eq_ok, exists_const,
      decode_header]
    refine ⟨long, magic, width, order, version, relocatable, _, known, headerSize, table, ?_⟩
    rw [records_headers header.1.table]
    simp only [sectionFault?_eq_none_iff, named, toNat_namesIndex, toNat_sectionCount, count]
    refine ⟨validates.inside, validates.names_pos, _, validates.names, validates.one, ?_⟩
    have found := validates.found
    have relocations := validates.relocations
    unfold symbolsIn? at found
    rw [first]
    cases head : (tableIndices image).head? with
    | none =>
        rw [head] at found relocations
        simp only [Option.map_none, bind_eq_ok, refuse_eq_ok]
        exact ⟨_, congrArg Except.ok (Option.some.inj found), (), validates.symbols, (),
          relocations,
          congrArg Except.ok validates.made.symm⟩
    | some index =>
        rw [head] at found relocations
        simp only [Option.map_some, bind_eq_ok, refuse_eq_ok, demand_eq_ok]
        exact ⟨_, found, (), validates.symbols, (), relocations,
          congrArg Except.ok validates.made.symm⟩

/-! ## Well-formed images -/

/-- What is told of the symbols, whether there is a symbol table or not. -/
def TellsSymbols (image : List UInt8) (found : List Symbol) (names : List UInt8) : Prop :=
  (∀ table < sectionCount image, kind image table = 2 →
    found = symbols image table ∧ names = contents image (link image table)) ∧
  ((∀ table < sectionCount image, kind image table ≠ 2) → found = [] ∧ names = [])

/-- Every symbol table consists of whole symbols and has a string table. -/
def TablesWhole (image : List UInt8) : Prop :=
  ∀ table < sectionCount image, kind image table = 2 →
    entrySize image table = 24 ∧ 24 ∣ size image table ∧
      link image table < sectionCount image ∧ kind image (link image table) = 3

theorem symbolsIn?_eq_some_iff (inside : Inside image) (one : (tableIndices image).length ≤ 1)
    {found : List Symbol} {names : List UInt8} : symbolsIn? image = some (found, names) ↔
      TablesWhole image ∧ TellsSymbols image found names := by
  have only := head?_tableIndices one
  unfold symbolsIn?
  cases head : (tableIndices image).head? with
  | none =>
      have absent (table : Nat) (bounded : table < sectionCount image) : kind image table ≠ 2 := by
        intro tabled
        rw [(only table).mpr ⟨bounded, tabled⟩] at head
        cases head
      simp only [Option.some.injEq, Prod.mk.injEq]
      constructor
      · rintro ⟨rfl, rfl⟩
        exact ⟨fun table bounded tabled => absurd tabled (absent table bounded),
          fun table bounded tabled => absurd tabled (absent table bounded), fun _ => ⟨rfl, rfl⟩⟩
      · rintro ⟨_, _, nothing⟩
        exact ⟨(nothing absent).1.symm, (nothing absent).2.symm⟩
  | some index =>
      rcases (only index).mp head with ⟨bounded, tabled⟩
      simp only [symbolTable?_eq_some_iff inside bounded tabled]
      constructor
      · rintro ⟨whole, told⟩
        have same (table : Nat) (bounded' : table < sectionCount image)
            (tabled' : kind image table = 2) : table = index :=
          Option.some.inj (((only table).mpr ⟨bounded', tabled'⟩).symm.trans head)
        refine ⟨fun table bounded' tabled' => ?_, fun table bounded' tabled' => ?_,
          fun absent => ?_⟩
        · rw [same table bounded' tabled']
          exact whole
        · rw [same table bounded' tabled']
          exact told
        · exact absurd tabled (absent index bounded)
      · rintro ⟨whole, told, _⟩
        exact ⟨whole index bounded tabled, told index bounded tabled⟩

theorem exists_tellsSymbols (one : (tableIndices image).length ≤ 1) :
    ∃ found names, TellsSymbols image found names := by
  by_cases absent : ∀ table < sectionCount image, kind image table ≠ 2
  · exact ⟨[], [], fun table bounded tabled => absurd tabled (absent table bounded),
      fun _ => ⟨rfl, rfl⟩⟩
  · simp only [not_forall, not_not] at absent
    rcases absent with ⟨table, bounded, tabled⟩
    refine ⟨symbols image table, contents image (link image table), ?_, fun absent => ?_⟩
    · intro other bounded' tabled'
      rw [length_tableIndices_le_one_iff.mp one other bounded' table bounded tabled' tabled]
      exact ⟨rfl, rfl⟩
    · exact absurd tabled (absent table bounded)

theorem TellsSymbols.faults_eq_none_iff {found : List Symbol} {names : List UInt8}
    (told : TellsSymbols image found names) (one : (tableIndices image).length ≤ 1) :
    (found.zipIdx.findSome? fun entry =>
      symbolFault? (sectionCount image) names entry.1 entry.2) = none ↔
      ∀ table < sectionCount image, kind image table = 2 →
        ∀ entry < entryCount image table, SymbolSound image table entry := by
  by_cases absent : ∀ table < sectionCount image, kind image table ≠ 2
  · rcases told.2 absent with ⟨rfl, rfl⟩
    exact iff_of_true rfl fun table bounded tabled => absurd tabled (absent table bounded)
  · simp only [not_forall, not_not] at absent
    rcases absent with ⟨table, bounded, tabled⟩
    rcases told.1 table bounded tabled with ⟨rfl, rfl⟩
    rw [symbolFaults_eq_none_iff]
    constructor
    · intro sound other bounded' tabled'
      rw [length_tableIndices_le_one_iff.mp one other bounded' table bounded tabled' tabled]
      exact sound
    · intro sound
      exact sound table bounded tabled

theorem TellsSymbols.counted {found : List Symbol} {names : List UInt8}
    (told : TellsSymbols image found names) (table : Nat) (bounded : table < sectionCount image)
    (tabled : kind image table = 2) : found.length = entryCount image table := by
  rw [(told.1 table bounded tabled).1, symbols, List.length_map, List.length_range]

theorem relocationFaults_eq_none_iff (inside : Inside image)
    (one : (tableIndices image).length ≤ 1) {symbolCount : Nat}
    (counted : ∀ table < sectionCount image, kind image table = 2 →
      symbolCount = entryCount image table) :
    ((sections image).zipIdx.findSome? fun entry =>
      relocationFault? image (sectionCount image) (tableIndices image).head? symbolCount
        entry.1 entry.2) = none ↔
      ∀ index < sectionCount image, kind image index = 4 → RelocationsSound image index := by
  simp only [zipIdx_sections, List.findSome?_eq_none_iff, List.mem_map, List.mem_range,
    forall_exists_index, and_imp, forall_apply_eq_imp_iff₂]
  exact forall₂_congr fun index bounded => relocationFault?_eq_none_iff inside one counted bounded

theorem filter_sections : ((sections image).filter fun header => header.kind = kindRelocations) =
    ((List.range (sectionCount image)).filter fun index => kind image index = 4).map
      (sectionAt image) := by
  have isRelocations (index : Nat) : (sectionAt image index).kind = kindRelocations ↔
      kind image index = 4 := kind_eq_iff index 4 (by decide)
  have same : ((List.range (sectionCount image)).filter fun index =>
      (sectionAt image index).kind = kindRelocations) =
        (List.range (sectionCount image)).filter fun index => kind image index = 4 := by
    simp only [isRelocations]
  rw [sections, List.filter_map, ← same]
  rfl

/-- The relocation sections of an object are those of the image, with all they hold. -/
theorem relocationGroups_eq (image_eq : object.image = image)
    (sections_eq : object.sections = sections image) (inside : Inside image)
    (sound : ∀ index < sectionCount image, kind image index = 4 → RelocationsSound image index) :
    object.relocationGroups = relocationGroups image := by
  rw [Object.relocationGroups, image_eq, sections_eq, filter_sections, List.map_map,
    relocationGroups]
  refine List.map_congr_left fun index listed => ?_
  rcases List.mem_filter.mp listed with ⟨bounded, relocates⟩
  have relocates : kind image index = 4 := of_decide_eq_true relocates
  have bounded := List.mem_range.mp bounded
  have here := inside index bounded (by omega) (by omega)
  rw [Function.comp_apply, toNat_info, relocationsIn_eq here (sound index bounded relocates).whole]

/-- What passes validation is well-formed, and is decoded as it stands in the image. -/
theorem Validates.sound (header : HeaderSound image)
    (code : object.machine.code.toNat = numberAt image 18 2) (validates : Validates image object) :
    WellFormed image ∧ Decodes image object := by
  have inside := validates.inside
  have one := validates.one
  rcases (symbolsIn?_eq_some_iff inside one).mp validates.found with ⟨whole, told⟩
  rcases (stringTable?_eq_some_iff inside).mp validates.names with ⟨names_lt, named, names⟩
  have symbols := (told.faults_eq_none_iff one).mp validates.symbols
  have relocations := (relocationFaults_eq_none_iff inside one told.counted).mp
    validates.relocations
  have image_eq : object.image = image := congrArg Object.image validates.made
  have sections_eq : object.sections = sections image := congrArg Object.sections validates.made
  constructor
  · refine { header with
      inside, names_pos := validates.names_pos, names_lt, names := named, relocations,
      oneSymbolTable := length_tableIndices_le_one_iff.mp one,
      symbolTable := fun table bounded tabled => ?_ }
    rcases whole table bounded tabled with ⟨sized, divides, linked, strings⟩
    exact ⟨sized, divides, linked, strings, symbols table bounded tabled⟩
  · refine ⟨image_eq, congrArg Object.header validates.made, code, sections_eq, names, ?_, told.1,
      told.2, relocationGroups_eq image_eq sections_eq inside relocations⟩
    intro index bounded notNull notNoBits
    have bits : (sectionAt image index).isNoBits = false :=
      decide_eq_false fun noBits => notNoBits ((kind_eq_iff index 8 (by decide)).mp noBits)
    rw [Object.contents, bits, image_eq]
    exact claimed_eq (inside index bounded notNull notNoBits)

/-- A well-formed image passes validation. -/
theorem WellFormed.validates (sound : WellFormed image) : ∃ object : Object,
    object.machine.code.toNat = numberAt image 18 2 ∧ Validates image object := by
  have machine : ∃ machine : Machine, machine.code.toNat = numberAt image 18 2 := by
    rcases sound.machine with code | code | code
    · exact ⟨.x86_64, code.symm⟩
    · exact ⟨.aarch64, code.symm⟩
    · exact ⟨.riscv, code.symm⟩
  rcases machine with ⟨machine, code⟩
  have inside : Inside image := sound.inside
  have one := length_tableIndices_le_one_iff.mpr sound.oneSymbolTable
  have whole : TablesWhole image := fun table bounded tabled =>
    have known := sound.symbolTable table bounded tabled
    ⟨known.entrySize, known.whole, known.link_lt, known.names⟩
  rcases exists_tellsSymbols one with ⟨found, names, told⟩
  refine ⟨⟨image, headerRecord image, machine, sections image, found, names,
    contents image (namesIndex image)⟩, code, inside, sound.names_pos, ?_, one, ?_, ?_, ?_, rfl⟩
  · exact (stringTable?_eq_some_iff inside).mpr ⟨sound.names_lt, sound.names, rfl⟩
  · exact (symbolsIn?_eq_some_iff inside one).mpr ⟨whole, told⟩
  · exact (told.faults_eq_none_iff one).mpr fun table bounded tabled =>
      (sound.symbolTable table bounded tabled).symbols
  · exact (relocationFaults_eq_none_iff inside one told.counted).mpr sound.relocations

end Format
end Object
end ModuleHost
