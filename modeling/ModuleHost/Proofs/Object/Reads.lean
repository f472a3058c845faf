import ModuleHost.Proofs.Object.Validation

namespace ModuleHost
namespace Object

/-!
# Validation reads inside the image

Words, records and slices are read here by operations that yield nothing when a byte is
asked for that is not there, at every place where validation takes bytes out of an image,
a table or a record.  Validation with such reads always yields an answer, the answer of
`ofImage`, so no read leaves the bytes that it is from.
-/

open Endian (slice value word8At word16At word32At word64At)

/-! ## Reads that can fail -/

/-- The run of `count` bytes from an offset, if the data holds all of them. -/
def slice? (data : List UInt8) (offset count : Nat) : Option (List UInt8) :=
  if offset + count ≤ data.length then some (slice data offset count) else none

def word8? (data : List UInt8) (offset : Nat) : Option UInt8 :=
  data[offset]?

def word16? (data : List UInt8) (offset : Nat) : Option UInt16 :=
  (slice? data offset 2).map fun bytes => .ofNat (value bytes)

def word32? (data : List UInt8) (offset : Nat) : Option UInt32 :=
  (slice? data offset 4).map fun bytes => .ofNat (value bytes)

def word64? (data : List UInt8) (offset : Nat) : Option UInt64 :=
  (slice? data offset 8).map fun bytes => .ofNat (value bytes)

section

variable {data : List UInt8} {offset : Nat}

theorem slice?_eq {count : Nat} (inside : offset + count ≤ data.length) :
    slice? data offset count = some (slice data offset count) :=
  if_pos inside

theorem word8?_eq (inside : offset < data.length) :
    word8? data offset = some (word8At data offset) := by
  rw [word8?, List.getElem?_eq_getElem inside, word8At, value_slice]
  simp [numberAt, inside]

theorem word16?_eq (inside : offset + 2 ≤ data.length) :
    word16? data offset = some (word16At data offset) := by
  rw [word16?, slice?_eq inside, Option.map_some, word16At]

theorem word32?_eq (inside : offset + 4 ≤ data.length) :
    word32? data offset = some (word32At data offset) := by
  rw [word32?, slice?_eq inside, Option.map_some, word32At]

theorem word64?_eq (inside : offset + 8 ≤ data.length) :
    word64? data offset = some (word64At data offset) := by
  rw [word64?, slice?_eq inside, Option.map_some, word64At]

end

/-! ## Records -/

def Header.read? (data : List UInt8) : Option Header := do
  let ident ← slice? data 0 16
  let kind ← word16? data 16
  let machine ← word16? data 18
  let version ← word32? data 20
  let entry ← word64? data 24
  let programOffset ← word64? data 32
  let sectionOffset ← word64? data 40
  let flags ← word32? data 48
  let headerSize ← word16? data 52
  let programEntrySize ← word16? data 54
  let programCount ← word16? data 56
  let sectionEntrySize ← word16? data 58
  let sectionCount ← word16? data 60
  let namesIndex ← word16? data 62
  return ⟨ident, kind, machine, version, entry, programOffset, sectionOffset, flags, headerSize,
    programEntrySize, programCount, sectionEntrySize, sectionCount, namesIndex⟩

def Section.read? (data : List UInt8) : Option Section := do
  let nameOffset ← word32? data 0
  let kind ← word32? data 4
  let flags ← word64? data 8
  let address ← word64? data 16
  let offset ← word64? data 24
  let size ← word64? data 32
  let link ← word32? data 40
  let info ← word32? data 44
  let alignment ← word64? data 48
  let entrySize ← word64? data 56
  return ⟨nameOffset, kind, flags, address, offset, size, link, info, alignment, entrySize⟩

def Symbol.read? (data : List UInt8) : Option Symbol := do
  let nameOffset ← word32? data 0
  let info ← word8? data 4
  let other ← word8? data 5
  let sectionIndex ← word16? data 6
  let value ← word64? data 8
  let size ← word64? data 16
  return ⟨nameOffset, info, other, sectionIndex, value, size⟩

def Relocation.read? (data : List UInt8) : Option Relocation := do
  let offset ← word64? data 0
  let info ← word64? data 8
  let addend ← word64? data 16
  return ⟨offset, info, addend.toInt64⟩

section

variable {data : List UInt8}

theorem Header.read?_eq (long : 64 ≤ data.length) : read? data = some (decode data) := by
  have two (offset : Nat) (early : offset + 2 ≤ 64) := word16?_eq (Nat.le_trans early long)
  have four (offset : Nat) (early : offset + 4 ≤ 64) := word32?_eq (Nat.le_trans early long)
  have eight (offset : Nat) (early : offset + 8 ≤ 64) := word64?_eq (Nat.le_trans early long)
  have ident : slice? data 0 16 = some (slice data 0 16) := slice?_eq (by omega)
  simp [read?, decode, ident, two, four, eight]

theorem Section.read?_eq (long : sectionHeaderSize ≤ data.length) :
    read? data = some (decode data) := by
  have four (offset : Nat) (early : offset + 4 ≤ 64) := word32?_eq (Nat.le_trans early long)
  have eight (offset : Nat) (early : offset + 8 ≤ 64) := word64?_eq (Nat.le_trans early long)
  simp [read?, decode, four, eight]

theorem Symbol.read?_eq (long : symbolSize ≤ data.length) :
    read? data = some (decode data) := by
  have one (offset : Nat) (early : offset < 24) := word8?_eq (Nat.lt_of_lt_of_le early long)
  have two (offset : Nat) (early : offset + 2 ≤ 24) := word16?_eq (Nat.le_trans early long)
  have four (offset : Nat) (early : offset + 4 ≤ 24) := word32?_eq (Nat.le_trans early long)
  have eight (offset : Nat) (early : offset + 8 ≤ 24) := word64?_eq (Nat.le_trans early long)
  simp [read?, decode, one, two, four, eight]

theorem Relocation.read?_eq (long : relocationSize ≤ data.length) :
    read? data = some (decode data) := by
  have eight (offset : Nat) (early : offset + 8 ≤ 24) := word64?_eq (Nat.le_trans early long)
  simp [read?, decode, eight]

end

/-! ## Tables -/

/-- Reading each of a list succeeds if each read does. -/
theorem mapM_eq_some {α β : Type} {read : α → Option β} {decode : α → β} {items : List α}
    (each : ∀ item ∈ items, read item = some (decode item)) :
    items.mapM read = some (items.map decode) := by
  induction items with
  | nil => rfl
  | cons item rest ih =>
      have here := each item List.mem_cons_self
      have further := ih fun item member => each item (List.mem_cons_of_mem _ member)
      simp [List.mapM_cons, here, further]

theorem findSomeM?_eq_some {α β : Type} {read : α → Option (Option β)} {search : α → Option β}
    {items : List α} (each : ∀ item ∈ items, read item = some (search item)) :
    items.findSomeM? read = some (items.findSome? search) := by
  induction items with
  | nil => rfl
  | cons item rest ih =>
      have here := each item List.mem_cons_self
      have further := ih fun item member => each item (List.mem_cons_of_mem _ member)
      cases found : search item <;> simp [List.findSomeM?, List.findSome?, here, found, further]

/-- The records of a table are whole. -/
theorem length_of_mem_records {size : Nat} {table record : List UInt8}
    (member : record ∈ records size table) : record.length = size := by
  rcases List.mem_map.mp member with ⟨index, bounded, rfl⟩
  have room : index * size + size ≤ table.length := by
    rw [← Nat.succ_mul]
    exact Nat.le_trans (Nat.mul_le_mul_right size (List.mem_range.mp bounded))
      (Nat.div_mul_le_self _ _)
  simp only [slice, List.length_take, List.length_drop]
  omega

/-- Reading the records of a table succeeds if reading a whole record does. -/
theorem readRecords?_eq {α : Type} {size : Nat} {read : List UInt8 → Option α}
    {decode : List UInt8 → α}
    (each : ∀ record, size ≤ record.length → read record = some (decode record))
    (table : List UInt8) :
    (records size table).mapM read = some ((records size table).map decode) :=
  mapM_eq_some fun record member => each record (Nat.le_of_eq (length_of_mem_records member).symm)

/-- The bytes that a section claims; a claim beyond the image gives no bytes. -/
def readClaimed? (image : List UInt8) (header : Section) : Option (List UInt8) :=
  if header.offset.toNat + header.size.toNat ≤ image.length then
    slice? image header.offset.toNat header.size.toNat
  else some []

theorem readClaimed?_eq (image : List UInt8) (header : Section) :
    readClaimed? image header = some (claimed image header) := by
  unfold readClaimed? claimed claimed?
  split
  · next inside => simp [slice?_eq inside, inside]
  · next outside => simp [outside]

def readStringTable? (image : List UInt8) (sections : List Section) (index : Nat) :
    Option (Option (List UInt8)) :=
  match sections[index]? with
  | some header =>
    if header.kind = kindStrings then (readClaimed? image header).map some else some none
  | none => some none

theorem readStringTable?_eq (image : List UInt8) (sections : List Section) (index : Nat) :
    readStringTable? image sections index = some (stringTable? image sections index) := by
  unfold readStringTable? stringTable?
  cases sections[index]? with
  | none => rfl
  | some header =>
      simp only [readClaimed?_eq, Option.map_some]
      split <;> rfl

/-- The symbols of a table, with the table of their names. -/
def readSymbolTable? (image : List UInt8) (sections : List Section) (header : Section) :
    Option (Option (List Symbol × List UInt8)) :=
  if header.entrySize.toNat = symbolSize ∧ header.size.toNat % symbolSize = 0 then do
    match ← readStringTable? image sections header.link.toNat with
    | some names =>
      let table ← readClaimed? image header
      let symbols ← (records symbolSize table).mapM Symbol.read?
      return some (symbols, names)
    | none => return none
  else some none

theorem readSymbolTable?_eq (image : List UInt8) (sections : List Section) (header : Section) :
    readSymbolTable? image sections header = some (symbolTable? image sections header) := by
  have symbols : (records symbolSize (claimed image header)).mapM Symbol.read? =
      some ((records symbolSize (claimed image header)).map Symbol.decode) :=
    readRecords?_eq (fun _ => Symbol.read?_eq) _
  unfold readSymbolTable? symbolTable?
  split
  · cases names : stringTable? image sections header.link.toNat with
    | none => simp [readStringTable?_eq, names]
    | some table => simp [readStringTable?_eq, readClaimed?_eq, names, symbols]
  · rfl

/-- The text at an offset; the bytes in front of its NUL are cut out of the table. -/
def readText? (table : List UInt8) (offset : Nat) : Option (Option String) :=
  if offset = 0 ∧ table = [] then some (some "")
  else
    match slice? table offset (table.length - offset) with
    | none => some none
    | some rest =>
      match rest.findIdx? (· = 0) with
      | none => some none
      | some length => (slice? rest 0 length).map Text.decode?

theorem readText?_eq (table : List UInt8) (offset : Nat) :
    readText? table offset = some (strictTextAt? table offset) := by
  unfold readText? strictTextAt?
  split
  · rfl
  · by_cases inside : offset ≤ table.length
    · have rest : slice? table offset (table.length - offset) = some (table.drop offset) := by
        rw [slice?_eq (by omega), slice, List.take_of_length_le (by simp)]
      simp only [rest]
      cases stops : (table.drop offset).findIdx? (· = 0) with
      | none =>
          have unbroken : (0 : UInt8) ∉ table.drop offset := fun listed => by
            have kept := List.findIdx?_eq_none_iff.mp stops 0 listed
            simp at kept
          rw [if_neg unbroken]
      | some length =>
          rcases List.findIdx?_eq_some_iff_findIdx_eq.mp stops with ⟨bounded, found⟩
          have ended : (0 : UInt8) ∈ table.drop offset := by
            have zero := List.findIdx_getElem (p := (· = (0 : UInt8))) (w := found.symm ▸ bounded)
            exact of_decide_eq_true zero ▸ List.getElem_mem _
          have cut : slice? (table.drop offset) 0 length =
              some ((table.drop offset).takeWhile (· ≠ 0)) := by
            rw [slice?_eq (by omega), List.takeWhile_eq_take_findIdx_not, slice, List.drop_zero]
            simp only [ne_eq, decide_not, Bool.not_not, found]
          simp only [ended, if_true, cut, Option.map_some]
    · have beyond : slice? table offset (table.length - offset) = none := if_neg (by omega)
      have nothing : table.drop offset = [] := List.drop_eq_nil_of_le (by omega)
      simp [beyond, nothing]

/-! ## Faults -/

def readSymbolFault? (sectionCount : Nat) (names : List UInt8) (symbol : Symbol) (index : Nat) :
    Option (Option ObjectError) :=
  let misplaced :=
    match symbol.home with
    | .inSection home => home ≥ 0xff00 || home ≥ sectionCount
    | _ => false
  if misplaced then some (some (.badSymbolSection index))
  else
    (readText? names symbol.nameOffset.toNat).map fun text? =>
      match text? with
      | none => some (.badSymbolName index)
      | some name =>
        if index ≠ 0 ∧ symbol.isUndefined ∧ name = "" then some (.badSymbolName index) else none

theorem readSymbolFault?_eq (sectionCount : Nat) (names : List UInt8) (symbol : Symbol)
    (index : Nat) : readSymbolFault? sectionCount names symbol index =
      some (symbolFault? sectionCount names symbol index) := by
  simp only [readSymbolFault?, symbolFault?, readText?_eq, Option.map_some]
  exact (apply_ite some _ _ _).symm

def readRelocationFault? (image : List UInt8) (sectionCount : Nat) (symbolTable : Option Nat)
    (symbolCount : Nat) (header : Section) (index : Nat) : Option (Option ObjectError) :=
  if header.kind ≠ kindRelocations then some none
  else if header.entrySize.toNat = relocationSize ∧ header.size.toNat % relocationSize = 0 ∧
      header.info.toNat ≠ 0 ∧ header.info.toNat < sectionCount ∧
      symbolTable = some header.link.toNat then do
    let table ← readClaimed? image header
    let relocations ← (records relocationSize table).mapM Relocation.read?
    return if relocations.all (·.symbolIndex < symbolCount) then none
      else some (.malformedRelocations index)
  else some (some (.malformedRelocations index))

theorem readRelocationFault?_eq (image : List UInt8) (sectionCount : Nat)
    (symbolTable : Option Nat) (symbolCount : Nat) (header : Section) (index : Nat) :
    readRelocationFault? image sectionCount symbolTable symbolCount header index =
      some (relocationFault? image sectionCount symbolTable symbolCount header index) := by
  have relocations : (records relocationSize (claimed image header)).mapM Relocation.read? =
      some (relocationsIn image header) :=
    readRecords?_eq (fun _ => Relocation.read?_eq) _
  unfold readRelocationFault? relocationFault?
  simp only [readClaimed?_eq, relocations, Option.bind_eq_bind, Option.bind_some, Option.pure_def,
    ← apply_ite some]
  grind

/-! ## The whole validation -/

/-- A computation that may end with a fault of the image, or stop for a read outside it. -/
abbrev Reading (α : Type) : Type :=
  ExceptT ObjectError Option α

namespace Reading

def check {α : Type} (outcome : Except ObjectError α) : Reading α :=
  ExceptT.mk (some outcome)

def read {α : Type} (value? : Option α) : Reading α :=
  ExceptT.mk (value?.map .ok)

theorem check_bind {α β : Type} (outcome : Except ObjectError α) {next : α → Reading β}
    {next' : α → Except ObjectError β}
    (further : ∀ value, outcome = .ok value → next value = check (next' value)) :
    (check outcome >>= next) = check (outcome >>= next') := by
  cases outcome with
  | error error => rfl
  | ok value => exact further value rfl

theorem read_bind {α β : Type} {value? : Option α} {value : α} (found : value? = some value)
    (next : α → Reading β) : (read value? >>= next) = next value := by
  rw [found]
  rfl

end Reading

open Reading (check read)

/-- Validation, with reads that can fail. -/
def readImage (image : List UInt8) : Reading Object := do
  check (require (headerSize ≤ image.length) .tooSmall)
  let header ← read (Header.read? image)
  let start ← read (slice? header.ident 0 4)
  check (require (start = magic) .invalidMagic)
  let width ← read header.ident[4]?
  check (require (width = 2) .not64Bit)
  let order ← read header.ident[5]?
  check (require (order = 1) .unsupportedEndian)
  let version ← read header.ident[6]?
  check (require (version = 1 ∧ header.version = 1) .unsupportedVersion)
  check (require (header.kind = 1) (.notRelocatable header.kind))
  let machine ← check (demand (Machine.ofCode? header.machine) (.unsupportedMachine header.machine))
  check (require (header.sectionEntrySize.toNat = sectionHeaderSize)
    (.badSectionHeaderSize header.sectionEntrySize))
  let sectionCount := header.sectionCount.toNat
  let tableStart := header.sectionOffset.toNat
  let tableSize := sectionCount * sectionHeaderSize
  check (require (tableStart + tableSize ≤ image.length) .sectionTableOutOfBounds)
  let table ← read (slice? image tableStart tableSize)
  let sections ← read ((records sectionHeaderSize table).mapM Section.read?)
  check (refuse (sectionFault? image sections))
  check (require (header.namesIndex ≠ 0) .badStringTableIndex)
  let names? ← read (readStringTable? image sections header.namesIndex.toNat)
  let sectionNames ← check (demand names? .badStringTableIndex)
  let tables := symbolTables sections
  check (require (tables.length ≤ 1) .multipleSymbolTables)
  let (symbols, symbolNames) ←
    match tables.head? with
    | none => check (.ok ([], []))
    | some (header, _) => do
      let found? ← read (readSymbolTable? image sections header)
      check (demand found? .malformedSymbolTable)
  let symbolFault ← read (symbols.zipIdx.findSomeM? fun (symbol, index) =>
    readSymbolFault? sectionCount symbolNames symbol index)
  check (refuse symbolFault)
  let relocationFault ← read (sections.zipIdx.findSomeM? fun (header, index) =>
    readRelocationFault? image sectionCount (tables.head?.map Prod.snd) symbols.length header index)
  check (refuse relocationFault)
  return { image, header, machine, sections, symbols, symbolNames, sectionNames }

/-- The checks of symbols and relocations read inside the image. -/
theorem readFaults_eq (image : List UInt8) (sectionCount : Nat) (symbolTable : Option Nat)
    (sections : List Section) (found : List Symbol × List UInt8) (object : Object) :
    (do
      let symbolFault ← read (found.1.zipIdx.findSomeM? fun entry =>
        readSymbolFault? sectionCount found.2 entry.1 entry.2)
      check (refuse symbolFault)
      let relocationFault ← read (sections.zipIdx.findSomeM? fun entry =>
        readRelocationFault? image sectionCount symbolTable found.1.length entry.1 entry.2)
      check (refuse relocationFault)
      pure object : Reading Object) =
    check (do
      refuse (found.1.zipIdx.findSome? fun entry =>
        symbolFault? sectionCount found.2 entry.1 entry.2)
      refuse (sections.zipIdx.findSome? fun entry =>
        relocationFault? image sectionCount symbolTable found.1.length entry.1 entry.2)
      pure object) := by
  rw [Reading.read_bind (findSomeM?_eq_some fun entry _ => readSymbolFault?_eq _ _ _ _)]
  refine Reading.check_bind _ fun _ _ => ?_
  rw [Reading.read_bind (findSomeM?_eq_some fun entry _ => readRelocationFault?_eq _ _ _ _ _ _)]
  exact Reading.check_bind _ fun _ _ => rfl

/-- No read of the validation leaves the bytes that it is from. -/
theorem readImage_eq (image : List UInt8) : readImage image = check (ofImage image) := by
  unfold readImage ofImage
  refine Reading.check_bind _ fun _ long => ?_
  have long := require_eq_ok.mp long
  have ident : (Header.decode image).ident.length = 16 := by
    have enough : 64 ≤ image.length := long
    simp only [Header.decode, slice, List.length_take, List.length_drop]
    omega
  have byte (place : Nat) (early : place < 16) : ∃ byte,
      (Header.decode image).ident[place]? = some byte :=
    ⟨_, List.getElem?_eq_getElem (ident.symm ▸ early)⟩
  rcases byte 4 (by decide) with ⟨width, widthAt⟩
  rcases byte 5 (by decide) with ⟨order, orderAt⟩
  rcases byte 6 (by decide) with ⟨version, versionAt⟩
  rw [Reading.read_bind (Header.read?_eq long), Reading.read_bind (slice?_eq (by omega))]
  simp only [widthAt, orderAt, versionAt, Option.some.injEq]
  refine Reading.check_bind _ fun _ _ => ?_
  rw [Reading.read_bind rfl]
  refine Reading.check_bind _ fun _ _ => ?_
  rw [Reading.read_bind rfl]
  refine Reading.check_bind _ fun _ _ => ?_
  rw [Reading.read_bind rfl]
  refine Reading.check_bind _ fun _ _ => ?_
  refine Reading.check_bind _ fun _ _ => ?_
  refine Reading.check_bind _ fun machine _ => ?_
  refine Reading.check_bind _ fun _ _ => ?_
  refine Reading.check_bind _ fun _ inside => ?_
  rw [Reading.read_bind (slice?_eq (require_eq_ok.mp inside)),
    Reading.read_bind (readRecords?_eq (fun _ => Section.read?_eq) _)]
  refine Reading.check_bind _ fun _ _ => ?_
  refine Reading.check_bind _ fun _ _ => ?_
  rw [Reading.read_bind (readStringTable?_eq _ _ _)]
  refine Reading.check_bind _ fun sectionNames _ => ?_
  refine Reading.check_bind _ fun _ _ => ?_
  generalize (records sectionHeaderSize _).map Section.decode = sections
  cases tables : (symbolTables sections).head? with
  | none => exact Reading.check_bind _ fun found _ => readFaults_eq _ _ _ _ _ _
  | some table =>
      simp only [Reading.read_bind (readSymbolTable?_eq _ _ _)]
      exact Reading.check_bind _ fun found _ => readFaults_eq _ _ _ _ _ _

/-- For every byte string, validation stays inside it, accepts it exactly if it is a
well-formed object, and then yields what the bytes say. -/
theorem validation_exact (image : List UInt8) :
    readImage image = check (ofImage image) ∧
      ((∃ object, ofImage image = .ok object) ↔ Format.WellFormed image) ∧
      ∀ object, ofImage image = .ok object → Format.Decodes image object := by
  refine ⟨readImage_eq image, ⟨?_, ?_⟩, ?_⟩
  · rintro ⟨object, parsed⟩
    rcases Format.ofImage_eq_ok_iff.mp parsed with ⟨⟨header, code⟩, validates⟩
    exact (validates.sound header code).1
  · intro sound
    rcases sound.validates with ⟨object, code, validates⟩
    exact ⟨object, Format.ofImage_eq_ok_iff.mpr ⟨⟨sound.toHeaderSound, code⟩, validates⟩⟩
  · intro object parsed
    rcases Format.ofImage_eq_ok_iff.mp parsed with ⟨⟨header, code⟩, validates⟩
    exact (validates.sound header code).2

end Object
end ModuleHost
