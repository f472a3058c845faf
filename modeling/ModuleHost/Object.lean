import ModuleHost.Checked
import ModuleHost.Object.Error
import ModuleHost.Object.Machine
import ModuleHost.Object.Records
import ModuleHost.Object.Strings
import ModuleHost.Page

namespace ModuleHost

/-!
# Module objects

An object is a validated image: its records decoded, and the image kept for the
contents of the sections.  `ofImage` runs the checks in a fixed order, so an image
with several faults is refused for the first of them.

Validation bounds every section that has contents in the file, the one symbol
table with its names, and every relocation section with its symbol indices.
Section names are not validated; they are read when they are asked for.
-/

/-- A validated object. -/
structure Object where
  image : List UInt8
  header : Object.Header
  machine : Machine
  sections : List Object.Section
  symbols : List Object.Symbol
  /-- The names of the symbols, empty without a symbol table. -/
  symbolNames : List UInt8
  sectionNames : List UInt8
  deriving Repr

namespace Object

open Endian (slice)

/-- The bytes of the image that a section claims, if it holds them all. -/
def claimed? (image : List UInt8) (header : Section) : Option (List UInt8) :=
  let start := header.offset.toNat
  let size := header.size.toNat
  if start + size ≤ image.length then some (slice image start size) else none

/-- The bytes that a section claims, none when they are not in the image. -/
def claimed (image : List UInt8) (header : Section) : List UInt8 :=
  (claimed? image header).getD []

/-- The first section whose contents leave the image. -/
def sectionFault? (image : List UInt8) (sections : List Section) : Option ObjectError :=
  sections.zipIdx.findSome? fun (header, index) =>
    if header.kind = kindNull ∨ header.isNoBits then none
    else if (claimed? image header).isSome then none
    else some (.sectionOutOfBounds index)

/-- The contents of the string table at a section index. -/
def stringTable? (image : List UInt8) (sections : List Section) (index : Nat) :
    Option (List UInt8) :=
  match sections[index]? with
  | some header => if header.kind = kindStrings then some (claimed image header) else none
  | none => none

/-- The sections that hold a symbol table, with their indices. -/
def symbolTables (sections : List Section) : List (Section × Nat) :=
  sections.zipIdx.filter fun (header, _) => header.kind = kindSymbols

/-- The symbols of a symbol table section and the table of their names. -/
def symbolTable? (image : List UInt8) (sections : List Section) (header : Section) :
    Option (List Symbol × List UInt8) :=
  if header.entrySize.toNat = symbolSize ∧ header.size.toNat % symbolSize = 0 then
    (stringTable? image sections header.link.toNat).map fun names =>
      ((records symbolSize (claimed image header)).map Symbol.decode, names)
  else none

/-- What is wrong with a symbol: it must live in a section of the object or be
undefined, absolute or common, and have a readable name; only by its name can an
undefined symbol other than the first be resolved. -/
def symbolFault? (sectionCount : Nat) (names : List UInt8) (symbol : Symbol) (index : Nat) :
    Option ObjectError :=
  let misplaced :=
    match symbol.home with
    | .inSection home => home ≥ 0xff00 || home ≥ sectionCount
    | _ => false
  if misplaced then some (.badSymbolSection index)
  else
    match strictTextAt? names symbol.nameOffset.toNat with
    | none => some (.badSymbolName index)
    | some name =>
      if index ≠ 0 ∧ symbol.isUndefined ∧ name = "" then some (.badSymbolName index) else none

/-- The relocations that a relocation section holds. -/
def relocationsIn (image : List UInt8) (header : Section) : List Relocation :=
  (records relocationSize (claimed image header)).map Relocation.decode

/-- What is wrong with a relocation section: it must patch a section of the object
through symbols of the symbol table. -/
def relocationFault? (image : List UInt8) (sectionCount : Nat) (symbolTable : Option Nat)
    (symbolCount : Nat) (header : Section) (index : Nat) : Option ObjectError :=
  if header.kind ≠ kindRelocations then none
  else if header.entrySize.toNat = relocationSize ∧ header.size.toNat % relocationSize = 0 ∧
      header.info.toNat ≠ 0 ∧ header.info.toNat < sectionCount ∧
      symbolTable = some header.link.toNat ∧
      (relocationsIn image header).all (·.symbolIndex < symbolCount) then none
  else some (.malformedRelocations index)

/-- The four bytes that an object image begins with. -/
def magic : List UInt8 := [0x7f, 0x45, 0x4c, 0x46]

/-- Validate an image. -/
def ofImage (image : List UInt8) : Except ObjectError Object := do
  require (headerSize ≤ image.length) .tooSmall
  let header := Header.decode image
  require (slice header.ident 0 4 = magic) .invalidMagic
  require (header.ident[4]? = some 2) .not64Bit
  require (header.ident[5]? = some 1) .unsupportedEndian
  require (header.ident[6]? = some 1 ∧ header.version = 1) .unsupportedVersion
  require (header.kind = 1) (.notRelocatable header.kind)
  let machine ← demand (Machine.ofCode? header.machine) (.unsupportedMachine header.machine)
  require (header.sectionEntrySize.toNat = sectionHeaderSize)
    (.badSectionHeaderSize header.sectionEntrySize)
  let sectionCount := header.sectionCount.toNat
  let tableStart := header.sectionOffset.toNat
  let tableSize := sectionCount * sectionHeaderSize
  require (tableStart + tableSize ≤ image.length) .sectionTableOutOfBounds
  let table := slice image tableStart tableSize
  let sections := (records sectionHeaderSize table).map Section.decode
  refuse (sectionFault? image sections)
  require (header.namesIndex ≠ 0) .badStringTableIndex
  let sectionNames ←
    demand (stringTable? image sections header.namesIndex.toNat) .badStringTableIndex
  let tables := symbolTables sections
  require (tables.length ≤ 1) .multipleSymbolTables
  let (symbols, symbolNames) ←
    match tables.head? with
    | none => .ok ([], [])
    | some (header, _) => demand (symbolTable? image sections header) .malformedSymbolTable
  refuse (symbols.zipIdx.findSome? fun (symbol, index) =>
    symbolFault? sectionCount symbolNames symbol index)
  refuse (sections.zipIdx.findSome? fun (header, index) =>
    relocationFault? image sectionCount (tables.head?.map Prod.snd) symbols.length header index)
  return { image, header, machine, sections, symbols, symbolNames, sectionNames }

def sectionName (object : Object) (header : Section) : String :=
  textAt object.sectionNames header.nameOffset.toNat

def symbolName (object : Object) (symbol : Symbol) : String :=
  textAt object.symbolNames symbol.nameOffset.toNat

/-- The first section with a name. -/
def findSection? (object : Object) (name : String) : Option Section :=
  object.sections.find? fun header => object.sectionName header = name

/-- The first defined symbol with a name. -/
def findSymbol? (object : Object) (name : String) : Option Symbol :=
  object.symbols.find? fun symbol => !symbol.isUndefined && object.symbolName symbol = name

/-- The contents of a section in the file. -/
def contents (object : Object) (header : Section) : List UInt8 :=
  if header.isNoBits then [] else claimed object.image header

/-- The relocations for one section. -/
structure RelocationGroup where
  /-- The index of the section to patch. -/
  target : Nat
  /-- The section that holds the relocations. -/
  source : Section
  relocations : List Relocation
  deriving Repr

/-- The relocation sections in order. -/
def relocationGroups (object : Object) : List RelocationGroup :=
  (object.sections.filter fun header => header.kind = kindRelocations).map fun header =>
    ⟨header.info.toNat, header, relocationsIn object.image header⟩

/-- Whether the object has relocations without addends, which the host refuses. -/
def hasBareRelocations (object : Object) : Bool :=
  object.sections.any fun header => header.kind = kindBareRelocations

end Object

end ModuleHost
