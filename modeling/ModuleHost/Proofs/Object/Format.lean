import Mathlib.Algebra.Ring.Nat
import ModuleHost.Object

namespace ModuleHost
namespace Object

/-!
# The format of an object image

The numbers that stand at fixed places of an image decide whether it is a relocatable
object, and what its sections, symbols and relocations are.  Both are said here in terms of
the bytes alone, without the order of any checks and without the decoding of any table.
Section headers take 64 bytes, symbols and relocations 24.
-/

/-- The number in the bytes from a position on, lowest byte first. -/
def numberAt (image : List UInt8) (position width : Nat) : Nat :=
  ((List.range width).map fun place => (image.getD (position + place) 0).toNat * 256 ^ place).sum

/-- The text stands in a string table at an offset and ends in front of a NUL.  The empty
text also stands at the start of an empty table. -/
def Spells (table : List UInt8) (offset : Nat) (text : String) : Prop :=
  (table = [] ∧ offset = 0 ∧ text = "") ∨
    ∃ front back, table = front ++ Text.encode text ++ 0 :: back ∧ front.length = offset ∧
      0 ∉ Text.encode text

namespace Format

variable (image : List UInt8)

def sectionCount : Nat := numberAt image 60 2

/-- The section with the names of the sections. -/
def namesIndex : Nat := numberAt image 62 2

/-- Where the header of a section starts. -/
def headerStart (index : Nat) : Nat := numberAt image 40 8 + 64 * index

def kind (index : Nat) : Nat := numberAt image (headerStart image index + 4) 4

def offset (index : Nat) : Nat := numberAt image (headerStart image index + 24) 8

def size (index : Nat) : Nat := numberAt image (headerStart image index + 32) 8

def link (index : Nat) : Nat := numberAt image (headerStart image index + 40) 4

def info (index : Nat) : Nat := numberAt image (headerStart image index + 44) 4

def entrySize (index : Nat) : Nat := numberAt image (headerStart image index + 56) 8

/-- The bytes of a section. -/
def contents (index : Nat) : List UInt8 :=
  (image.drop (offset image index)).take (size image index)

/-- How many symbols or relocations a section holds. -/
def entryCount (index : Nat) : Nat := size image index / 24

/-- Where a symbol or relocation of a section starts. -/
def entryStart (index entry : Nat) : Nat := offset image index + 24 * entry

/-- The section that a symbol of a symbol table lives in. -/
def symbolHome (table entry : Nat) : Nat := numberAt image (entryStart image table entry + 6) 2

def symbolName (table entry : Nat) : Nat := numberAt image (entryStart image table entry) 4

/-- The symbol that a relocation refers to. -/
def relocationSymbol (index entry : Nat) : Nat :=
  numberAt image (entryStart image index entry + 8) 8 / 2 ^ 32

/-- A symbol is undefined, absolute, common or in a section of the object.  Its name can be
read, and is not empty if the symbol has to be found by it. -/
structure SymbolSound (table entry : Nat) : Prop where
  home : symbolHome image table entry = 0 ∨ symbolHome image table entry = 0xfff1 ∨
    symbolHome image table entry = 0xfff2 ∨
    (symbolHome image table entry < 0xff00 ∧ symbolHome image table entry < sectionCount image)
  name : ∃ text, Spells (contents image (link image table)) (symbolName image table entry) text ∧
    (entry ≠ 0 → symbolHome image table entry = 0 → text ≠ "")

/-- A symbol table consists of whole symbols and names them by a string table. -/
structure SymbolTableSound (index : Nat) : Prop where
  entrySize : entrySize image index = 24
  whole : 24 ∣ size image index
  link_lt : link image index < sectionCount image
  names : kind image (link image index) = 3
  symbols : ∀ entry < entryCount image index, SymbolSound image index entry

/-- A relocation section consists of whole relocations for a section of the object, and
refers to symbols of the symbol table. -/
structure RelocationsSound (index : Nat) : Prop where
  entrySize : entrySize image index = 24
  whole : 24 ∣ size image index
  info_pos : 0 < info image index
  info_lt : info image index < sectionCount image
  link_lt : link image index < sectionCount image
  symbolTable : kind image (link image index) = 2
  symbols : ∀ entry < entryCount image index,
    relocationSymbol image index entry < entryCount image (link image index)

/-- The header is that of a 64-bit little-endian relocatable object for one of the
machines, and the section headers lie in the image. -/
structure HeaderSound : Prop where
  long : 64 ≤ image.length
  magic : image.take 4 = [0x7f, 0x45, 0x4c, 0x46]
  width : numberAt image 4 1 = 2
  order : numberAt image 5 1 = 1
  identVersion : numberAt image 6 1 = 1
  version : numberAt image 20 4 = 1
  relocatable : numberAt image 16 2 = 1
  machine : numberAt image 18 2 = 62 ∨ numberAt image 18 2 = 183 ∨ numberAt image 18 2 = 243
  headerSize : numberAt image 58 2 = 64
  table : numberAt image 40 8 + 64 * sectionCount image ≤ image.length

/-- The image is an object that can be loaded. -/
structure WellFormed : Prop extends HeaderSound image where
  /-- Sections that are neither null nor without bits lie in the image. -/
  inside : ∀ index < sectionCount image, kind image index ≠ 0 → kind image index ≠ 8 →
    offset image index + size image index ≤ image.length
  names_pos : 0 < namesIndex image
  names_lt : namesIndex image < sectionCount image
  names : kind image (namesIndex image) = 3
  oneSymbolTable : ∀ index < sectionCount image, ∀ other < sectionCount image,
    kind image index = 2 → kind image other = 2 → index = other
  symbolTable : ∀ index < sectionCount image, kind image index = 2 → SymbolTableSound image index
  relocations : ∀ index < sectionCount image, kind image index = 4 → RelocationsSound image index

/-! ## Records -/

def headerRecord : Header where
  ident := image.take 16
  kind := .ofNat (numberAt image 16 2)
  machine := .ofNat (numberAt image 18 2)
  version := .ofNat (numberAt image 20 4)
  entry := .ofNat (numberAt image 24 8)
  programOffset := .ofNat (numberAt image 32 8)
  sectionOffset := .ofNat (numberAt image 40 8)
  flags := .ofNat (numberAt image 48 4)
  headerSize := .ofNat (numberAt image 52 2)
  programEntrySize := .ofNat (numberAt image 54 2)
  programCount := .ofNat (numberAt image 56 2)
  sectionEntrySize := .ofNat (numberAt image 58 2)
  sectionCount := .ofNat (numberAt image 60 2)
  namesIndex := .ofNat (numberAt image 62 2)

/-- The section header that starts at a position. -/
def sectionRecord (start : Nat) : Section where
  nameOffset := .ofNat (numberAt image start 4)
  kind := .ofNat (numberAt image (start + 4) 4)
  flags := .ofNat (numberAt image (start + 8) 8)
  address := .ofNat (numberAt image (start + 16) 8)
  offset := .ofNat (numberAt image (start + 24) 8)
  size := .ofNat (numberAt image (start + 32) 8)
  link := .ofNat (numberAt image (start + 40) 4)
  info := .ofNat (numberAt image (start + 44) 4)
  alignment := .ofNat (numberAt image (start + 48) 8)
  entrySize := .ofNat (numberAt image (start + 56) 8)

/-- The symbol that starts at a position. -/
def symbolRecord (start : Nat) : Symbol where
  nameOffset := .ofNat (numberAt image start 4)
  info := .ofNat (numberAt image (start + 4) 1)
  other := .ofNat (numberAt image (start + 5) 1)
  sectionIndex := .ofNat (numberAt image (start + 6) 2)
  value := .ofNat (numberAt image (start + 8) 8)
  size := .ofNat (numberAt image (start + 16) 8)

/-- The relocation that starts at a position; its addend is signed. -/
def relocationRecord (start : Nat) : Relocation where
  offset := .ofNat (numberAt image start 8)
  info := .ofNat (numberAt image (start + 8) 8)
  addend := (UInt64.ofNat (numberAt image (start + 16) 8)).toInt64

/-- The section header at an index. -/
def sectionAt (index : Nat) : Section :=
  sectionRecord image (headerStart image index)

def sections : List Section :=
  (List.range (sectionCount image)).map (sectionAt image)

/-- The symbols of the symbol table at an index. -/
def symbols (table : Nat) : List Symbol :=
  (List.range (entryCount image table)).map fun entry =>
    symbolRecord image (entryStart image table entry)

/-- The relocations of the relocation section at an index. -/
def relocations (index : Nat) : List Relocation :=
  (List.range (entryCount image index)).map fun entry =>
    relocationRecord image (entryStart image index entry)

/-- The relocation sections in order, each with what it relocates. -/
def relocationGroups : List RelocationGroup :=
  ((List.range (sectionCount image)).filter fun index => kind image index = 4).map fun index =>
    { target := info image index
      source := sectionAt image index
      relocations := relocations image index }

/-- The object is what the image says. -/
structure Decodes (object : Object) : Prop where
  image_eq : object.image = image
  header_eq : object.header = headerRecord image
  machine_eq : object.machine.code.toNat = numberAt image 18 2
  sections_eq : object.sections = sections image
  sectionNames_eq : object.sectionNames = contents image (namesIndex image)
  contents_eq : ∀ index < sectionCount image, kind image index ≠ 0 → kind image index ≠ 8 →
    object.contents (sectionAt image index) = contents image index
  symbols_eq : ∀ index < sectionCount image, kind image index = 2 →
    object.symbols = symbols image index ∧
      object.symbolNames = contents image (link image index)
  /-- Without a symbol table there are no symbols. -/
  symbols_nil : (∀ index < sectionCount image, kind image index ≠ 2) →
    object.symbols = [] ∧ object.symbolNames = []
  relocations_eq : object.relocationGroups = relocationGroups image

end Format

end Object
end ModuleHost
