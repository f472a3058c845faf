import ModuleHost.Endian

namespace ModuleHost
namespace Object

/-!
# Records of an object file

The fixed-size records of a 64-bit little-endian relocatable object: the file
header, section headers, symbols and relocations with addends.  Decoding reads
every field from its offset and never fails; bytes beyond the data read as zero.
-/

open Endian (slice word8At word16At word32At word64At)

/-- The sizes of the records in bytes. -/
def headerSize : Nat := 64

def sectionHeaderSize : Nat := 64

def symbolSize : Nat := 24

def relocationSize : Nat := 24

/-- The file header. -/
structure Header where
  ident : List UInt8
  kind : UInt16
  machine : UInt16
  version : UInt32
  entry : UInt64
  programOffset : UInt64
  sectionOffset : UInt64
  flags : UInt32
  headerSize : UInt16
  programEntrySize : UInt16
  programCount : UInt16
  sectionEntrySize : UInt16
  sectionCount : UInt16
  namesIndex : UInt16
  deriving DecidableEq, Repr

def Header.decode (data : List UInt8) : Header where
  ident := slice data 0 16
  kind := word16At data 16
  machine := word16At data 18
  version := word32At data 20
  entry := word64At data 24
  programOffset := word64At data 32
  sectionOffset := word64At data 40
  flags := word32At data 48
  headerSize := word16At data 52
  programEntrySize := word16At data 54
  programCount := word16At data 56
  sectionEntrySize := word16At data 58
  sectionCount := word16At data 60
  namesIndex := word16At data 62

/-- The section kinds that the host tells apart. -/
def kindNull : UInt32 := 0

def kindSymbols : UInt32 := 2

def kindStrings : UInt32 := 3

def kindRelocations : UInt32 := 4

/-- Space without contents in the file. -/
def kindNoBits : UInt32 := 8

/-- Relocations without addends. -/
def kindBareRelocations : UInt32 := 9

/-- A section header. -/
structure Section where
  nameOffset : UInt32
  kind : UInt32
  flags : UInt64
  address : UInt64
  offset : UInt64
  size : UInt64
  link : UInt32
  info : UInt32
  alignment : UInt64
  entrySize : UInt64
  deriving DecidableEq, Repr

namespace Section

def decode (data : List UInt8) : Section where
  nameOffset := word32At data 0
  kind := word32At data 4
  flags := word64At data 8
  address := word64At data 16
  offset := word64At data 24
  size := word64At data 32
  link := word32At data 40
  info := word32At data 44
  alignment := word64At data 48
  entrySize := word64At data 56

def isWritable (header : Section) : Bool :=
  header.flags.toNat.testBit 0

/-- The section takes memory in the loaded module. -/
def isAllocated (header : Section) : Bool :=
  header.flags.toNat.testBit 1

def isExecutable (header : Section) : Bool :=
  header.flags.toNat.testBit 2

def isNoBits (header : Section) : Bool :=
  header.kind = kindNoBits

/-- The letters that stand for the marks of a section in a listing. -/
def letters (header : Section) : String :=
  let marks :=
    [(header.isAllocated, "A"), (header.isExecutable, "X"), (header.isWritable, "W"),
      (header.isNoBits, "N")]
  String.join ((marks.filter Prod.fst).map Prod.snd)

end Section

/-- Where a symbol is defined. -/
inductive Home
  | undefined
  | absolute
  | common
  | inSection (index : Nat)
  deriving DecidableEq, Repr

/-- A symbol table entry. -/
structure Symbol where
  nameOffset : UInt32
  info : UInt8
  other : UInt8
  sectionIndex : UInt16
  value : UInt64
  size : UInt64
  deriving DecidableEq, Repr

namespace Symbol

def decode (data : List UInt8) : Symbol where
  nameOffset := word32At data 0
  info := word8At data 4
  other := word8At data 5
  sectionIndex := word16At data 6
  value := word64At data 8
  size := word64At data 16

def binding (symbol : Symbol) : Nat :=
  symbol.info.toNat / 16

def kind (symbol : Symbol) : Nat :=
  symbol.info.toNat % 16

/-- The index decides where a symbol lives; three indices are set apart. -/
def home (symbol : Symbol) : Home :=
  if symbol.sectionIndex = 0 then .undefined
  else if symbol.sectionIndex = 0xfff1 then .absolute
  else if symbol.sectionIndex = 0xfff2 then .common
  else .inSection symbol.sectionIndex.toNat

def isUndefined (symbol : Symbol) : Bool :=
  symbol.home = .undefined

def isWeak (symbol : Symbol) : Bool :=
  symbol.binding = 2

/-- Global and weak symbols are seen by other objects. -/
def isVisible (symbol : Symbol) : Bool :=
  symbol.binding = 1 || symbol.binding = 2

/-- Section and file symbols mark no place in the code. -/
def marksPlace (symbol : Symbol) : Bool :=
  symbol.kind ≠ 3 && symbol.kind ≠ 4

end Symbol

/-- A relocation with addend. -/
structure Relocation where
  offset : UInt64
  info : UInt64
  addend : Int64
  deriving DecidableEq, Repr

namespace Relocation

def decode (data : List UInt8) : Relocation where
  offset := word64At data 0
  info := word64At data 8
  addend := (word64At data 16).toInt64

/-- The index of the symbol that the relocation refers to. -/
def symbolIndex (relocation : Relocation) : Nat :=
  (relocation.info >>> 32).toNat

/-- The machine's number for what to do. -/
def kind (relocation : Relocation) : UInt32 :=
  relocation.info.toUInt32

end Relocation

/-- The records of `size` bytes that a table holds, as many as are whole. -/
def records (size : Nat) (table : List UInt8) : List (List UInt8) :=
  (List.range (table.length / size)).map fun index => slice table (index * size) size

end Object
end ModuleHost
