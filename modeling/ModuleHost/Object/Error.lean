namespace ModuleHost

/-!
# Faults of an object image
-/

/-- Why an image is not a module object that the host can use. -/
inductive ObjectError
  | tooSmall
  | invalidMagic
  | not64Bit
  | unsupportedEndian
  | unsupportedVersion
  | notRelocatable (kind : UInt16)
  | unsupportedMachine (code : UInt16)
  | badSectionHeaderSize (size : UInt16)
  | sectionTableOutOfBounds
  | sectionOutOfBounds (index : Nat)
  | badStringTableIndex
  | multipleSymbolTables
  | malformedSymbolTable
  | badSymbolSection (index : Nat)
  | badSymbolName (index : Nat)
  | malformedRelocations (index : Nat)
  | relUnsupported
  deriving DecidableEq, Repr

def ObjectError.message : ObjectError → String
  | tooSmall => "image too small"
  | invalidMagic => "bad ELF magic"
  | not64Bit => "not a 64-bit object"
  | unsupportedEndian => "not little-endian"
  | unsupportedVersion => "unsupported ELF version"
  | notRelocatable kind => s!"not a relocatable object (e_type {kind.toNat})"
  | unsupportedMachine code => s!"unsupported machine {code.toNat}"
  | badSectionHeaderSize size => s!"bad section header size {size.toNat}"
  | sectionTableOutOfBounds => "section header table out of bounds"
  | sectionOutOfBounds index => s!"section {index} contents out of bounds"
  | badStringTableIndex => "bad section name string table index"
  | multipleSymbolTables => "more than one symbol table"
  | malformedSymbolTable => "malformed symbol table"
  | badSymbolSection index => s!"symbol {index} refers to a nonexistent section"
  | badSymbolName index => s!"symbol {index} has an unreadable name"
  | malformedRelocations index => s!"malformed relocation section {index}"
  | relUnsupported => "REL sections without addends are not supported"

end ModuleHost
