import ModuleHost.Text.Utf8

namespace ModuleHost
namespace Object

/-!
# String tables

A string table is a run of bytes; an offset into it names the text up to the next
NUL.  Lookup is forgiving: a text that runs to the end of the table needs no NUL,
and what lies outside the table or is not UTF-8 reads as the empty text.  The
strict form is for validation.
-/

/-- The text at an offset, empty when there is none. -/
def textAt (table : List UInt8) (offset : Nat) : String :=
  (Text.decode? ((table.drop offset).takeWhile (· ≠ 0))).getD ""

/-- The text at an offset of the table, if it ends in a NUL and is UTF-8.  Offset
zero of an empty table counts as the empty text. -/
def strictTextAt? (table : List UInt8) (offset : Nat) : Option String :=
  if offset = 0 ∧ table = [] then some ""
  else
    let rest := table.drop offset
    if 0 ∈ rest then Text.decode? (rest.takeWhile (· ≠ 0)) else none

end Object
end ModuleHost
