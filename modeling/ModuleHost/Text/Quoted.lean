import ModuleHost.Text.Glyphless

namespace ModuleHost
namespace Text

/-!
# Quoted text

A value quoted in a message stands between double quotes.  The quote and the
backslash are escaped, so are tab, line feed, carriage return and NUL; any other
character without a glyph of its own is written as its code point in braces.
An apostrophe needs no escape.
-/

/-- One character as it stands inside the quotes. -/
def quotedChar (char : Char) : List Char :=
  if char = '"' ∨ char = '\\' then ['\\', char]
  else if char = '\t' then ['\\', 't']
  else if char = '\r' then ['\\', 'r']
  else if char = '\n' then ['\\', 'n']
  else if char = '\x00' then ['\\', '0']
  else if isGlyphless char then
    ['\\', 'u', '\x7b'] ++ Nat.toDigits 16 char.toNat ++ ['\x7d']
  else [char]

/-- A text between double quotes, with escapes inside. -/
def quoted (text : String) : String :=
  String.ofList ('"' :: text.toList.flatMap quotedChar ++ ['"'])

end Text
end ModuleHost
