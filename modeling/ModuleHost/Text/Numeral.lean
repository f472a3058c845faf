namespace ModuleHost
namespace Text

/-!
# Numbers and columns in messages

Addresses are written in lower-case hexadecimal with a leading `0x` and no
padding.  Columns are padded with a filler up to a width counted in characters;
longer text is left alone.
-/

/-- Lower-case hexadecimal with its `0x` mark. -/
def hex (number : Nat) : String :=
  "0x" ++ String.ofList (Nat.toDigits 16 number)

/-- Fill up on the left. -/
def padLeft (filler : Char) (width : Nat) (text : String) : String :=
  String.ofList (List.replicate (width - text.length) filler) ++ text

/-- Fill up on the right. -/
def padRight (filler : Char) (width : Nat) (text : String) : String :=
  text ++ String.ofList (List.replicate (width - text.length) filler)

/-- A size in whole units of 1024 bytes. -/
def kilobytes (size : Nat) : Nat :=
  size / 1024

end Text
end ModuleHost
