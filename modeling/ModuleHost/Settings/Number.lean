import ModuleHost.Page

namespace ModuleHost
namespace Settings

/-!
# Numbers on the command line

A number is `[0x|0X] digits [K|M|G]`: decimal digits, or hexadecimal ones after
the mark, with underscores anywhere among them and at least one digit in all.
The unit letter, in either case, multiplies by a power of 1024.  Neither the
digits nor the product may leave the machine word.
-/

/-- The factor that a unit letter stands for. -/
def unitFactor? (letter : Char) : Option Nat :=
  if letter = 'K' ∨ letter = 'k' then some (1 <<< 10)
  else if letter = 'M' ∨ letter = 'm' then some (1 <<< 20)
  else if letter = 'G' ∨ letter = 'g' then some (1 <<< 30)
  else none

/-- Split a unit letter off the end; without one the factor is one. -/
def splitUnit (text : List Char) : List Char × Nat :=
  match text.getLast?.bind unitFactor? with
  | some factor => (text.dropLast, factor)
  | none => (text, 1)

/-- Split the radix mark off the front; without one the radix is ten. -/
def splitRadix : List Char → List Char × Nat
  | '0' :: 'x' :: digits => (digits, 16)
  | '0' :: 'X' :: digits => (digits, 16)
  | digits => (digits, 10)

/-- The value of a digit, letters counting on from ten in either case. -/
def digitValue? (char : Char) : Option Nat :=
  if '0' ≤ char ∧ char ≤ '9' then some (char.toNat - '0'.toNat)
  else if 'a' ≤ char ∧ char ≤ 'f' then some (char.toNat - 'a'.toNat + 10)
  else if 'A' ≤ char ∧ char ≤ 'F' then some (char.toNat - 'A'.toNat + 10)
  else none

/-- The digit that a character is in the given radix. -/
def digitIn? (radix : Nat) (char : Char) : Option Nat :=
  (digitValue? char).filter (· < radix)

/-- A product or sum that still fits a machine word. -/
def wordSized? (number : Nat) : Option Nat :=
  if number < addressLimit then some number else none

/-- Read digits onto an accumulated value, skipping underscores. -/
def readDigits? (radix : Nat) : Nat → List Char → Option Nat
  | value, [] => some value
  | value, char :: rest =>
    if char = '_' then readDigits? radix value rest
    else do
      let digit ← digitIn? radix char
      let value ← wordSized? (value * radix + digit)
      readDigits? radix value rest

/-- The number that a command-line value spells. -/
def number? (text : List Char) : Option Nat := do
  let (text, factor) := splitUnit text
  let (digits, radix) := splitRadix text
  let value ← readDigits? radix 0 digits
  if digits.any (· ≠ '_') then wordSized? (value * factor) else none

end Settings
end ModuleHost
