namespace ModuleHost
namespace Settings

/-!
# Tokens of a command line

A command line is a sequence of tokens between ASCII blanks.  A token with an
equals sign assigns what follows its first one to the key before it; other tokens
assign nothing.
-/

/-- Blank, tab, line feed, form feed and carriage return. -/
def isBlank (char : Char) : Bool :=
  char = ' ' || char = '\t' || char = '\n' || char = '\x0c' || char = '\r'

/-- The longest blank-free runs of a line, in order. -/
def tokens : List Char → List (List Char)
  | [] => []
  | char :: rest =>
    if isBlank char then tokens rest
    else
      match rest with
      | [] => [[char]]
      | next :: _ =>
        if isBlank next then [char] :: tokens rest
        else
          match tokens rest with
          | [] => [[char]]
          | token :: more => (char :: token) :: more

/-- The key and the value of a token with an equals sign. -/
def assignment? (token : List Char) : Option (List Char × List Char) :=
  match token.span (· ≠ '=') with
  | (key, _ :: value) => some (key, value)
  | (_, []) => none

end Settings
end ModuleHost
