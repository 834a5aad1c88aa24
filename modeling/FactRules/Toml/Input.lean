/-!
# The characters of a TOML document

A reader takes the characters ahead and gives what it read and the characters after it. Here are the
readers' types and what is passed over between the parts of a document: spaces, comments and line
ends.
-/

namespace FactRules.Toml

/-- The characters that are still to be read. -/
abbrev Input := List Char

/-- A reader gives a value and the rest of the input. -/
abbrev Reader (α : Type) := Input → Option (α × Input)

/-- Drops spaces and tabs. -/
def skipSpaces (input : Input) : Input := input.dropWhile fun c => c = ' ' || c = '\t'

/-- Whether a character is a control character other than the tab. Except for line ends none may
stand in a document. -/
def isControl (c : Char) : Bool := (c.toNat < 0x20 && c ≠ '\t') || c.toNat = 0x7f

/-- Drops a comment, up to the end of its line or to a control character that may not stand there,
which no reader then accepts. -/
def skipComment : Input → Input
  | '#' :: rest => rest.dropWhile (!isControl ·)
  | input => input

/-- Drops spaces, tabs, comments and line ends. -/
def skipBlank (fuel : Nat) (input : Input) : Input :=
  match fuel, skipComment (skipSpaces input) with
  | fuel + 1, '\n' :: rest => skipBlank fuel rest
  | _, rest => rest

/-- Line ends of two characters become one; a carriage return by itself stays. -/
def joinLineEnds : Input → Input
  | '\r' :: '\n' :: rest => '\n' :: joinLineEnds rest
  | c :: rest => c :: joinLineEnds rest
  | [] => []

end FactRules.Toml
