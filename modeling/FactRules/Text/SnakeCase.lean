import FactRules.Text.Case

/-!
# Snake case

`snakeCase` writes a name with its words in lower case and joined by underscores. Word boundaries
are found in two passes from left to right: before a capital that starts a run of small letters
(`markTitles`), and between a small letter or digit and a capital (`markCapitals`). Only ASCII
letters make boundaries.
-/

namespace FactRules.Text

/-- Puts an underscore before each capital with small letters after it, unless it starts the line.
The character before the capital, the capital and its small letters are passed as a whole, so the
next boundary is looked for after them; `inTitle` says that small letters of a capital are being
passed. -/
def markTitles (inTitle : Bool) : List Char → List Char
  | c :: capital :: small :: rest =>
    if inTitle && c.isLower then c :: markTitles true (capital :: small :: rest)
    else if c ≠ '\n' && capital.isUpper && small.isLower then
      c :: '_' :: capital :: small :: markTitles true rest
    else c :: markTitles false (capital :: small :: rest)
  | short => short

/-- Puts an underscore between each small letter or digit and a capital after it. -/
def markCapitals : List Char → List Char
  | c :: capital :: rest =>
    if (c.isLower || c.isDigit) && capital.isUpper then c :: '_' :: capital :: markCapitals rest
    else c :: markCapitals (capital :: rest)
  | short => short

/-- The snake-case form of a name. -/
def snakeCase (name : List Char) : List Char := lower (markCapitals (markTitles false name))

end FactRules.Text
