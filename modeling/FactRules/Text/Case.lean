import FactRules.Text.Case.Runs

/-!
# Letter case

`lower` is the full lower-case form of a text: most letters have a lower-case form of one
character, the dotted capital I has one of two, and a capital sigma becomes a final sigma where it
ends a word. `upperAscii?` is the upper-case form of a character where that form is ASCII.
-/

namespace FactRules.Text

/-- The lower-case form of a character by itself. -/
def lowerChar (c : Char) : List Char :=
  if c.toNat < 0x80 then [c.toLower]
  else if c = 'İ' then ['i', '\u0307']
  else
    match lowerRuns.find? fun run =>
      decide (run.first ≤ c.toNat ∧ c.toNat ≤ run.last) && (c.toNat - run.first) % run.step = 0 with
    | some run => [Char.ofNat (c.toNat + run.shift).toNat]
    | none => [c]

/-- Whether the nearest character that is not passed over is cased. -/
def besideLetter (characters : List Char) : Bool :=
  match characters.dropWhile (inSpans ignorableSpans) with
  | [] => false
  | c :: _ => inSpans casedSpans c

/-- The lower-case form of a text whose characters before it, nearest first, are `before`. A
capital sigma after a letter and not before one is final. -/
def lowerAfter (before : List Char) : List Char → List Char
  | [] => []
  | c :: rest =>
    let here :=
      if c = 'Σ' then [if besideLetter before && !besideLetter rest then 'ς' else 'σ']
      else lowerChar c
    here ++ lowerAfter (c :: before) rest

/-- The lower-case form of a text. -/
def lower (text : List Char) : List Char := lowerAfter [] text

/-- The upper-case form of a character, if it consists of ASCII characters. Besides ASCII itself
these are the dotless i, the long s, the sharp s and the Latin ligatures. -/
def upperAscii? (c : Char) : Option (List Char) :=
  if c.toNat < 0x80 then some [c.toUpper]
  else
    match c with
    | 'ß' => some ['S', 'S']
    | 'ı' => some ['I']
    | 'ſ' => some ['S']
    | 'ﬀ' => some ['F', 'F']
    | 'ﬁ' => some ['F', 'I']
    | 'ﬂ' => some ['F', 'L']
    | 'ﬃ' => some ['F', 'F', 'I']
    | 'ﬄ' => some ['F', 'F', 'L']
    | 'ﬅ' | 'ﬆ' => some ['S', 'T']
    | _ => none

end FactRules.Text
