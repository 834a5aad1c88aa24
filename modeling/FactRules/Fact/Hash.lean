import FactRules.Binary.Rounding
import FactRules.Text.Blank
import FactRules.Text.Case

/-!
# Text as a fact value

Facts are numbers, so a text is kept as a number: `textValue` folds its case, drops its blanks,
hashes the UTF-8 bytes of what is left to 32 bits and reads these as a single. Some texts hash to a
pattern that is no number; such a fact satisfies no criterion.

The hash takes the bytes four at a time as little-endian words (`absorb`), then the bytes left over
one at a time, then a terminator. Each step rotates the state, adds the word by exclusive or and
multiplies by an odd constant (`mix`).
-/

namespace FactRules

namespace Hash

/-- One step of the hash: the state after one more word. -/
def mix (state word : UInt32) : UInt32 :=
  ((state <<< 5 ||| state >>> 27) ^^^ word) * 0x9e3779b9

/-- The word of four bytes, the first being the least significant. -/
def word (a b c d : UInt8) : UInt32 :=
  a.toUInt32 ||| b.toUInt32 <<< 8 ||| c.toUInt32 <<< 16 ||| d.toUInt32 <<< 24

/-- The state after all bytes of a text: full words first, then the bytes left over. -/
def absorb (state : UInt32) : List UInt8 → UInt32
  | a :: b :: c :: d :: rest => absorb (mix state (word a b c d)) rest
  | tail => tail.foldl (fun state byte => mix state byte.toUInt32) state

/-- The hash of a string of bytes. -/
def ofBytes (bytes : List UInt8) : UInt32 := mix (absorb 0 bytes) 0xff

end Hash

/-- The UTF-8 bytes of a text. -/
def utf8 (text : List Char) : List UInt8 := text.flatMap String.utf8EncodeChar

/-- A text in lower case and without blanks. -/
def foldedText (text : List Char) : List Char := (Text.words (Text.lower text)).flatten

/-- The fact value that stands for a text. -/
def textValue (text : List Char) : Single :=
  .ofBits (Hash.ofBytes (utf8 (foldedText text))).toNat

end FactRules
