import FactRules.Numeral
import FactRules.Toml.Moment
import FactRules.Toml.Tree

/-!
# Reading TOML

`Toml.read?` reads a TOML document as the entries of its top table, keys in the order in which they
first appear, or finds that the text is no such document. Strings of all four kinds, numbers in all
notations, truth values, dates and times, arrays, inline tables, dotted and quoted keys, tables and
arrays of tables are read.

Arrays and inline tables nest, and `fuel` bounds the nesting and the length; the number of
characters always suffices.
-/

namespace FactRules.Toml

/-! ## Strings -/

/-- The value of a hexadecimal digit. -/
def hexValue? (c : Char) : Option Nat :=
  if c.isDigit then some (c.toNat - '0'.toNat)
  else if 'a' ≤ c ∧ c ≤ 'f' then some (c.toNat - 'a'.toNat + 10)
  else if 'A' ≤ c ∧ c ≤ 'F' then some (c.toNat - 'A'.toNat + 10)
  else none

/-- The number written by `count` hexadecimal digits. -/
def hexNumber : Nat → Nat → Reader Nat
  | 0, n, input => some (n, input)
  | count + 1, n, c :: rest => do hexNumber count (16 * n + (← hexValue? c)) rest
  | _ + 1, _, [] => none

/-- The character of a code point, if there is one. -/
def charOfCode? (code : Nat) : Option Char :=
  if code.isValidChar then some (Char.ofNat code) else none

/-- Reads what follows a backslash. -/
def escaped : Reader Char
  | 'b' :: rest => some ('\x08', rest)
  | 't' :: rest => some ('\t', rest)
  | 'n' :: rest => some ('\n', rest)
  | 'f' :: rest => some ('\x0c', rest)
  | 'r' :: rest => some ('\r', rest)
  | '"' :: rest => some ('"', rest)
  | '\\' :: rest => some ('\\', rest)
  | 'u' :: rest => do
    let (code, rest) ← hexNumber 4 0 rest
    return (← charOfCode? code, rest)
  | 'U' :: rest => do
    let (code, rest) ← hexNumber 8 0 rest
    return (← charOfCode? code, rest)
  | _ => none

/-- Puts a character before what a reader gives. -/
def before (c : Char) (read : Option (List Char × Input)) : Option (List Char × Input) :=
  read.map fun (text, rest) => (c :: text, rest)

/-- Reads a string of one line up to its quote; `escapes` says whether backslashes count. -/
def lineString (quote : Char) (escapes : Bool) : Nat → Reader (List Char)
  | 0, _ | _ + 1, [] => none
  | fuel + 1, c :: rest =>
    if c = quote then some ([], rest)
    else if isControl c then none
    else if escapes && c = '\\' then do
      let (c, rest) ← escaped rest
      before c (lineString quote escapes fuel rest)
    else before c (lineString quote escapes fuel rest)

/-- Reads a string of several lines up to its three quotes; up to two quotes more belong to it. A
backslash before a line end drops the blanks and line ends that follow. -/
def blockString (quote : Char) (escapes : Bool) : Nat → Reader (List Char)
  | 0, _ | _ + 1, [] => none
  | fuel + 1, c :: rest =>
    if c = quote && rest.take 2 = [quote, quote] then
      let more := ((rest.drop 2).take 2).takeWhile (· = quote)
      some (more, rest.drop (2 + more.length))
    else if isControl c && c ≠ '\n' then none
    else if escapes && c = '\\' then
      match skipSpaces rest with
      | '\n' :: after =>
        blockString quote escapes fuel
          (after.dropWhile fun c => c = ' ' || c = '\t' || c = '\n')
      | _ => do
        let (c, rest) ← escaped rest
        before c (blockString quote escapes fuel rest)
    else before c (blockString quote escapes fuel rest)

/-- Drops the line end right after the quotes that open a block string. -/
def skipFirstLineEnd : Input → Input
  | '\n' :: rest => rest
  | input => input

/-- Reads a string of one line that starts here. -/
def shortString? : Input → Option (Reader (List Char) × Input)
  | '"' :: rest => some (lineString '"' true rest.length.succ, rest)
  | '\'' :: rest => some (lineString '\'' false rest.length.succ, rest)
  | _ => none

/-- Reads a string of any kind that starts here. -/
def string? : Input → Option (Reader (List Char) × Input)
  | '"' :: '"' :: '"' :: rest =>
    some (blockString '"' true rest.length.succ, skipFirstLineEnd rest)
  | '\'' :: '\'' :: '\'' :: rest =>
    some (blockString '\'' false rest.length.succ, skipFirstLineEnd rest)
  | input => shortString? input

/-! ## Keys -/

/-- Whether a character may stand in a key without quotes. -/
def isBare (c : Char) : Bool := c.isAlphanum || c = '_' || c = '-'

/-- Reads one part of a key. -/
def keyPart (input : Input) : Option (String × Input) :=
  match shortString? input with
  | some (read, rest) => (read rest).map fun (text, rest) => (String.ofList text, rest)
  | none =>
    let part := input.takeWhile isBare
    if part.isEmpty then none else some (String.ofList part, input.dropWhile isBare)

/-- Reads a dotted key: the parts before the last one, and the last one. -/
def dottedKey : Nat → Reader (List String × String)
  | 0, _ => none
  | fuel + 1, input => do
    let (part, rest) ← keyPart input
    match skipSpaces rest with
    | '.' :: rest =>
      let ((parts, last), rest) ← dottedKey fuel (skipSpaces rest)
      return ((part :: parts, last), rest)
    | rest => return (([], part), rest)

/-! ## Numbers -/

/-- The number written by digits of a base, underscores between digits dropped. -/
def based? (base : Nat) (digits : List Char) : Option Nat := do
  let joined ← joinBased true digits
  if joined.isEmpty then none
  joined.foldlM (fun n c => do
    let value ← hexValue? c
    if value < base then some (base * n + value) else none) 0
where
  /-- Drops underscores that stand between two characters. -/
  joinBased (first : Bool) : List Char → Option (List Char)
    | [] => some []
    | '_' :: next :: rest =>
      if first || next = '_' then none else (joinBased false rest).map (next :: ·)
    | ['_'] => none
    | c :: rest => (joinBased false rest).map (c :: ·)

/-- Whether a run of digits has no zero before other digits. -/
def noLeadingZero : List Char → Bool
  | '0' :: _ :: _ => false
  | _ => true

/-- The number of a decimal token without sign and underscores: whole, or a double. -/
def decimal? (negative : Bool) (text : List Char) : Option Value :=
  let whole := text.takeWhile Char.isDigit
  let rest := text.dropWhile Char.isDigit
  if whole.isEmpty || !noLeadingZero whole then none
  else
    match rest with
    | [] =>
      if Value.maxDigits < whole.length then none
      else
        let n : Int := Numeral.digitsValue whole
        some (.int (if negative then -n else n))
    | '.' :: more =>
      if (more.head?.map Char.isDigit).getD false then double? else none
    | _ => double?
where
  /-- The token as a double; a zero, and what is too small to differ from it, has no sign. -/
  double? : Option Value :=
    (Numeral.decimal? text).map fun (digits, exponent) =>
      .float (Binary.ofDecimal negative digits exponent).dropZeroSign

/-- The value of a token: a truth value or a number. -/
def token? (token : List Char) : Option Value :=
  let (negative, body) := Numeral.takeSign token
  let signed := body.length ≠ token.length
  let word := String.ofList body
  if word = "true" then if signed then none else some (.bool true)
  else if word = "false" then if signed then none else some (.bool false)
  else if word = "inf" then some (.float (.infinity negative))
  else if word = "nan" then some (.float .nan)
  else
    match body with
    | '0' :: 'x' :: digits => unsigned signed (based? 16 digits)
    | '0' :: 'o' :: digits => unsigned signed (based? 8 digits)
    | '0' :: 'b' :: digits => unsigned signed (based? 2 digits)
    | _ => do decimal? negative (← Numeral.joinDigits? false body)
where
  /-- A number that may have no sign. -/
  unsigned (signed : Bool) (n : Option Nat) : Option Value :=
    if signed then none else n.map fun n => .int n

/-- Whether a character may stand in a token. -/
def isToken (c : Char) : Bool := c.isAlphanum || c = '_' || c = '+' || c = '-' || c = '.'

/-! ## Values -/

mutual

/-- Reads a value. -/
def value : Nat → Reader Value
  | 0, _ => none
  | fuel + 1, input =>
    match string? input with
    | some (read, rest) => (read rest).map fun (text, rest) => (.str (String.ofList text), rest)
    | none =>
      match input with
      | '[' :: rest =>
        (items fuel (skipBlank rest.length rest)).map fun (values, rest) => (.list values, rest)
      | '{' :: rest =>
        match skipSpaces rest with
        | '}' :: rest => some (.table [], rest)
        | rest => (pairs fuel [] rest).map fun (entries, rest) =>
            (.table (Tree.entriesToValues entries), rest)
      | _ =>
        match moment input with
        | some read => some read
        | none =>
          (token? (input.takeWhile isToken)).map fun read => (read, input.dropWhile isToken)

/-- Reads the items of an array up to its closing bracket. -/
def items : Nat → Reader (List Value)
  | 0, _ => none
  | _ + 1, ']' :: rest => some ([], rest)
  | fuel + 1, input => do
    let (first, rest) ← value fuel input
    match skipBlank rest.length rest with
    | ',' :: rest =>
      let (others, rest) ← items fuel (skipBlank rest.length rest)
      return (first :: others, rest)
    | ']' :: rest => return ([first], rest)
    | _ => none

/-- Reads the pairs of an inline table up to its closing brace. -/
def pairs : Nat → Branches → Reader Branches
  | 0, _, _ => none
  | fuel + 1, entries, input => do
    let ((dots, key), rest) ← dottedKey input.length.succ (skipSpaces input)
    match skipSpaces rest with
    | '=' :: rest =>
      let (read, rest) ← value fuel (skipSpaces rest)
      let entries ← Tree.assign [] dots key read entries
      match skipSpaces rest with
      | ',' :: rest => pairs fuel entries rest
      | '}' :: rest => return (entries, rest)
      | _ => none
    | _ => none

end

/-! ## Documents -/

/-- Reads the end of a line: spaces, perhaps a comment, and a line end or the end of the text. -/
def endLine? (input : Input) : Option Input :=
  match skipComment (skipSpaces input) with
  | [] => some []
  | '\n' :: rest => some rest
  | _ => none

/-- Reads one line of a document, given the tables so far and the path of the table that pairs
belong to. -/
def expression (root : Branches) (here : List String) (input : Input) :
    Option ((Branches × List String) × Input) :=
  match input with
  | '[' :: '[' :: rest => do
    let ((path, key), rest) ← dottedKey rest.length.succ (skipSpaces rest)
    match skipSpaces rest with
    | ']' :: ']' :: rest => return ((← Tree.openItem path key root, path ++ [key]), rest)
    | _ => none
  | '[' :: rest => do
    let ((path, key), rest) ← dottedKey rest.length.succ (skipSpaces rest)
    match skipSpaces rest with
    | ']' :: rest => return ((← Tree.openTable path key root, path ++ [key]), rest)
    | _ => none
  | _ => do
    let ((dots, key), rest) ← dottedKey input.length.succ input
    match skipSpaces rest with
    | '=' :: rest =>
      let (read, rest) ← value rest.length.succ (skipSpaces rest)
      return ((← Tree.assign here dots key read root, here), rest)
    | _ => none

/-- Reads the lines of a document. -/
def expressions : Nat → Branches → List String → Input → Option Branches
  | fuel, root, here, input =>
    match fuel, skipBlank input.length input with
    | _, [] => some root
    | 0, _ => none
    | fuel + 1, input => do
      let ((root, here), rest) ← expression root here input
      expressions fuel root here (← endLine? rest)

/-- Reads a TOML document as the entries of its top table. It follows the standard, so the items of
an array may be of different kinds, which a reader of an earlier version of TOML refuses. -/
def read? (text : String) : Option (List (String × Value)) :=
  let input := joinLineEnds text.toList
  (expressions input.length [] [] input).map Tree.entriesToValues

end FactRules.Toml
