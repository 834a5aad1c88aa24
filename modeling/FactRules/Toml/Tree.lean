import FactRules.Entries
import FactRules.Value

/-!
# Tables under construction

While a TOML document is read, each table remembers how it came about, because that decides what may
still be added to it: a table named by a header may not be named by another one, a table that was
only passed on the way to another may still get a header, unless dotted keys went through it first,
and a table of dotted keys may be extended by dotted keys alone. An array of tables grows by a table
at each of its headers.

`Tree.openTable`, `Tree.openItem` and `Tree.assign` are the three ways a document adds to its
tables; each gives nothing where the document defines something twice.
-/

namespace FactRules.Toml

/-- How a table came about: on the way to another table, by its own header, or by dotted keys. -/
inductive Origin where
  | passed
  | header
  | dotted
deriving DecidableEq

/-- A value, a table with its origin, or an array of tables. -/
inductive Tree where
  | leaf (value : Value)
  | table (origin : Origin) (entries : List (String × Tree))
  | tables (items : List (List (String × Tree)))

/-- The entries of a table under construction. -/
abbrev Branches := List (String × Tree)

/-- The origin of a table after a path led through it: one that was only passed before is then
taken to be made by this path. -/
def Origin.enteredBy (making : Origin) : Origin → Origin
  | passed => making
  | origin => origin

namespace Tree

/-- Changes the entries at the end of a path. Tables missing on the way are made with the origin
`making`; tables of an origin that `through` refuses may not be entered; an array of tables is
entered at its last table if `arrays` is set. -/
def alter (making : Origin) (through : Origin → Bool) (arrays : Bool)
    (change : Branches → Option Branches) : List String → Branches → Option Branches
  | [], entries => change entries
  | key :: path, entries =>
    match Entries.get? key entries with
    | none => (alter making through arrays change path []).map fun made =>
        Entries.put key (table making made) entries
    | some (table origin inner) =>
      if through origin then
        (alter making through arrays change path inner).map fun changed =>
          Entries.put key (table (origin.enteredBy making) changed) entries
      else none
    | some (tables items) =>
      match arrays, items.getLast? with
      | true, some last =>
        (alter making through arrays change path last).map fun changed =>
          Entries.put key (tables (items.dropLast ++ [changed])) entries
      | _, _ => none
    | some (leaf _) => none

/-- Changes the entries of the table that a header path leads to. -/
def alterAt (path : List String) (change : Branches → Option Branches) (root : Branches) :
    Option Branches :=
  alter .passed (fun _ => true) true change path root

/-- Defines the table of a header. -/
def openTable (path : List String) (key : String) (root : Branches) : Option Branches :=
  alterAt path (fun entries =>
    match Entries.get? key entries with
    | none => some (Entries.put key (table .header []) entries)
    | some (table .passed inner) => some (Entries.put key (table .header inner) entries)
    | some _ => none) root

/-- Adds a table to the array of tables of a header. -/
def openItem (path : List String) (key : String) (root : Branches) : Option Branches :=
  alterAt path (fun entries =>
    match Entries.get? key entries with
    | none => some (Entries.put key (tables [[]]) entries)
    | some (tables items) => some (Entries.put key (tables (items ++ [[]])) entries)
    | some _ => none) root

/-- Defines the value of a dotted key in the table that a header path leads to. -/
def assign (path dots : List String) (key : String) (value : Value) (root : Branches) :
    Option Branches :=
  alterAt path (alter .dotted (· != .header) false (fun entries =>
    match Entries.get? key entries with
    | none => some (Entries.put key (leaf value) entries)
    | some _ => none) dots) root

mutual

/-- The finished value of a tree. -/
def toValue : Tree → Value
  | leaf value => value
  | table _ entries => .table (entriesToValues entries)
  | tables items => .list (itemsToValues items)

/-- The finished values of a table's entries. -/
def entriesToValues : List (String × Tree) → List (String × Value)
  | [] => []
  | (key, tree) :: rest => (key, tree.toValue) :: entriesToValues rest

/-- The finished tables of an array of tables. -/
def itemsToValues : List (List (String × Tree)) → List Value
  | [] => []
  | entries :: rest => .table (entriesToValues entries) :: itemsToValues rest

end

end Tree

end FactRules.Toml
