import FactRules.Fact.Hash
import FactRules.OrderedMap
import FactRules.Decimal.Shortest
import FactRules.Text.Quoted

/-!
# Fact stores and chains

A `FactStore` maps keys to singles and keeps its keys in the order in which they came in. A key that
is absent reads as zero, so for a criterion an absent fact and a zero are the same; `lookup?` tells
them apart. A `Chain` is a list of stores asked in turn: the first store that has the key decides.
-/

namespace FactRules

/-- Facts by key, in the order in which the keys came in. -/
structure FactStore where
  facts : OrderedMap String Single

namespace FactStore

/-- The store without facts. -/
def empty : FactStore := ⟨∅⟩

instance : EmptyCollection FactStore := ⟨empty⟩
instance : Inhabited FactStore := ⟨∅⟩

/-- Writes a value, rounded to a single. -/
def add (store : FactStore) (key : String) (value : Double) : FactStore :=
  ⟨store.facts.insert key value.toSingle⟩

/-- Writes the value that stands for a text. -/
def addText (store : FactStore) (key : String) (text : List Char) : FactStore :=
  ⟨store.facts.insert key (textValue text)⟩

/-- Removes a fact, if it is there. -/
def remove (store : FactStore) (key : String) : FactStore := ⟨store.facts.erase key⟩

/-- Removes the facts whose keys start with the given text. -/
def removeStartingWith (store : FactStore) (start : String) : FactStore :=
  ⟨store.facts.eraseWhere fun key => start.toList.isPrefixOf key.toList⟩

/-- The store of a list of writes. -/
def ofList (writes : List (String × Double)) : FactStore :=
  writes.foldl (fun store write => store.add write.1 write.2) ∅

/-- The value of a fact, if it is present. -/
def lookup? (store : FactStore) (key : String) : Option Single := store.facts.get? key

/-- The value of a fact; an absent one is zero. -/
def get (store : FactStore) (key : String) : Single := (store.lookup? key).getD .zero

/-- Whether a fact is present. -/
def contains (store : FactStore) (key : String) : Bool := store.facts.contains key

/-- The facts, in the order in which their keys came in. -/
def items (store : FactStore) : List (String × Single) := store.facts.entries

/-- The keys, in the order in which they came in. -/
def keys (store : FactStore) : List String := store.facts.keys

/-- The number of facts. -/
def size (store : FactStore) : Nat := store.facts.size

/-- Whether two stores have the same keys with equal values, whatever their order. -/
def same (a b : FactStore) : Bool :=
  a.size == b.size && a.items.all fun (key, value) => (b.lookup? key).any value.same

/-- The facts as `key: value`, separated by commas. -/
def text (store : FactStore) : String :=
  ", ".intercalate (store.items.map fun (key, value) => key ++ ": " ++ value.toDouble.text)

/-- The facts with quoted keys, as a constructor call. -/
def display (store : FactStore) : String :=
  "FactStore(\x7b" ++
    ", ".intercalate (store.items.map fun (key, value) =>
      String.ofList (Text.quoted key.toList) ++ ": " ++ value.toDouble.text) ++ "\x7d)"

/-! ## What writes and removals do to a look-up -/

@[simp] theorem lookup?_empty (key : String) : (∅ : FactStore).lookup? key = none := rfl

/-- A fact that is added is rounded to a single, and replaces the one under its key. -/
theorem lookup?_add (store : FactStore) (key : String) (value : Double) (k : String) :
    (store.add key value).lookup? k = if key = k then some value.toSingle else store.lookup? k :=
  store.facts.get?_insert key _ k

/-- A text that is added stands as its value. -/
theorem lookup?_addText (store : FactStore) (key : String) (text : List Char) (k : String) :
    (store.addText key text).lookup? k =
      if key = k then some (textValue text) else store.lookup? k :=
  store.facts.get?_insert key _ k

/-- A key that is removed has no fact any more. -/
theorem lookup?_remove (store : FactStore) (key k : String) :
    (store.remove key).lookup? k = if k = key then none else store.lookup? k :=
  store.facts.get?_erase key k

end FactStore

/-- Stores in the order in which they are asked. -/
abbrev Chain := List FactStore

namespace Chain

/-- The value of a key in the first store that has it. -/
def lookup? (chain : Chain) (key : String) : Option Single :=
  chain.findSome? fun store => store.lookup? key

/-- The value of a key in the first store that has it, and zero if none has. -/
def get (chain : Chain) (key : String) : Single := (chain.lookup? key).getD .zero

/-- The number of stores and each of them. -/
def text (chain : Chain) : String :=
  "FactStoreChain: " ++ toString chain.length ++ " " ++
    " ".intercalate (chain.map fun store => "[" ++ store.text ++ "]")

/-- A chain answers from what comes later exactly where its earlier part is silent. -/
theorem lookup?_append (front back : Chain) (key : String) :
    lookup? (front ++ back) key = (lookup? front key).or (lookup? back key) := by
  simp [lookup?, List.findSome?_append]

end Chain

end FactRules
