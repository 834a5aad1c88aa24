import FactRules.Entries
import FactRules.Toml.Reader

/-!
# Settings

Settings are a table of nested tables. The defaults may be overlaid by a table of overrides, key by
key and table by table. An override has to be of the kind of the value it replaces; the first one
that is not is a `Conflict`, which names the path of its key. `Overlay.merge` gives the table as far
as it was overlaid and the conflict that stopped it, if any; `Settings.loadWith` takes a table only
if there was none, so settings are replaced as a whole or not at all. It reads texts by a reader
that it is given (`TomlReader`), and a host loads its settings by `Toml.read?`.
-/

namespace FactRules

/-- Two values of different kinds under one path of keys. -/
structure Conflict where
  path : List String
  expected : Value
  given : Value

/-- The wording of a conflict. -/
def Conflict.message (conflict : Conflict) : String :=
  "conflicting type for setting " ++ ".".intercalate conflict.path ++ ": expected " ++
    conflict.expected.kind ++ " got " ++ conflict.given.kind

/-- A table under overrides: the entries as far as they were overlaid, and what stopped it. -/
structure Overlay where
  entries : List (String × Value)
  conflict : Option Conflict

namespace Overlay

mutual

/-- Overlays entries, found under `path`, by the entries of an override, in their order. -/
def merge (path : List String) (base : List (String × Value)) :
    List (String × Value) → Overlay
  | [] => ⟨base, none⟩
  | (key, value) :: rest =>
    let step := mergeKey path base key value
    match step.conflict with
    | some _ => step
    | none => merge path step.entries rest

/-- Overlays the value of one key: a new key goes to the end, a table is overlaid by a table, and a
value of one kind is replaced. -/
def mergeKey (path : List String) (base : List (String × Value)) (key : String) :
    Value → Overlay
  | .table inner =>
    match Entries.get? key base with
    | none => ⟨Entries.put key (.table inner) base, none⟩
    | some (.table old) =>
      let overlay := merge (path ++ [key]) old inner
      ⟨Entries.put key (.table overlay.entries) base, overlay.conflict⟩
    | some other => ⟨base, some ⟨path ++ [key], other, .table inner⟩⟩
  | value =>
    match Entries.get? key base with
    | none => ⟨Entries.put key value base, none⟩
    | some old =>
      if old.kind = value.kind then ⟨Entries.put key value base, none⟩
      else ⟨base, some ⟨path ++ [key], old, value⟩⟩

end

end Overlay

/-- The settings of a host. -/
structure Settings where
  entries : List (String × Value)

/-- Why settings could not be loaded. -/
inductive SettingsError where
  | badSyntax
  | conflict (conflict : Conflict)

/-- A reader of TOML texts gives the entries of the top table, or nothing for a text that is no
document. -/
abbrev TomlReader := String → Option (List (String × Value))

namespace Settings

/-- The text of the packaged settings. -/
def packagedText : String :=
  "# built-in defaults for factdb. override by passing a toml file to
# factdb.config.load_config

[narrative]
# packaged rule document loaded by rule_parser.load_default
RULES = \"rules.toml\"
# seed for choosing among equally specific matching rules. negative means
# seed from the OS
SEED = -1
"

/-- Settings under a table of overrides. -/
def under (base : Settings) (overrides : List (String × Value)) : Except SettingsError Settings :=
  let overlay := Overlay.merge [] base.entries overrides
  match overlay.conflict with
  | some conflict => .error (.conflict conflict)
  | none => .ok ⟨overlay.entries⟩

/-- The settings that a text holds. -/
def ofText (read : TomlReader) (text : String) : Except SettingsError Settings :=
  match read text with
  | some entries => .ok ⟨entries⟩
  | none => .error .badSyntax

/-- The packaged settings, which are read anew, under the overrides of a text, if there is one. -/
def loadWith (read : TomlReader) (text : Option String) : Except SettingsError Settings := do
  let packaged ← ofText read packagedText
  match text with
  | none => return packaged
  | some text =>
    let overrides ← ofText read text
    packaged.under overrides.entries

/-- Settings are loaded by the reader of TOML documents. -/
def load : Option String → Except SettingsError Settings := loadWith Toml.read?

/-- The settings without overrides. -/
def defaults : Settings := ⟨(Toml.read? packagedText).getD []⟩

/-- The settings in force after a load: the loaded ones, or the current ones if it failed. -/
def after (current : Settings) : Except SettingsError Settings → Settings
  | .ok loaded => loaded
  | .error _ => current

/-- The value of a setting of the narrative. -/
def narrative? (settings : Settings) (key : String) : Option Value :=
  match Entries.get? "narrative" settings.entries with
  | some (.table narrative) => Entries.get? key narrative
  | _ => none

/-- The name of the packaged rule document. -/
def rulesName? (settings : Settings) : Option String :=
  match settings.narrative? "RULES" with
  | some (.str name) => some name
  | _ => none

/-- The seed for choosing among rules; a negative one leaves the choice to the system. -/
def seed? (settings : Settings) : Option Int :=
  match settings.narrative? "SEED" with
  | some (.int seed) => if seed < 0 then none else some seed
  | _ => none

end Settings

end FactRules
