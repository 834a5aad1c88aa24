import FactRules.Packaged
import FactRules.Reading.Document

/-!
# Loading rules

Rules are read from a document written in TOML (`Document.ofTextWith`), by any reader of such texts,
or from the packaged document that the settings name (`Document.ofSettings`).
-/

namespace FactRules

/-- Why no rules could be loaded. -/
inductive LoadError where
  | badSyntax
  | badName (error : Packaged.NameError)
  | content (error : DocumentError)

namespace Document

/-- Reads a rule document written in TOML, by a reader of such texts. -/
def ofTextWith (read : TomlReader) (text : String) : Except LoadError Document :=
  match read text with
  | some entries => (ofValue (.table entries)).mapError .content
  | none => .error .badSyntax

/-- Rules are loaded by the reader of TOML documents. -/
def ofText : String → Except LoadError Document := ofTextWith Toml.read?

/-- Reads the packaged document that the settings name. -/
def ofSettings (settings : Settings) : Except LoadError Document := do
  let document ← (Packaged.document (settings.rulesName?.getD "")).mapError .badName
  (ofValue document).mapError .content

end Document

/-- The wording of a load error, where it has one. -/
def LoadError.message? : LoadError → Option String
  | badSyntax => none
  | badName error => error.message?
  | content error => some error.message

end FactRules
