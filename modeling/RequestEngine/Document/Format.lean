import RequestEngine.Files.Path
import RequestEngine.Json.Document
import RequestEngine.Yaml.Document

/-!
Contract: the formats in which documents are written.

Owns:
- telling the format of a file from its name;
- reading a text in a format.

Does not own: what documents are about.
-/

namespace RequestEngine

/-- A document format. -/
inductive DocumentFormat where
  | json | yaml
deriving DecidableEq, Repr

namespace DocumentFormat

def ofExtension? (extension : String) : Option DocumentFormat :=
  if extension = "json" then some .json
  else if extension = "yaml" ∨ extension = "yml" then some .yaml
  else none

def ofPath? (path : String) : Option DocumentFormat :=
  (Path.extension? path).bind ofExtension?

def read? {α : Type} (format : DocumentFormat)
    (reading : {Node : Type} → Document Node → Node → Reading α) (text : String) : Option α :=
  match format with
  | .json => do
      let value ← Json.parse? text
      Document.Reading.result? (reading Json.document value)
  | .yaml => do
      let source ← Yaml.source? text
      Document.Reading.result? (reading (Yaml.document source) source.root)

end DocumentFormat

end RequestEngine
