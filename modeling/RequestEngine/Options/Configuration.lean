import RequestEngine.Document.Format
import RequestEngine.Files
import RequestEngine.Json.Text
import RequestEngine.Log

/-!
Contract: configuration files.

Owns:
- reading options from a file, in the format that its name tells;
- the text of a configuration in either format;
- the errors that can arise.

Does not own: what options mean.
-/

namespace RequestEngine

/-- A configuration. -/
structure Configuration where
  options : Options := {}
deriving DecidableEq, Repr, Inhabited

/-- Why a configuration cannot be read or written. -/
inductive ConfigurationError where
  | file (error : FileError)
  | invalid (format : DocumentFormat)
  | unsupportedFormat (path : String)
deriving DecidableEq, Repr

namespace ConfigurationError

def message : ConfigurationError → String
  | .file error => "IO error: " ++ error.message
  | .invalid .json => "Invalid JSON configuration"
  | .invalid .yaml => "Invalid YAML configuration"
  | .unsupportedFormat path => "Unsupported configuration format: " ++ path

def causes : ConfigurationError → List String
  | .file error => [error.message]
  | .invalid _ | .unsupportedFormat _ => []

end ConfigurationError

namespace Configuration

/-- Reads options. Every one of them may be absent. -/
def readOptions {Node : Type} (document : Document Node) (node : Node) : Reading Options := do
  let fields ←
    document.record ["recordDependencies", "debugCycles", "collectStatistics", "pretty"] node
  let flag (default : Bool) := Document.optional default document.boolean
  match fields with
  | [recordDependencies, debugCycles, collectStatistics, pretty] =>
      return ⟨← flag false recordDependencies, ← flag false debugCycles,
        ← flag false collectStatistics, ← flag true pretty⟩
  | _ => failure

def read {Node : Type} (document : Document Node) (node : Node) : Reading Configuration := do
  match ← document.record ["evaluatorOptions"] node with
  | [options] => return ⟨← Document.optional {} (readOptions document) options⟩
  | _ => failure

def formatOf (path : String) : Except ConfigurationError DocumentFormat :=
  match DocumentFormat.ofPath? path with
  | some format => .ok format
  | none => .error (.unsupportedFormat path)

/-- The configuration that a file holds. Its format is looked at before whether the
file can be read. -/
def ofFile (path : String) (content : Except FileError String) :
    Except ConfigurationError Configuration := do
  let format ← formatOf path
  let text ← content.mapError .file
  match format.read? read text with
  | some configuration => .ok configuration
  | none => .error (.invalid format)

def load (files : Files) (path : String) : Except ConfigurationError Configuration :=
  ofFile path (files.read path)

/-- The event of a configuration file that has been read. -/
def loadedEvent (path : String) : LogEvent :=
  ⟨.info, "reqeval_core::config", "loaded configuration", [⟨"path", path⟩]⟩

def written (configuration : Configuration) : Json.Written :=
  .record [("evaluatorOptions", Json.ofOptions configuration.options)]

def flagText (value : Bool) : String := if value then "true" else "false"

def yamlText (configuration : Configuration) : String :=
  "evaluatorOptions:\n" ++
    "  recordDependencies: " ++ flagText configuration.options.recordDependencies ++ "\n" ++
    "  debugCycles: " ++ flagText configuration.options.debugCycles ++ "\n" ++
    "  collectStatistics: " ++ flagText configuration.options.collectStatistics ++ "\n" ++
    "  pretty: " ++ flagText configuration.options.pretty ++ "\n"

def text (configuration : Configuration) : DocumentFormat → String
  | .json => configuration.written.pretty 0
  | .yaml => configuration.yamlText

def initialText (path : String) : Except ConfigurationError String :=
  (formatOf path).map (text {})

def create (files : Files) (path : String) : Except ConfigurationError Files := do
  let content ← initialText path
  (files.write path content).mapError .file

end Configuration

end RequestEngine
