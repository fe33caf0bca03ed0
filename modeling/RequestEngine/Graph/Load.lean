import RequestEngine.Document.Format
import RequestEngine.Failure
import RequestEngine.Files
import RequestEngine.Graph

/-!
Contract: files that hold declaration graphs.

Owns:
- reading a graph from a file, in the format that its name tells;
- the errors that can arise.

Does not own: the analyses of a graph.
-/

namespace RequestEngine.Graph

/-- Why a graph cannot be loaded. -/
inductive LoadError where
  | unreadable (path : String) (error : FileError)
  | unsupportedFormat
  | invalid (format : DocumentFormat)
  | repeatedName (error : RepeatedName)
deriving DecidableEq, Repr

namespace LoadError

/-- An error as a chain of messages. What is wrong with an invalid document is not
told. -/
def chain : LoadError → ErrorChain
  | .unreadable path error => ⟨"Failed to read " ++ path, [error.message]⟩
  | .unsupportedFormat =>
      .ofMessage "Unsupported graph format (expected .yaml, .yml or .json)"
  | .invalid _ => .ofMessage "<parse error>"
  | .repeatedName error => .ofMessage error.message

end LoadError

def greatestWrittenWeight : Nat := 18446744073709551615

/-- Reads a declaration. Only its name has to be there. -/
def readEntry {Node : Type} (document : Document Node) (node : Node) :
    Reading DeclarationEntry := do
  match ← document.record ["name", "weight", "dependsOn"] node with
  | [name, weight, dependsOn] =>
      let name ← Document.required document.text name
      let weight ← Document.optional 0 (document.natural greatestWrittenWeight) weight
      let dependsOn ← Document.optional []
        (fun field => do (← document.items field).mapM document.text) dependsOn
      return ⟨name, UInt64.ofNat weight, dependsOn⟩
  | _ => failure

def readEntries {Node : Type} (document : Document Node) (node : Node) :
    Reading (List DeclarationEntry) := do
  match ← document.record ["declarations"] node with
  | [declarations] =>
      Document.required
        (fun field => do (← document.items field).mapM (readEntry document)) declarations
  | _ => failure

/-- The graph that a file holds. Whether the file can be read is looked at before
its format, and the graph is named after the file. -/
def ofFile (path : String) (content : Except FileError String) : Except LoadError Graph := do
  let text ← content.mapError (.unreadable path)
  match DocumentFormat.ofPath? path with
  | none => .error .unsupportedFormat
  | some format =>
      match format.read? readEntries text with
      | none => .error (.invalid format)
      | some entries =>
          (ofEntries ((Path.fileName? path).getD path) entries).mapError .repeatedName

def load (files : Files) (path : String) : Except LoadError Graph :=
  ofFile path (files.read path)

end RequestEngine.Graph
