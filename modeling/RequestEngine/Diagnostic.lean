import RequestEngine.Span
import RequestEngine.Diagnostic.Template

/-!
Contract: diagnostics, the templates they are made from, and their collection.

Owns:
- severity levels and stable codes;
- diagnostics and their display form;
- templates of diagnostics, among them the default ones of the engine;
- counting the diagnostics of a level.

Does not own: when a diagnostic is reported, or printing on a terminal.
-/

namespace RequestEngine

/-- How severe a diagnostic is. A note belongs to the error before it, for
instance as one step of a dependency cycle. -/
inductive Severity where
  | error | warning | note | info
deriving DecidableEq, Repr

def Severity.name : Severity → String
  | .error => "error"
  | .warning => "warning"
  | .note => "note"
  | .info => "info"

/-- The stable code of a kind of diagnostic: a letter and a number. -/
structure DiagnosticCode where
  letter : Char
  number : UInt16
deriving DecidableEq, Repr

def DiagnosticCode.display (code : DiagnosticCode) : String :=
  let digits := Nat.toDigits 10 code.number.toNat
  String.ofList (code.letter :: List.replicate (4 - digits.length) '0' ++ digits)

/-- A template of a diagnostic. -/
structure DiagnosticTemplate where
  code : DiagnosticCode
  level : Severity
  format : String
deriving DecidableEq, Repr

namespace DiagnosticTemplate

def error (letter : Char) (number : UInt16) (format : String) : DiagnosticTemplate :=
  ⟨⟨letter, number⟩, .error, format⟩

def note (letter : Char) (number : UInt16) (format : String) : DiagnosticTemplate :=
  ⟨⟨letter, number⟩, .note, format⟩

/-- The default diagnostic of the request that closes a dependency cycle. -/
def circularReference : DiagnosticTemplate := error 'E' 1 "circular reference"

/-- The default note for every further step of a dependency cycle. -/
def circularReferenceThrough : DiagnosticTemplate := note 'N' 1 "through reference here"

/-- Reported when the caller of a request swallows its failure. -/
def requestFailed : DiagnosticTemplate := error 'E' 2 "\x7b0\x7d failed: \x7b1\x7d"

/-- The message of a template with the given arguments. -/
def render (template : DiagnosticTemplate) (arguments : List String) : String :=
  Template.render template.format arguments

end DiagnosticTemplate

/-- A message with a location and a severity. -/
structure Diagnostic where
  level : Severity
  code : Option DiagnosticCode
  span : Span
  message : String
deriving DecidableEq, Repr

namespace Diagnostic

def plain (level : Severity) (span : Span) (message : String) : Diagnostic :=
  ⟨level, none, span, message⟩

def ofTemplate (span : Span) (template : DiagnosticTemplate) (arguments : List String) :
    Diagnostic :=
  ⟨template.level, some template.code, span, template.render arguments⟩

/-- The level followed by the code in brackets, if there is one. -/
def heading (diagnostic : Diagnostic) : String :=
  match diagnostic.code with
  | some code => diagnostic.level.name ++ "[" ++ code.display ++ "]"
  | none => diagnostic.level.name

def display (diagnostic : Diagnostic) : String :=
  diagnostic.heading ++ " at " ++ diagnostic.span.display ++ ": " ++ diagnostic.message

end Diagnostic

/-- The diagnostics reported to one handler, in order. -/
abbrev Diagnostics := List Diagnostic

namespace Diagnostics

def count (diagnostics : Diagnostics) (level : Severity) : Nat :=
  diagnostics.countP (·.level = level)

def hasErrors (diagnostics : Diagnostics) : Bool :=
  diagnostics.any (·.level = .error)

@[simp]
theorem count_append (earlier later : Diagnostics) (level : Severity) :
    count (earlier ++ later) level = count earlier level + count later level :=
  List.countP_append

/-- There are errors exactly when their count is positive. -/
theorem hasErrors_iff_count_pos (diagnostics : Diagnostics) :
    hasErrors diagnostics = true ↔ 0 < count diagnostics .error := by
  simp [hasErrors, count, List.countP_pos_iff]

end Diagnostics

end RequestEngine
