import RequestEngine.Computation
import RequestEngine.Kind

/-!
Contract: programs, the sets of requests that an evaluator can answer.

Owns:
- what makes a request presentable: its kind and its displayed arguments;
- what makes it computable: its computation, its diagnostics when it takes part
  in a cycle, and the storage of its own that its kind may have.

Does not own: evaluation.
-/

namespace RequestEngine

/-- How requests present themselves. -/
structure Vocabulary (Request : Type) where
  kind : Request → RequestKind
  /-- The display forms of the inputs, one by one. -/
  arguments : Request → List String

namespace Vocabulary

variable {Request : Type}

/-- The displayed inputs of a request, as a tuple. -/
def displayInputs (vocabulary : Vocabulary Request) (request : Request) : String :=
  "(" ++ ", ".intercalate (vocabulary.arguments request) ++ ")"

/-- The display form of a request: the name of its kind and its inputs. -/
def display (vocabulary : Vocabulary Request) (request : Request) : String :=
  (vocabulary.kind request).name ++ vocabulary.displayInputs request

end Vocabulary

/-- The requests that an evaluator can answer, and how. -/
structure Program (Request : Type) (Value : Request → Type) (World : Type)
    extends Vocabulary Request where
  /-- Reported about the request that a cycle leads back to. -/
  cycleDiagnostics : Request → List Diagnostic
  /-- Reported about every further request of a cycle. -/
  stepDiagnostics : Request → List Diagnostic
  /-- The value held in the storage of the kind. -/
  stored : World → (request : Request) → Option (Value request)
  /-- Offers a value to the storage of the kind. -/
  store : World → (request : Request) → Value request → World
  compute : (request : Request) → Computation Request Value World (Value request)

/-- The two templates with which a request takes part in cycles. -/
structure CycleTemplates where
  primary : DiagnosticTemplate := .circularReference
  step : DiagnosticTemplate := .circularReferenceThrough
deriving DecidableEq, Repr

namespace CycleTemplates

/-- The diagnostic about the request that a cycle leads back to. -/
def cycleDiagnostics (templates : CycleTemplates) (span : Span) (arguments : List String) :
    List Diagnostic :=
  [.ofTemplate span templates.primary arguments]

/-- The diagnostic about a further request of a cycle. -/
def stepDiagnostics (templates : CycleTemplates) (span : Span) (arguments : List String) :
    List Diagnostic :=
  [.ofTemplate span templates.step arguments]

end CycleTemplates

end RequestEngine
