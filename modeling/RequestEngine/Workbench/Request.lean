import RequestEngine.Datum
import RequestEngine.Fixtures
import RequestEngine.Graph.Analysis

/-!
Contract: the requests of the workbench.

Owns:
- one type of requests that holds the analyses, the samples and the scripted
  requests;
- their kinds, among them two of a second zone with a claimed id;
- their display forms and their diagnostics in cycles.

Does not own: what scripted requests compute.
-/

namespace RequestEngine

/-- A request of the workbench. Tasks, probes, slots and pairs are scripted;
labels show their inputs; intruders and squatters belong to the second zone. -/
inductive WorkbenchRequest where
  | analysis (request : AnalysisRequest)
  | fixture (request : FixtureRequest)
  | task (name : String)
  | probe (name : String)
  | slot (name : String)
  | pair (name : String) (parameter : Int64)
  | label (inputs : List Datum)
  | intruder (name : String)
  | squatter (name : String)
deriving DecidableEq, Repr

abbrev WorkbenchValue : WorkbenchRequest → Type
  | .analysis request => AnalysisValue request
  | .fixture request => FixtureValue request
  | .task _ | .probe _ | .slot _ | .pair .. | .squatter _ => Int64
  | .label _ | .intruder _ => String

def scriptZone : ZoneDefinition where
  declaration := 3
  id := 210
  name := "Script"
  entries :=
    ["Task", "Probe", "Slot", "Pair", "Args0", "Args1", "Args2", "Args3", "Args4", "Args5",
      "Args6"].map (⟨.type, ·⟩)

/-- A second zone that claims the id of the scripted requests. -/
def twinZone : ZoneDefinition where
  declaration := 4
  id := 210
  name := "Twin"
  entries := ["Intruder", "Squatter"].map (⟨.type, ·⟩)

namespace WorkbenchRequest

def kind : WorkbenchRequest → RequestKind
  | .analysis request => request.kind
  | .fixture request => request.kind
  | .task _ => ⟨"Task", scriptZone, 0, .cached⟩
  | .probe _ => ⟨"Probe", scriptZone, 1, .uncached⟩
  | .slot _ => ⟨"Slot", scriptZone, 2, .separatelyCached⟩
  | .pair .. => ⟨"Pair", scriptZone, 3, .cached⟩
  | .label inputs =>
      ⟨"Args" ++ toString inputs.length, scriptZone, 4 + inputs.length, .cached⟩
  | .intruder _ => ⟨"Intruder", twinZone, 0, .cached⟩
  | .squatter _ => ⟨"Squatter", twinZone, 1, .uncached⟩

def arguments (graph : Graph) (forest : List TreeNode) : WorkbenchRequest → List String
  | .analysis request => (Analysis.program graph).arguments request
  | .fixture request => request.arguments forest
  | .task name | .probe name | .slot name | .intruder name | .squatter name =>
      [Text.quoted name]
  | .pair name parameter => [Text.quoted name, toString parameter.toInt]
  | .label inputs => inputs.map Datum.display

/-- The templates of the requests that use templates. -/
def templates : WorkbenchRequest → CycleTemplates
  | .task _ =>
      ⟨.error 'E' 1 "task \x7b0\x7d depends on itself", .note 'N' 1 "via task \x7b0\x7d"⟩
  | .pair .. =>
      ⟨.error 'E' 2 "\x7b1\x7d/\x7b0\x7d loops \x7b2\x7d \x7b\x7b0\x7d\x7d",
        .note 'E' 2 "\x7b\x7b\x7b1\x7d\x7d\x7d"⟩
  | .label _ =>
      ⟨.error 'E' 1
          ("a=\x7b0\x7d b=\x7b1\x7d c=\x7b2\x7d d=\x7b3\x7d e=\x7b4\x7d f=\x7b5\x7d " ++
            "g=\x7b6\x7d"),
        .note 'N' 1 "\x7b5\x7d\x7b4\x7d\x7b3\x7d\x7b2\x7d\x7b1\x7d\x7b0\x7d"⟩
  | .analysis _ | .fixture _ | .probe _ | .slot _ | .intruder _ | .squatter _ => {}

/-- Where a cycle through a scripted request is reported: a task is placed on the
line that the length of its name says. -/
def cycleSpan : WorkbenchRequest → Span
  | .task name => ⟨0, 0, UInt32.ofNat name.utf8ByteSize, 1⟩
  | _ => .unknown

/-- The diagnostics of the request that a cycle leads back to. -/
def cycleDiagnostics (graph : Graph) (forest : List TreeNode) :
    WorkbenchRequest → List Diagnostic
  | .analysis request => (Analysis.program graph).cycleDiagnostics request
  | .fixture request => request.cycleDiagnostics forest
  | .slot name => [.plain .warning .unknown ("slot " ++ name ++ " loops")]
  | other => other.templates.cycleDiagnostics other.cycleSpan (other.arguments graph forest)

def stepDiagnostics (graph : Graph) (forest : List TreeNode) :
    WorkbenchRequest → List Diagnostic
  | .analysis request => (Analysis.program graph).stepDiagnostics request
  | .fixture request => request.stepDiagnostics forest
  | .slot name => [.plain .info ⟨1, 2, 3, 4⟩ ("slot " ++ name)]
  | other => other.templates.stepDiagnostics other.cycleSpan (other.arguments graph forest)

end WorkbenchRequest

end RequestEngine
