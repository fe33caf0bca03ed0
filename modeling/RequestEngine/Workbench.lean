import RequestEngine.Workbench.Script

/-!
Contract: a program that brings analyses, samples and scripts together.

Owns:
- the scenario that fixes the scripts, the forest and the graph in use;
- the program over all requests of the workbench.

Does not own: how a scenario is written down.
-/

namespace RequestEngine

/-- A script with its name. -/
structure NamedScript where
  name : String
  instructions : List Instruction

/-- What the requests of the workbench refer to by name or by index. -/
structure Scenario where
  scripts : List NamedScript := []
  forest : List TreeNode := []
  graph : Graph := .empty "graph.yaml"

namespace Scenario

def script? (scenario : Scenario) (name : String) : Option (List Instruction) :=
  (scenario.scripts.find? (·.name = name)).map (·.instructions)

/-- How the requests of the workbench present themselves. -/
def vocabulary (scenario : Scenario) : Vocabulary WorkbenchRequest where
  kind := WorkbenchRequest.kind
  arguments := WorkbenchRequest.arguments scenario.graph scenario.forest

/-- Carries a computation of an analysis over to the workbench. -/
def ofAnalysis {α : Type} (computation : Computation AnalysisRequest AnalysisValue DepthCells α) :
    WorkbenchComputation α :=
  computation.embed .analysis (fun _ value => value) (·.depths)
    fun depths state => { state with depths := depths }

/-- Carries a computation of a sample over to the workbench. -/
def ofFixture {α : Type} (computation : Computation FixtureRequest FixtureValue FixtureState α) :
    WorkbenchComputation α :=
  computation.embed .fixture (fun _ value => value) (·.fixtures)
    fun fixtures state => { state with fixtures := fixtures }

/-- The script of a request with a name and a parameter. -/
def ofScript (scenario : Scenario) (request : WorkbenchRequest) (name : String)
    (parameter : Int64) : WorkbenchComputation Int64 :=
  Script.compute scenario.script? ⟨scenario.vocabulary.display, request, name, parameter⟩

def compute (scenario : Scenario) : (request : WorkbenchRequest) →
    WorkbenchComputation (WorkbenchValue request)
  | .analysis request => ofAnalysis (Analysis.compute scenario.graph request)
  | .fixture request => ofFixture (Fixtures.compute scenario.forest request)
  | .task name => scenario.ofScript (.task name) name 0
  | .probe name => scenario.ofScript (.probe name) name 0
  | .slot name => scenario.ofScript (.slot name) name 0
  | .pair name parameter => scenario.ofScript (.pair name parameter) name parameter
  | .label inputs => .done ("|".intercalate (inputs.map Datum.display))
  | .intruder name => .done ("intruder " ++ name)
  | .squatter name => .done (Int64.ofNat name.utf8ByteSize)

def stored (scenario : Scenario) (state : WorkbenchState) : (request : WorkbenchRequest) →
    Option (WorkbenchValue request)
  | .analysis request => Analysis.stored scenario.graph state.depths request
  | .fixture request => Fixtures.stored state.fixtures request
  | .slot name => state.slot? name
  | .task _ | .probe _ | .pair .. | .label _ | .intruder _ | .squatter _ => none

def store (scenario : Scenario) (state : WorkbenchState) : (request : WorkbenchRequest) →
    WorkbenchValue request → WorkbenchState
  | .analysis request, value =>
      { state with depths := Analysis.store scenario.graph state.depths request value }
  | .fixture request, value =>
      { state with fixtures := Fixtures.store state.fixtures request value }
  | .slot name, value => state.setSlot name value
  | .task _, _ | .probe _, _ | .pair .., _ | .label _, _ | .intruder _, _
  | .squatter _, _ => state

def program (scenario : Scenario) :
    Program WorkbenchRequest WorkbenchValue WorkbenchState where
  toVocabulary := scenario.vocabulary
  cycleDiagnostics := WorkbenchRequest.cycleDiagnostics scenario.graph scenario.forest
  stepDiagnostics := WorkbenchRequest.stepDiagnostics scenario.graph scenario.forest
  stored := scenario.stored
  store := scenario.store
  compute := scenario.compute

end Scenario

end RequestEngine
