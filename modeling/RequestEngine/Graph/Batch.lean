import RequestEngine.Dependencies.Graphviz
import RequestEngine.Dependencies.Tree
import RequestEngine.Evaluation
import RequestEngine.Graph.Analysis
import RequestEngine.Graph.Load

/-!
Contract: the analysis of several graph files.

Owns:
- analyzing one graph in a session;
- analyzing files in order, each with its own evaluator, with what these
  evaluators share;
- the reports about the files.

A file that cannot be loaded is reported as such and shares nothing.

Does not own: reading the files, or printing the reports.
-/

namespace RequestEngine

abbrev AnalysisSession := Session AnalysisRequest AnalysisValue DepthCells

def Analysis.run (graph : Graph) (session : AnalysisSession) :
    Outcome (List Analysis.Line) × AnalysisSession :=
  (program graph).run (depthBound graph) (analyze graph) session

/-- An analyzed graph. -/
structure GraphReport where
  graph : Graph
  outcome : Outcome (List Analysis.Line)
  session : AnalysisSession

namespace GraphReport

def lines (report : GraphReport) : List Analysis.Line :=
  match report.outcome with
  | .success lines => lines
  | .failed _ | .aborted _ | .tooDeep => []

def diagnostics (report : GraphReport) : Diagnostics := report.session.diagnostics

def forest? (report : GraphReport) : Option String :=
  report.session.evaluator.recorder.map (·.printForest (Analysis.program report.graph).display)

/-- The recorded dependencies in the Graphviz format. -/
def graphviz? (report : GraphReport) : Option String :=
  report.session.evaluator.recorder.map (·.toGraphviz (Analysis.program report.graph).display)

end GraphReport

/-- What became of a file. -/
structure FileReport where
  path : String
  result : Except Graph.LoadError GraphReport

/-- Whether a file is faulty: it cannot be loaded, or an error was diagnosed. -/
def FileReport.isFaulty (report : FileReport) : Bool :=
  match report.result with
  | .error _ => true
  | .ok analyzed => analyzed.diagnostics.hasErrors

/-- A file with what reading it gave. -/
structure SourceFile where
  path : String
  content : Except FileError String

/-- What the evaluators of a batch share. -/
structure BatchState where
  registry : Registry := .initial
  notifications : List Notification := []
  log : List LogEvent := []

/-- The reports about the files of a batch, and what their evaluators shared. -/
structure Batch where
  reports : List FileReport := []
  state : BatchState := {}

namespace Batch

def analyzedEvent (path : String) (metrics : Metrics) : LogEvent where
  level := .debug
  target := "reqeval"
  message := "analyzed"
  fields := [⟨"file", path⟩, ⟨"computations", toString metrics.computations⟩,
    ⟨"cache_hits", toString metrics.cacheHits⟩,
    ⟨"external_cache_hits", toString metrics.externalCacheHits⟩,
    ⟨"cycles", toString metrics.cyclesDetected⟩]

/-- A session with a fresh evaluator, which is observed if statistics are to be
collected. -/
def session (options : Options) (state : BatchState) : AnalysisSession where
  evaluator := .fresh options options.collectStatistics
  registry := state.registry
  notifications := state.notifications
  log := state.log
  world := []

def analyzeFile (options : Options) (state : BatchState) (file : SourceFile) :
    FileReport × BatchState :=
  match Graph.ofFile file.path file.content with
  | .error error => (⟨file.path, .error error⟩, state)
  | .ok graph =>
      let (outcome, after) := Analysis.run graph (session options state)
      (⟨file.path, .ok ⟨graph, outcome, after⟩⟩,
        { registry := after.registry
          notifications := after.notifications
          log := after.log ++ [analyzedEvent file.path after.evaluator.metrics] })

def analyzeFrom (options : Options) (state : BatchState) : List SourceFile → Batch
  | [] => ⟨[], state⟩
  | file :: rest =>
      let (report, after) := analyzeFile options state file
      let batch := analyzeFrom options after rest
      ⟨report :: batch.reports, batch.state⟩

def analyze (options : Options) (files : List SourceFile) : Batch := analyzeFrom options {} files

def statistics (batch : Batch) : Statistics := .ofNotifications batch.state.notifications

/-- The recorded dependencies of all files in the Graphviz format. -/
def graphviz (batch : Batch) : String :=
  String.join (batch.reports.filterMap fun report =>
    match report.result with
    | .ok analyzed => analyzed.graphviz?
    | .error _ => none)

def isFaulty (batch : Batch) : Bool := batch.reports.any FileReport.isFaulty

end Batch

end RequestEngine
