import RequestEngine.CommandLine.Arguments
import RequestEngine.CommandLine.Process
import RequestEngine.Graph.Batch
import RequestEngine.Log.Filter
import RequestEngine.Options.Configuration

/-!
Contract: the program as a process.

Owns:
- setting up a new project;
- finding and reading the configuration, with the arguments applied on top;
- analyzing the files and printing what came of them, in order;
- the exit status.

All files are analyzed before the first one is reported. The program fails
exactly when it ends early or some file is faulty.

Does not own: the analysis of a file.
-/

namespace RequestEngine.CommandLine

open Process

/-- How the program ends. -/
inductive ExitStatus where
  | success
  | failure
  | refused
deriving DecidableEq, Repr

def ExitStatus.code : ExitStatus → Nat
  | .success => 0
  | .failure => 1
  | .refused => 2

def versionLine : String := "reqeval 0.1.0"

def textOfLines (lines : List String) : String := String.join (lines.map (· ++ "\n"))

def helpText : String := textOfLines [
  "Evaluate declaration graphs with a demand-driven request evaluator",
  "",
  "Usage: reqeval [OPTIONS] [FILE]...",
  "",
  "Arguments:",
  "  [FILE]...  Graph files to analyze (.yaml, .yml or .json)",
  "",
  "Options:",
  "  -c, --config <FILE>        Path to reqeval.yaml configuration file",
  "      --record-dependencies  Record and print the request dependency tree of every file",
  "      --graphviz <FILE>      Write the request dependency graph in Graphviz format",
  "      --stats                Print per-request-kind statistics",
  "      --debug-cycles         Log every detected cycle with its full chain",
  "      --no-pretty            Plain diagnostics without terminal styling",
  "      --init                 Write a default configuration and a sample graph",
  "  -h, --help                 Print help",
  "  -V, --version              Print version"]

def configurationPath : String := "reqeval.yaml"

def samplePath : String := "graph.yaml"

def sampleText : String := textOfLines [
  "# Each declaration has a weight and the declarations it depends on.",
  "declarations:",
  "  - name: main",
  "    weight: 1",
  "    dependsOn: [parse, check]",
  "  - name: parse",
  "    weight: 3",
  "    dependsOn: [lex]",
  "  - name: check",
  "    weight: 5",
  "    dependsOn: [parse]",
  "  - name: lex",
  "    weight: 2"]

def fail (message : String) (cause : Option String) : Process ExitStatus := do
  sendMessage (.fatal message cause)
  return .failure

def log (filter : LogFilter) (event : LogEvent) : Process Unit :=
  if filter.admits event then sendMessage (.log event) else return ()

def programEvent (message : String) : LogEvent := ⟨.info, "reqeval", message, []⟩

/-- Runs a step for every member of a list, in order. -/
def forEach {α : Type} (step : α → Process Unit) : List α → Process Unit
  | [] => return ()
  | first :: rest => do
      step first
      forEach step rest

def setUpProject : Process ExitStatus := do
  printLine "Initializing new reqeval project..."
  match ← writeFile configurationPath ({} : Configuration).yamlText with
  | .error error => fail (ConfigurationError.file error).message (some error.message)
  | .ok () =>
      printLine ("Created " ++ configurationPath)
      match ← writeFile samplePath sampleText with
      | .error error => fail error.message none
      | .ok () =>
          printLine ("Created " ++ samplePath)
          printLine ""
          printLine "Run 'reqeval graph.yaml' to analyze the sample graph."
          return .success

def readConfiguration (filter : LogFilter) (path : String) :
    Process (Except ConfigurationError Configuration) := do
  let read := Configuration.ofFile path (← readFile path)
  if read.isOk then log filter (Configuration.loadedEvent path)
  return read

def Arguments.overrides (arguments : Arguments) : OptionOverrides where
  recordDependencies :=
    if arguments.recordDependencies || arguments.graphviz.isSome then some true else none
  collectStatistics := if arguments.statistics then some true else none
  debugCycles := if arguments.debugCycles then some true else none
  pretty := if arguments.plain then some false else none

/-- Finds the options: those of the named configuration file, or else of the
configuration file of the project, if there is one. -/
def findOptions (filter : LogFilter) (arguments : Arguments) : Process (Except String Options) := do
  let configuration ← match arguments.configuration with
    | some path => do
        pure ((← readConfiguration filter path).mapError fun error =>
          "Failed to load config file: " ++ error.message)
    | none => do
        if ← exists? configurationPath then
          pure ((← readConfiguration filter configurationPath).mapError fun error =>
            "Failed to load " ++ configurationPath ++ ": " ++ error.message)
        else pure (.ok {})
  return configuration.map fun found => found.options.overridden arguments.overrides

def readSources : List String → Process (List SourceFile)
  | [] => return []
  | path :: rest => do
      let content ← readFile path
      return ⟨path, content⟩ :: (← readSources rest)

/-- Whether the recorded dependencies are printed: they are unless they are only
wanted in a file. -/
def printsForests (arguments : Arguments) (options : Options) : Bool :=
  options.recordDependencies && (arguments.recordDependencies || arguments.graphviz.isNone)

def printAnalyzed (arguments : Arguments) (options : Options) (path : String)
    (report : GraphReport) : Process Unit := do
  if 1 < arguments.files.length then printLine (path ++ ":")
  forEach (fun line => printLine line.text) report.lines
  if printsForests arguments options then .print (report.forest?.getD "") (.done ())
  forEach (fun diagnostic =>
      sendMessage (.report options.pretty
        { diagnostic with message := path ++ ": " ++ diagnostic.message }))
    report.diagnostics

def printReport (arguments : Arguments) (options : Options) (report : FileReport) : Process Unit :=
  match report.result with
  | .ok analyzed => printAnalyzed arguments options report.path analyzed
  | .error error => sendMessage (.unloadable report.path error)

/-- Concludes a batch: prints the statistics, and tells whether a file is faulty. -/
def conclude (options : Options) (batch : Batch) : Process ExitStatus := do
  if options.collectStatistics then sendMessage (.totals batch.statistics)
  return if batch.isFaulty then .failure else .success

/-- Analyzes the files and prints what came of them. -/
def analyzeFiles (filter : LogFilter) (arguments : Arguments) (options : Options) :
    Process ExitStatus := do
  log filter (programEvent ("Analyzing " ++ toString arguments.files.length ++ " file(s)"))
  let batch := Batch.analyze options (← readSources arguments.files)
  forEach (log filter) batch.state.log
  forEach (printReport arguments options) batch.reports
  match arguments.graphviz with
  | none => conclude options batch
  | some path =>
      match ← writeFile path batch.graphviz with
      | .error error => fail error.message none
      | .ok () =>
          log filter (programEvent ("Wrote dependency graph to " ++ path))
          conclude options batch

def runArguments (filter : LogFilter) (arguments : Arguments) : Process ExitStatus := do
  if arguments.setUp then setUpProject
  else
    match ← findOptions filter arguments with
    | .error message => fail message none
    | .ok options =>
        if arguments.files.isEmpty then
          fail "No input files specified. Use --help for usage information." none
        else analyzeFiles filter arguments options

def run (filter : LogFilter) (arguments : List String) : Process ExitStatus :=
  match Arguments.read? arguments with
  | none => do
      sendMessage .refused
      return .refused
  | some .help => do
      .print helpText (.done ())
      return .success
  | some .version => do
      printLine versionLine
      return .success
  | some (.run understood) => runArguments filter understood

end RequestEngine.CommandLine
