import RequestEngine.CommandLine.Run
import RequestEngine.Proofs.AnalysisCorrect
import RequestEngine.Proofs.AnalysisReports

/-!
Contract: the exit status agrees with the lines that are printed.

Owns:
- what became of the files of a batch, with the lines and the diagnostics of each;
- what the program prints about a batch, and how it ends;
- the theorem that errors, error lines and the exit status agree.

Messages to the user are sent in between. They are not printed, and nothing that
follows depends on them.

Does not own: how the program ends before it analyzes any file.
-/

namespace RequestEngine

open Analysis

/-! ### Files -/

namespace FileReport

def lines (report : FileReport) : List Line :=
  match report.result with
  | .ok analyzed => analyzed.lines
  | .error _ => []

/-- Some line of the report is an error line. -/
def ShowsError (report : FileReport) : Prop :=
  ∃ line ∈ report.lines, line.text = line.name ++ " error"

end FileReport

/-- A file cannot be loaded. -/
def SourceFile.Unloadable (file : SourceFile) : Prop :=
  ∃ error, Graph.ofFile file.path file.content = .error error

/-- What became of a file: either it could not be loaded, or an evaluator without
earlier diagnostics analyzed its graph, and its errors agree with its lines. -/
inductive FileAgrees : SourceFile → FileReport → Prop where
  | unloadable {file : SourceFile} {error : Graph.LoadError}
      (fails : Graph.ofFile file.path file.content = .error error) :
      FileAgrees file ⟨file.path, .error error⟩
  | analyzed {file : SourceFile} {graph : Graph} {before after : AnalysisSession}
      {descriptions : List Description}
      (loads : Graph.ofFile file.path file.content = .ok graph)
      (fresh : Fresh before) (clean : before.diagnostics = [])
      (agree : ErrorsAgree graph before descriptions after) :
      FileAgrees file
        ⟨file.path, .ok ⟨graph, .success (descriptions.map Description.line), after⟩⟩

variable {file : SourceFile} {files : List SourceFile}
variable {report : FileReport} {reports : List FileReport}

/-- A file is faulty exactly if it cannot be loaded or an error line stands for
one of its declarations. -/
theorem FileAgrees.isFaulty_iff (agrees : FileAgrees file report) :
    report.isFaulty ↔ file.Unloadable ∨ report.ShowsError := by
  cases agrees with
  | @unloadable error fails => simp [FileReport.isFaulty, SourceFile.Unloadable, fails]
  | @analyzed graph before after descriptions loads fresh clean agree =>
      have loadable : ¬ file.Unloadable := by
        rintro ⟨error, fails⟩
        cases loads.symm.trans fails
      show Diagnostics.hasErrors after.diagnostics = true ↔ _
      rw [agree.diagnostics_eq, clean, List.nil_append, agree.allAgree.hasErrors_iff,
        or_iff_right loadable]
      simp [FileReport.ShowsError, FileReport.lines, GraphReport.lines]

private theorem any_isFaulty_iff (agree : List.Forall₂ FileAgrees files reports) :
    reports.any FileReport.isFaulty ↔
      (∃ file ∈ files, file.Unloadable) ∨ ∃ report ∈ reports, report.ShowsError := by
  induction agree with
  | nil => simp
  | cons first _ inductionHypothesis =>
      simp only [List.any_cons, Bool.or_eq_true, first.isFaulty_iff, inductionHypothesis,
        List.exists_mem_cons_iff]
      exact or_or_or_comm

namespace Batch

variable {options : Options} {state : BatchState}

theorem agrees_analyzeFile (admits : state.registry.Admits analysisZone)
    (few : ∀ graph, Graph.ofFile file.path file.content = .ok graph →
      graph.declarations.length < 4294967296) :
    FileAgrees file (analyzeFile options state file).1 ∧
      (analyzeFile options state file).2.registry.Admits analysisZone := by
  unfold analyzeFile
  cases loads : Graph.ofFile file.path file.content with
  | error error => exact ⟨.unloadable loads, admits⟩
  | ok graph =>
      have fresh : Fresh (session options state) :=
        ⟨⟨options, options.collectStatistics, rfl⟩, rfl, admits⟩
      obtain ⟨descriptions, after, agree, stillAdmits⟩ := fresh.errorsAgree (few graph loads)
      simp only [agree.runs]
      exact ⟨.analyzed loads fresh rfl agree, stillAdmits⟩

theorem agree_analyzeFrom (admits : state.registry.Admits analysisZone)
    (few : ∀ file ∈ files, ∀ graph, Graph.ofFile file.path file.content = .ok graph →
      graph.declarations.length < 4294967296) :
    List.Forall₂ FileAgrees files (analyzeFrom options state files).reports := by
  induction files generalizing state with
  | nil => exact .nil
  | cons file rest inductionHypothesis =>
      obtain ⟨agrees, stillAdmits⟩ := agrees_analyzeFile admits (few file List.mem_cons_self)
      have restAgrees := inductionHypothesis stillAdmits fun file inRest =>
        few file (List.mem_cons_of_mem _ inRest)
      exact .cons agrees restAgrees

end Batch

namespace CommandLine

open Process

/-! ### Processes -/

section Process

variable {α β : Type} {before middle after : Files} {value : α} {found : β}
variable {text earlier later : String}

/-- A process that meets some files ends with a value and leaves some files. In
between it prints a text, and may tell anything. -/
def Process.Ends (process : Process α) (before : Files) (value : α) (text : String)
    (after : Files) : Prop :=
  ∀ console, console.files = before → (process.runIn console).1 = value ∧
    (process.runIn console).2.files = after ∧
    (process.runIn console).2.printed = console.printed ++ text

theorem ends_pure (value : α) : (pure value : Process α).Ends before value "" before :=
  fun _ met => ⟨rfl, met, String.append_empty.symm⟩

theorem ends_print : Process.Ends (.print text (.done ())) before () text before :=
  fun _ met => ⟨rfl, met, rfl⟩

theorem ends_sendMessage (message : Message) :
    (sendMessage message).Ends before () "" before :=
  fun _ met => ⟨rfl, met, String.append_empty.symm⟩

theorem ends_readFile (path : String) :
    (readFile path).Ends before (before.read path) "" before :=
  fun _ met => ⟨congrArg (Files.read · path) met, met, String.append_empty.symm⟩

theorem ends_writeFile {path content : String} (writes : before.write path content = .ok after) :
    (writeFile path content).Ends before (.ok ()) "" after := by
  intro console met
  simp [writeFile, runIn, met, writes]

theorem Process.Ends.bind {first : Process α} {second : α → Process β}
    (ends : first.Ends before value earlier middle)
    (follows : (second value).Ends middle found later after) :
    (first >>= second).Ends before found (earlier ++ later) after := by
  intro console met
  obtain ⟨sameValue, leaves, prints⟩ := ends console met
  have last := follows _ leaves
  rw [prints, ← sameValue, String.append_assoc] at last
  show (((first.bind second).runIn console).1 = _) ∧ _
  rw [show (first >>= second) = first.bind second from rfl, runIn_bind]
  exact last

theorem Process.Ends.of_text_eq {process : Process α} {other : String}
    (ends : process.Ends before value other after) (same : other = text) :
    process.Ends before value text after :=
  same ▸ ends

/-- A step that prints nothing. -/
theorem Process.Ends.silently {first : Process α} {second : α → Process β}
    (ends : first.Ends before value "" middle)
    (follows : (second value).Ends middle found text after) :
    (first >>= second).Ends before found text after := by
  have both := ends.bind follows
  rwa [String.empty_append] at both

/-- A step that is taken only under a condition. -/
theorem Process.Ends.optionally {condition : Prop} [Decidable condition] {first : Process Unit}
    {rest : Unit → Process β} (ends : first.Ends before () earlier before)
    (follows : (rest ()).Ends before found later after) :
    (if condition then first >>= rest else rest ()).Ends before found
      ((if condition then earlier else "") ++ later) after := by
  by_cases holds : condition
  · rw [if_pos holds, if_pos holds]
    exact ends.bind follows
  · rw [if_neg holds, if_neg holds, String.empty_append]
    exact follows

theorem ends_forEach {step : α → Process Unit} {textOf : α → String}
    (ends : ∀ member, (step member).Ends before () (textOf member) before) (members : List α) :
    (forEach step members).Ends before () (String.join (members.map textOf)) before := by
  induction members with
  | nil => exact ends_pure ()
  | cons first rest inductionHypothesis =>
      rw [List.map_cons, String.join_cons]
      exact (ends first).bind inductionHypothesis

theorem ends_forEach_silently {step : α → Process Unit}
    (ends : ∀ member, (step member).Ends before () "" before) (members : List α) :
    (forEach step members).Ends before () "" before := by
  induction members with
  | nil => exact ends_pure ()
  | cons first rest inductionHypothesis => exact (ends first).silently inductionHypothesis

end Process

/-! ### Runs of the program -/

variable {filter : LogFilter} {arguments : Arguments} {options : Options} {present : Files}

theorem ends_log (event : LogEvent) : (log filter event).Ends present () "" present := by
  unfold log
  split
  · exact ends_sendMessage _
  · exact ends_pure ()

/-- The files of a batch, with what can be read from them. -/
def sources (present : Files) (paths : List String) : List SourceFile :=
  paths.map fun path => ⟨path, present.read path⟩

theorem ends_readSources (paths : List String) :
    (readSources paths).Ends present (sources present paths) "" present := by
  induction paths with
  | nil => exact ends_pure []
  | cons path rest inductionHypothesis =>
      exact (ends_readFile path).silently (inductionHypothesis.silently (ends_pure _))

/-- What is printed about a graph: its lines, one below the other, with the path of
its file above them if there are several files, and the recorded dependencies
below them if they are wanted. -/
def analyzedText (arguments : Arguments) (options : Options) (path : String)
    (report : GraphReport) : String :=
  (if 1 < arguments.files.length then path ++ ":" ++ "\n" else "") ++
    (String.join (report.lines.map (·.text ++ "\n")) ++
      (if printsForests arguments options then report.forest?.getD "" else ""))

/-- What is printed about a file: nothing if it could not be loaded. -/
def printedText (arguments : Arguments) (options : Options) (report : FileReport) : String :=
  match report.result with
  | .error _ => ""
  | .ok analyzed => analyzedText arguments options report.path analyzed

theorem ends_printAnalyzed (path : String) (report : GraphReport) :
    (printAnalyzed arguments options path report).Ends present ()
      (analyzedText arguments options path report) present := by
  have lines : (forEach _ report.lines).Ends present ()
      (String.join (report.lines.map (·.text ++ "\n"))) present :=
    ends_forEach (fun line => ends_print) _
  have diagnostics : (forEach _ report.diagnostics).Ends present () "" present :=
    ends_forEach_silently (fun diagnostic => ends_sendMessage (.report options.pretty
      { diagnostic with message := path ++ ": " ++ diagnostic.message })) _
  unfold printAnalyzed
  apply Process.Ends.of_text_eq
  · apply Process.Ends.optionally ends_print
    apply lines.bind
    exact .optionally ends_print diagnostics
  · rw [String.append_empty, analyzedText]

theorem ends_printReport (report : FileReport) :
    (printReport arguments options report).Ends present () (printedText arguments options report)
      present := by
  unfold printReport printedText
  cases report.result with
  | error error => exact ends_sendMessage _
  | ok analyzed => exact ends_printAnalyzed report.path analyzed

/-- How the program ends after a batch. -/
def statusOf (batch : Batch) : ExitStatus := if batch.isFaulty then .failure else .success

theorem code_statusOf_ne_zero_iff (batch : Batch) :
    (statusOf batch).code ≠ 0 ↔ batch.isFaulty := by
  unfold statusOf
  cases batch.isFaulty <;> decide

theorem ends_conclude (batch : Batch) :
    (conclude options batch).Ends present (statusOf batch) "" present := by
  unfold conclude
  apply Process.Ends.of_text_eq
  · exact .optionally (ends_sendMessage _) (ends_pure _)
  · rw [ite_self, String.append_empty]

/-- The output file can be written, if there is one. -/
def Writable (arguments : Arguments) (present : Files) : Prop :=
  ∀ path, arguments.graphviz = some path → ∀ content, ∃ left, present.write path content = .ok left

/-- The batch that consists of the files at some paths. -/
def batchOf (options : Options) (present : Files) (paths : List String) : Batch :=
  Batch.analyze options (sources present paths)

/-- The files after the recorded dependencies have been written. -/
def filesLeft (arguments : Arguments) (present : Files) (content : String) : Files :=
  match arguments.graphviz with
  | none => present
  | some path =>
      match present.write path content with
      | .ok left => left
      | .error _ => present

/-- The reports about all files are printed, in order, and the program fails
exactly if one of the files is faulty. -/
theorem ends_analyzeFiles (writable : Writable arguments present) :
    (analyzeFiles filter arguments options).Ends present
      (statusOf (batchOf options present arguments.files))
      (String.join ((batchOf options present arguments.files).reports.map
        (printedText arguments options)))
      (filesLeft arguments present (batchOf options present arguments.files).graphviz) := by
  unfold analyzeFiles filesLeft
  apply (ends_log _).silently
  apply (ends_readSources _).silently
  apply (ends_forEach_silently ends_log _).silently
  apply Process.Ends.of_text_eq
  · apply (ends_forEach ends_printReport _).bind
    -- Nothing is printed any more, whether or not there is an output file.
    cases wanted : arguments.graphviz with
    | none => exact ends_conclude _
    | some path =>
        obtain ⟨left, writes⟩ :=
          writable path wanted (batchOf options present arguments.files).graphviz
        simp only [writes]
        apply (ends_writeFile writes).silently
        apply (ends_log _).silently
        exact ends_conclude _
  · rw [String.append_empty, batchOf]

/-! ### Agreement -/

/-- The program prints the reports about all files, which agree with the files, and
fails exactly if a file cannot be loaded or an error line is printed. -/
structure StatusAgrees (filter : LogFilter) (arguments : Arguments) (options : Options)
    (console : Console) : Prop where
  agree : List.Forall₂ FileAgrees (sources console.files arguments.files)
    (batchOf options console.files arguments.files).reports
  printed : ((analyzeFiles filter arguments options).runIn console).2.printed =
    console.printed ++ String.join
      ((batchOf options console.files arguments.files).reports.map (printedText arguments options))
  status_iff : ((analyzeFiles filter arguments options).runIn console).1.code ≠ 0 ↔
    (∃ path ∈ arguments.files, ∃ error, Graph.load console.files path = .error error) ∨
      ∃ report ∈ (batchOf options console.files arguments.files).reports, report.ShowsError

theorem statusAgrees {console : Console} (writable : Writable arguments console.files)
    (few : ∀ path ∈ arguments.files, ∀ graph, Graph.load console.files path = .ok graph →
      graph.declarations.length < 4294967296) :
    StatusAgrees filter arguments options console := by
  have agree : List.Forall₂ FileAgrees (sources console.files arguments.files)
      (batchOf options console.files arguments.files).reports := by
    apply Batch.agree_analyzeFrom fun declaration claimed => by cases claimed
    intro file isFile
    obtain ⟨path, isPath, rfl⟩ := List.mem_map.mp isFile
    exact few path isPath
  obtain ⟨status, _, printed⟩ := ends_analyzeFiles writable console rfl
  refine ⟨agree, printed, ?_⟩
  rw [status, code_statusOf_ne_zero_iff, Batch.isFaulty, any_isFaulty_iff agree]
  simp [sources, SourceFile.Unloadable, Graph.load]

/-- Errors, error lines and the exit status agree. When a graph is analyzed, exactly
one error is reported about each declaration with an error line, and nothing at
all about any other: a cycle that the declaration reaches, followed by its steps,
or a name that it reaches and that is not declared. No question about a depth
fails, and nothing fails once there is a weight. The program, with any files,
ends with a status other than zero exactly if a file cannot be loaded or an error
line is printed. -/
theorem errors_lines_and_status_agree :
    (∀ (graph : Graph) (session : AnalysisSession), Fresh session →
      graph.declarations.length < 4294967296 →
      ∃ descriptions after, ErrorsAgree graph session descriptions after ∧
        ∀ description ∈ descriptions,
          if description.line.text = description.line.name ++ " error" then
            Diagnostics.count description.diagnostics .error = 1
          else description.diagnostics = []) ∧
    ∀ (filter : LogFilter) (arguments : Arguments) (options : Options) (console : Console),
      Writable arguments console.files →
      (∀ path ∈ arguments.files, ∀ graph, Graph.load console.files path = .ok graph →
        graph.declarations.length < 4294967296) →
      StatusAgrees filter arguments options console := by
  constructor
  · intro graph session fresh few
    obtain ⟨descriptions, after, agree, _⟩ := fresh.errorsAgree few
    exact ⟨descriptions, after, agree, agree.allAgree.count_error⟩
  · intro filter arguments options console writable few
    exact statusAgrees writable few

private abbrev loopText : String :=
  "\x7b\"declarations\":[\x7b\"name\":\"a\",\"dependsOn\":[\"a\"]\x7d,\x7b\"name\":\"b\"\x7d]\x7d"

private abbrev loopConsole : Console where
  files := [⟨["loop.json"], .text loopText⟩]

private theorem read_loop : loopConsole.files.read "loop.json" = .ok loopText := by
  have noZeroByte : "loop.json".any (· = '\x00') = false := by
    show "loop.json".contains (fun character => decide (character = '\x00')) = false
    rw [String.contains_bool_eq]
    decide
  have relative : "loop.json".startsWith "/" = false := by decide +kernel
  have component : "loop.json".splitToList (· = '/') = ["loop.json"] := by decide +kernel
  unfold Files.read Files.locate
  rw [noZeroByte, relative, component]
  rfl

private theorem exists_load_loop :
    ∃ graph, Graph.load loopConsole.files "loop.json" = .ok graph ∧
      graph.declarations.length = 2 := by
  have loads : ((Graph.load loopConsole.files "loop.json").map (·.declarations.length)).toOption =
      some 2 := by
    rw [Graph.load, read_loop]
    decide +kernel
  cases loaded : Graph.load loopConsole.files "loop.json" with
  | error error =>
      rw [loaded] at loads
      cases loads
  | ok graph =>
      rw [loaded] at loads
      exact ⟨graph, rfl, Option.some.inj loads⟩

/-- Some declarations of a graph have error lines, and the program fails because of
the one in a file. -/
theorem errors_lines_and_status_agree_samples :
    (∃ graph descriptions after, Graph.ofEntries "diamond" diamond = .ok graph ∧
      ErrorsAgree graph { evaluator := .fresh {} false, world := [] } descriptions after ∧
      descriptions.map (·.line.text) = ["top weight=17 depth=2", "left weight=6 depth=1",
        "right weight=4 depth=0", "open error", "round error"]) ∧
    StatusAgrees .fallback { files := ["loop.json"] } {} loopConsole ∧
      ∃ report ∈ (batchOf {} loopConsole.files ["loop.json"]).reports, report.ShowsError := by
  constructor
  · let session : AnalysisSession := { evaluator := .fresh {} false, world := [] }
    have fresh : Fresh session :=
      ⟨⟨{}, false, rfl⟩, rfl, fun declaration claimed => by cases claimed⟩
    obtain ⟨graph, builds⟩ : ∃ graph, Graph.ofEntries "diamond" diamond = .ok graph := ⟨_, rfl⟩
    have texts : (match (Analysis.run graph session).1 with
        | .success lines => lines.map Line.text
        | _ => []) = ["top weight=17 depth=2", "left weight=6 depth=1", "right weight=4 depth=0",
          "open error", "round error"] := by
      cases builds
      decide +kernel
    have few : graph.declarations.length < 4294967296 := by
      cases builds
      decide
    obtain ⟨descriptions, after, agree, _⟩ :=
      errors_lines_and_status_agree.1 graph session fresh few
    refine ⟨graph, descriptions, after, builds, agree, ?_⟩
    rw [agree.runs] at texts
    rw [← texts]
    show _ = (descriptions.map Description.line).map Line.text
    rw [List.map_map]
    rfl
  · obtain ⟨graph, loads, twoDeclarations⟩ := exists_load_loop
    have writable : Writable { files := ["loop.json"] } loopConsole.files := by
      intro path isPath
      cases isPath
    have few : ∀ path ∈ ["loop.json"], ∀ graph, Graph.load loopConsole.files path = .ok graph →
        graph.declarations.length < 4294967296 := by
      intro path isPath other otherLoads
      rw [List.mem_singleton.mp isPath, loads] at otherLoads
      rw [← Except.ok.inj otherLoads, twoDeclarations]
      decide
    have agrees := errors_lines_and_status_agree.2 .fallback { files := ["loop.json"] } {}
      loopConsole writable few
    have fails : ((analyzeFiles .fallback { files := ["loop.json"] } {}).runIn
        loopConsole).1.code ≠ 0 := by
      rw [(ends_analyzeFiles writable loopConsole rfl).1, code_statusOf_ne_zero_iff, batchOf,
        sources, List.map_singleton, read_loop]
      decide +kernel
    refine ⟨agrees, (agrees.status_iff.mp fails).resolve_left ?_⟩
    rintro ⟨path, isPath, error, isFailing⟩
    rw [List.mem_singleton.mp isPath, loads] at isFailing
    cases isFailing

end CommandLine

end RequestEngine
