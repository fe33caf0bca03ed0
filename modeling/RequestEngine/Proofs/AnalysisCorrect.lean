import Mathlib.Data.List.Perm.Basic
import RequestEngine.Proofs.AnalysisRun

/-!
Contract: the analysis of a graph computes its true answers.

Owns:
- the line that a declaration has to get, in terms of its dependency paths;
- the theorem that it gets that line, and that the order of the declarations
  decides about the order of the lines only;
- the same for all files of a batch.

Does not own: the diagnostics of an analysis.
-/

namespace RequestEngine

open Analysis

/-- The line of a declaration. It shows a weight and a depth exactly if the name is
sound: the weight over all dependency paths, as far as a word can hold it, and
the length of the longest of them. -/
inductive Describes (declared : Declarations) (entry : DeclarationEntry) : String → Prop where
  | measured {weight depth : Nat} (sound : declared.Sound entry.name)
      (finite : (declared.paths entry.name).Finite)
      (isWeight : weight = min greatestWeight (declared.weightOver entry.name))
      (isDepth : IsGreatest (declared.lengths entry.name) depth) :
      Describes declared entry
        (entry.name ++ " weight=" ++ toString weight ++ " depth=" ++ toString depth)
  | failed (unsound : ¬ declared.Sound entry.name) :
      Describes declared entry (entry.name ++ " error")

theorem rightUnique_describes (declared : Declarations) :
    Relator.RightUnique (Describes declared) := by
  intro entry left right first second
  cases first with
  | measured sound _ isWeight isDepth =>
      cases second with
      | measured _ _ otherIsWeight otherIsDepth =>
          rw [isWeight, otherIsWeight, isDepth.unique otherIsDepth]
      | failed unsound => exact absurd sound unsound
  | failed unsound =>
      cases second with
      | measured sound _ _ _ => exact absurd sound unsound
      | failed _ => rfl

variable {graph : Graph} {path : String} {entries : List DeclarationEntry}
variable {session : AnalysisSession}

/-- A line that shows the values of a declaration describes it. -/
theorem Analysis.Shows.describes (few : graph.declarations.length < 4294967296)
    {declaration : Declaration} {line : Line} (shows : Shows graph declaration line) :
    Describes graph.declared declaration.toDeclarationEntry line.text := by
  cases resultEq : line.result with
  | some result =>
      obtain ⟨weight, depth⟩ := result
      obtain ⟨settlesWeight, settlesDepth⟩ := (shows.result_iff weight depth).mp resultEq
      obtain ⟨sound, isWeight⟩ := settles_totalWeight_iff.mp settlesWeight
      obtain ⟨_, isDepth⟩ := (settles_dependencyDepth_iff few).mp settlesDepth
      rw [Line.text, resultEq, shows.name_eq]
      exact .measured sound (sound.finite_paths graph.finite_names_declared) isWeight isDepth
  | none =>
      rw [Line.text, resultEq, shows.name_eq]
      refine .failed fun sound => ?_
      obtain ⟨weight, settlesWeight, _⟩ := settles_totalWeight sound
      obtain ⟨depth, settlesDepth, _⟩ := settles_dependencyDepth few sound
      have resultIsSome := (shows.result_iff weight depth).mpr ⟨settlesWeight, settlesDepth⟩
      rw [resultEq] at resultIsSome
      cases resultIsSome

/-- The analysis of a graph writes the line of every declaration, in file order. -/
theorem Analysis.Fresh.describes (fresh : Fresh session)
    (few : graph.declarations.length < 4294967296) :
    ∃ lines after, Analysis.run graph session = (.success lines, after) ∧
      after.registry.Admits analysisZone ∧
      List.Forall₂ (Describes graph.declared) (graph.declarations.map (·.toDeclarationEntry))
        (lines.map Line.text) := by
  obtain ⟨lines, after, runs, admits, shows⟩ := fresh.run few
  refine ⟨lines, after, runs, admits, ?_⟩
  rw [List.forall₂_map_left_iff, List.forall₂_map_right_iff]
  exact shows.imp fun _ _ shows => shows.describes few

private theorem describes_of_entries (fresh : Fresh session)
    (builds : Graph.ofEntries path entries = .ok graph) (few : entries.length < 4294967296) :
    ∃ lines after, Analysis.run graph session = (.success lines, after) ∧
      List.Forall₂ (Describes (.ofEntries entries)) entries (lines.map Line.text) := by
  have written := Graph.map_toEntry_of_ofEntries builds
  have fewDeclarations : graph.declarations.length < 4294967296 := by
    rwa [← written, List.length_map] at few
  obtain ⟨lines, after, runs, _, describes⟩ := fresh.describes fewDeclarations
  rw [written, Graph.declared_of_ofEntries builds] at describes
  exact ⟨lines, after, runs, describes⟩

/-- The analysis of a graph computes its true answers. On a fresh evaluator it ends
with exactly one line per declaration, in file order, and each line is the one
that its declaration has to get. When the declarations are permuted, so are the
lines, whatever the path of the graph and the options of the evaluator are. -/
theorem analysis_correct (fresh : Fresh session)
    (builds : Graph.ofEntries path entries = .ok graph) (few : entries.length < 4294967296) :
    ∃ lines after, Analysis.run graph session = (.success lines, after) ∧
      List.Forall₂ (Describes (.ofEntries entries)) entries (lines.map Line.text) ∧
      ∀ otherPath permuted otherSession, permuted.Perm entries → Fresh otherSession →
        ∃ otherGraph otherLines otherAfter,
          Graph.ofEntries otherPath permuted = .ok otherGraph ∧
          Analysis.run otherGraph otherSession = (.success otherLines, otherAfter) ∧
          (otherLines.map Line.text).Perm (lines.map Line.text) := by
  obtain ⟨lines, after, runs, describes⟩ := describes_of_entries fresh builds few
  refine ⟨lines, after, runs, describes, ?_⟩
  intro otherPath permuted otherSession perm otherFresh
  have distinct : (entries.map (·.name)).Nodup := by
    rw [← Graph.map_toEntry_of_ofEntries builds, List.map_map]
    exact graph.distinct
  have otherDistinct := (perm.map (·.name)).nodup_iff.mpr distinct
  obtain ⟨otherGraph, otherBuilds⟩ := Graph.exists_ofEntries otherPath otherDistinct
  obtain ⟨otherLines, otherAfter, otherRuns, otherDescribes⟩ :=
    describes_of_entries otherFresh otherBuilds (by rwa [perm.length_eq])
  refine ⟨otherGraph, otherLines, otherAfter, otherBuilds, otherRuns, ?_⟩
  rw [Declarations.ofEntries_perm perm otherDistinct] at otherDescribes
  exact List.rel_perm_imp (rightUnique_describes _) otherDescribes describes perm

/-- Declarations with a dependency that is listed twice, one that is not declared,
and a cycle. -/
def Analysis.diamond : List DeclarationEntry :=
  [⟨"top", 1, ["left", "left", "right"]⟩, ⟨"left", 2, ["right"]⟩, ⟨"right", 4, []⟩,
    ⟨"open", 8, ["right", "gone"]⟩, ⟨"round", 16, ["left", "round"]⟩]

theorem analysis_correct_diamond :
    List.Forall₂ (Describes (.ofEntries diamond)) diamond
      ["top weight=17 depth=2", "left weight=6 depth=1", "right weight=4 depth=0", "open error",
        "round error"] := by
  let session : AnalysisSession := { evaluator := .fresh {} false, world := [] }
  have fresh : Fresh session := ⟨⟨{}, false, rfl⟩, rfl, fun declaration claimed => by cases claimed⟩
  obtain ⟨graph, builds⟩ : ∃ graph, Graph.ofEntries "diamond" diamond = .ok graph := ⟨_, rfl⟩
  obtain ⟨lines, after, runs, describes, _⟩ := analysis_correct fresh builds (by decide)
  have texts : (match (Analysis.run graph session).1 with
      | .success lines => lines.map Line.text
      | _ => []) = ["top weight=17 depth=2", "left weight=6 depth=1", "right weight=4 depth=0",
        "open error", "round error"] := by
    cases builds
    decide +kernel
  rw [runs] at texts
  rwa [← texts]

/-! ### Batches -/

namespace Batch

variable {options : Options} {state : BatchState} {file : SourceFile}

/-- An analyzed graph that every declaration got its line for. -/
def Correct (report : GraphReport) : Prop :=
  ∃ lines, report.outcome = .success lines ∧
    List.Forall₂ (Describes report.graph.declared)
      (report.graph.declarations.map (·.toDeclarationEntry)) (lines.map Line.text)

theorem correct_analyzeFile (admits : state.registry.Admits analysisZone)
    (few : ∀ graph, Graph.ofFile file.path file.content = .ok graph →
      graph.declarations.length < 4294967296) :
    (∀ report, (analyzeFile options state file).1.result = .ok report → Correct report) ∧
      (analyzeFile options state file).2.registry.Admits analysisZone := by
  unfold analyzeFile
  cases loads : Graph.ofFile file.path file.content with
  | error error =>
      refine ⟨fun report isReport => ?_, admits⟩
      cases isReport
  | ok graph =>
      have fresh : Fresh (session options state) :=
        ⟨⟨options, options.collectStatistics, rfl⟩, rfl, admits⟩
      obtain ⟨lines, after, runs, stillAdmits, describes⟩ := fresh.describes (few graph loads)
      simp only [runs]
      refine ⟨fun report isReport => ?_, stillAdmits⟩
      cases isReport
      exact ⟨lines, rfl, describes⟩

/-- Every graph of a batch is analyzed correctly, although the evaluators of a
batch share a registry. -/
theorem correct_analyze (options : Options) (files : List SourceFile)
    (few : ∀ file ∈ files, ∀ graph, Graph.ofFile file.path file.content = .ok graph →
      graph.declarations.length < 4294967296) :
    ∀ fileReport ∈ (analyze options files).reports, ∀ report,
      fileReport.result = .ok report → Correct report := by
  have initial : (BatchState.registry {}).Admits analysisZone :=
    fun declaration claimed => by cases claimed
  unfold analyze
  generalize ({} : BatchState) = state at initial
  induction files generalizing state with
  | nil => simp [analyzeFrom]
  | cons file rest inductionHypothesis =>
      obtain ⟨correct, stillAdmits⟩ := correct_analyzeFile initial (few file List.mem_cons_self)
      intro fileReport isReported
      rcases List.mem_cons.mp isReported with rfl | inRest
      · exact correct
      · exact inductionHypothesis (fun file inRest => few file (List.mem_cons_of_mem _ inRest)) _
          stillAdmits fileReport inRest

end Batch

end RequestEngine
