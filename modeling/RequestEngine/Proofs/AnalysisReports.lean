import Mathlib.Data.Set.List
import RequestEngine.Proofs.AnalysisRun
import RequestEngine.Proofs.CycleReports
import RequestEngine.Proofs.StrictRuns

/-!
Contract: the diagnostics of an analysis agree with its lines.

Owns:
- what is reported about a declaration, and for which line;
- the trails of dependencies along which the analyses ask their questions;
- that the analyses pass every failure on, and that their cycles are cycles of
  dependencies;
- that depths are asked for only where they can be found;
- lines and histories of all declarations of a graph, side by side.

A declaration without a line of its own fails with its weight already. Its depth
is not even asked for, so cycles are reported as cycles of weights only.

Does not own: what the lines say.
-/

namespace RequestEngine

namespace Analysis

open Program

variable {graph : Graph} {question : String → AnalysisRequest} {active : List AnalysisRequest}
variable {request : AnalysisRequest} {α : Type}

/-! ### Lines and diagnostics -/

/-- A line ends with the word for an error exactly when it shows no values. -/
theorem Line.text_eq_error_iff (line : Line) :
    line.text = line.name ++ " error" ↔ line.result = none := by
  unfold Line.text
  cases line.result with
  | none => simp
  | some result =>
      simp only [reduceCtorEq, iff_false, String.append_assoc]
      intro same
      have sameRest := congrArg String.toList same
      simp [String.toList_append] at sameRest

/-- The first diagnostic about a cycle that leads back to the weight of a name. -/
def weightCycle (graph : Graph) (name : String) : Diagnostic :=
  .ofTemplate ((AnalysisRequest.totalWeight name).cycleSpan graph)
    (.error 'E' 1 "weight of \x7b1\x7d depends on itself")
    [Text.quoted graph.path, Text.quoted name]

/-- The further diagnostic about a request that lies on such a cycle. -/
def weightStep (graph : Graph) (name : String) : Diagnostic :=
  .ofTemplate ((AnalysisRequest.totalWeight name).cycleSpan graph)
    (.note 'N' 1 "through the weight of \x7b1\x7d")
    [Text.quoted graph.path, Text.quoted name]

/-- What is reported about a declaration, together with its line. -/
inductive Reports (graph : Graph) (declaration : Declaration) : Line → List Diagnostic → Prop
    where
  | measured {weight : UInt64} {depth : UInt32} :
      Reports graph declaration ⟨declaration.name, some (weight, depth)⟩ []
  /-- The declaration reaches a cycle of dependencies. -/
  | cyclic {name : String} {through : List String}
      (reaches : graph.declared.Reaches declaration.name name)
      (isCycle : (name :: (through ++ [name])).IsChain graph.declared.DependsOn) :
      Reports graph declaration ⟨declaration.name, none⟩
        (weightCycle graph name :: (through ++ [name]).map (weightStep graph))
  /-- The declaration reaches a name that is not declared. -/
  | undeclared {name : String} (reaches : graph.declared.Reaches declaration.name name)
      (isUndeclared : graph.find? name = none) :
      Reports graph declaration ⟨declaration.name, none⟩
        [.ofTemplate declaration.span .requestFailed
          ["declaration '" ++ declaration.name ++ "'", "unknown declaration '" ++ name ++ "'"]]

/-- There is one error about a declaration if its line is an error line, and
nothing at all otherwise. -/
theorem Reports.count_error {declaration : Declaration} {line : Line}
    {diagnostics : List Diagnostic} (reports : Reports graph declaration line diagnostics) :
    if line.text = line.name ++ " error" then Diagnostics.count diagnostics .error = 1
    else diagnostics = [] := by
  simp only [Line.text_eq_error_iff]
  cases reports with
  | measured => rfl
  | undeclared _ _ => rfl
  | @cyclic name through =>
      have noErrors :
          ((through ++ [name]).map (weightStep graph)).countP (·.level = .error) = 0 := by
        rw [List.countP_eq_zero]
        intro note isNote
        obtain ⟨other, _, rfl⟩ := List.mem_map.mp isNote
        exact Bool.false_ne_true
      show Diagnostics.count (weightCycle graph name :: _) .error = 1
      rw [Diagnostics.count, List.countP_cons_of_pos (by rfl), noErrors]

/-! ### Dependencies that are followed -/

/-- Names that lead from a first name to another one, each a dependency of the one
before it. -/
inductive Trail (graph : Graph) (start : String) : List String → String → Prop where
  | start : Trail graph start [] start
  | next {names : List String} {name needed : String} (trail : Trail graph start names name)
      (depends : graph.declared.DependsOn name needed) :
      Trail graph start (names ++ [name]) needed

namespace Trail

variable {start name : String} {names : List String}

theorem reaches (trail : Trail graph start names name) : graph.declared.Reaches start name := by
  induction trail with
  | start => exact .refl
  | next _ depends inductionHypothesis => exact inductionHypothesis.tail depends

theorem isChain (trail : Trail graph start names name) :
    (names ++ [name]).IsChain graph.declared.DependsOn := by
  induction trail with
  | start => exact .singleton _
  | next _ depends inductionHypothesis =>
      rw [List.append_assoc, List.singleton_append, List.isChain_append_cons_cons]
      exact ⟨inductionHypothesis, depends, .singleton _⟩

end Trail

/-- What is asked for while questions about a name are answered. The active
requests are the questions along a trail from this name. The request is the
question at the end of the trail, or it looks up the last active name. -/
inductive Asked (graph : Graph) (question : String → AnalysisRequest) (start : String) :
    List AnalysisRequest → AnalysisRequest → Prop where
  | question {names : List String} {name : String} (trail : Trail graph start names name) :
      Asked graph question start (names.map question) (question name)
  | lookup {names : List String} {name : String} (trail : Trail graph start names name) :
      Asked graph question start ((names ++ [name]).map question) (.lookup name)

/-- Some name that is reached is not declared. -/
def ReachesUndeclared (graph : Graph) (start : String) (error : ErrorChain) : Prop :=
  ∃ name, graph.declared.Reaches start name ∧ graph.find? name = none ∧
    error = .ofMessage ("unknown declaration '" ++ name ++ "'")

/-! ### The analyses pass every failure on -/

section Strict

variable {allowed : AnalysisRequest → Prop} {raises : ErrorChain → Prop}
variable {add : α → {name : String} → AnalysisValue (question name) → AnalysisComputation α}
variable {first : Declaration → α} {found : α} {name start : String} {names : List String}

private theorem strict_visit {needed : List String}
    (asks : ∀ name ∈ needed, allowed (question name))
    (adds : ∀ found {name} (answer : AnalysisValue (question name)),
      (add found answer).Strict (program graph) allowed raises) :
    (visit question add found needed).Strict (program graph) allowed raises := by
  induction needed generalizing found with
  | nil => trivial
  | cons name rest inductionHypothesis =>
      apply Computation.strict_evaluate_bind (asks name List.mem_cons_self)
      intro answer _
      apply (adds found answer).bind
      intro next
      exact inductionHypothesis fun name inRest => asks name (List.mem_cons_of_mem _ inRest)

/-- A name that is looked up yields its declaration. -/
private theorem find?_of_yields {declaration : Declaration}
    (yields : (program graph).Yields (.lookup name) declaration) :
    graph.find? name = some declaration := by
  obtain ⟨session, history, final, runs⟩ := yields rfl
  change Run (program graph) (compute graph (.lookup name)) _ _ _ _ at runs
  unfold compute at runs
  cases isFound : graph.find? name with
  | some declaration =>
      simp only [isFound] at runs
      cases runs
      rfl
  | none =>
      simp only [isFound] at runs
      cases runs

private theorem strict_lookup (reaches : graph.declared.Reaches start name) :
    (compute graph (.lookup name)).Strict (program graph) allowed
      (ReachesUndeclared graph start) := by
  unfold compute
  cases isFound : graph.find? name with
  | some declaration =>
      simp only [isFound]
      trivial
  | none =>
      simp only [isFound]
      exact ⟨name, reaches, isFound, rfl⟩

/-- What a question looks up and asks for lies along a longer trail. -/
private theorem strict_examine (trail : Trail graph start names name)
    (adds : ∀ found {needed} (answer : AnalysisValue (question needed)),
      (add found answer).Strict (program graph)
        (Asked graph question start (names.map question ++ [question name])) raises) :
    (examine question add first name).Strict (program graph)
      (Asked graph question start (names.map question ++ [question name])) raises := by
  have grown : names.map question ++ [question name] = (names ++ [name]).map question := by
    rw [List.map_append, List.map_singleton]
  rw [grown] at adds ⊢
  apply Computation.strict_evaluate_bind (.lookup trail)
  intro declaration yields
  apply strict_visit _ adds
  intro needed isNeeded
  have declares := Graph.declared_of_find? (find?_of_yields yields)
  exact .question (trail.next ⟨_, declares, isNeeded⟩)

end Strict

theorem disciplined_totalWeight (start : String) :
    Disciplined (program graph) (Asked graph .totalWeight start)
      (ReachesUndeclared graph start) where
  nested := by
    intro active request asked notActive
    cases asked with
    | lookup trail => exact strict_lookup trail.reaches
    | @question names name trail =>
        show (compute graph (.totalWeight name)).Strict _ _ _
        rw [compute_totalWeight]
        exact strict_examine trail fun _ _ _ => trivial

theorem disciplined_dependencyDepth (start : String) :
    Disciplined (program graph) (Asked graph .dependencyDepth start)
      (ReachesUndeclared graph start) where
  nested := by
    intro active request asked notActive
    cases asked with
    | lookup trail => exact strict_lookup trail.reaches
    | @question names name trail =>
        show (compute graph (.dependencyDepth name)).Strict _ _ _
        rw [compute_dependencyDepth]
        apply strict_examine trail
        intro depth _ below
        unfold addDepth
        split <;> trivial

/-- A cycle among questions about weights is a cycle of dependencies, which is
reported as one error with notes. -/
theorem cycleReport_weights {start : String} (asked : Asked graph .totalWeight start active request)
    (isActive : request ∈ active) :
    ∃ name through, graph.declared.Reaches start name ∧
      (name :: (through ++ [name])).IsChain graph.declared.DependsOn ∧
      Session.cycleReport (program graph) request (Session.cycleSteps request active) =
        weightCycle graph name :: (through ++ [name]).map (weightStep graph) := by
  cases asked with
  | lookup trail => simp at isActive
  | @question names name trail =>
      have isEarlier : name ∈ names := by simpa using isActive
      obtain ⟨below, through, rfl, notBelow⟩ := List.eq_append_cons_of_mem isEarlier
      have chain := trail.isChain
      rw [List.append_assoc, List.cons_append] at chain
      refine ⟨name, through, trail.reaches, chain.right_of_append, ?_⟩
      rw [List.map_append, List.map_cons, cycleSteps_append (by simpa using notBelow)]
      have steps : (through.map AnalysisRequest.totalWeight).flatMap
          (program graph).stepDiagnostics = through.map (weightStep graph) := by
        rw [List.flatMap_map]
        exact List.flatMap_pure_eq_map ..
      show _ :: (_ ++ [weightStep graph name]) = _
      rw [steps, List.map_append]
      rfl

/-! ### Declarations -/

variable {session : AnalysisSession} {larger : Registry} {declaration : Declaration}

/-- The line of a declaration, with everything that happens until it is there. -/
structure Description where
  line : Line
  history : List (Event AnalysisRequest AnalysisValue DepthCells)

/-- What is reported while a declaration is described. -/
def Description.diagnostics (description : Description) : Diagnostics :=
  description.history.flatMap Event.diagnostics

/-- Describing a declaration leads from one session to another, and what happens
agrees with its line. -/
structure Agrees (graph : Graph) (declaration : Declaration) (before : AnalysisSession)
    (description : Description) (after : AnalysisSession) : Prop where
  runs : Run (program graph) (describe declaration) before description.history
    (some (.success description.line)) after
  reports : Reports graph declaration description.line description.diagnostics
  /-- No question about a depth fails. -/
  depths : ∀ event ∈ description.history, ∀ name,
    event.request? = some (.dependencyDepth name) → event.isSmooth
  /-- If there is a weight, nothing fails at all. -/
  weighed : ∀ weighing weight middle,
    Run (program graph) (Computation.evaluate (.totalWeight declaration.name)) before weighing
      (some (.success weight)) middle →
    ∀ event ∈ description.history, event.isSmooth

private theorem exists_run_evaluate (few : graph.declarations.length < 4294967296)
    (holds : larger.Holds analysisZone) (idle : Idle (program graph) larger session)
    (request : AnalysisRequest) :
    ∃ answer history after, Run (program graph) (Computation.evaluate request) session history
        (some (.ofAnswer answer)) after ∧
      Idle (program graph) larger after ∧
      ∀ value, answer = .ok value ↔
        Settles (program graph) ((program graph).compute request) (.ok value) := by
  obtain ⟨answer, after, evaluated, afterIdle, settles_iff⟩ := evaluates few holds idle request
  obtain ⟨history, runs⟩ := exists_run_of_run ((run_evaluate ..).trans evaluated) (by simp)
  exact ⟨answer, history, after, runs, afterIdle, settles_iff⟩

private theorem asked_of_idle (idle : Idle (program graph) larger session)
    (question : String → AnalysisRequest) (name : String) :
    Asked graph question name session.evaluator.active (question name) := by
  rw [idle.noneActive]
  exact .question .start

section Failed

variable {before middle after : AnalysisSession} {failure : Failure} {line : Line}
variable {history further : List (Event AnalysisRequest AnalysisValue DepthCells)}

/-- After a weight was not found, nothing is asked for any more. -/
private theorem agrees_of_failed
    (weighs : Run (program graph) (Computation.evaluate (.totalWeight declaration.name)) before
      history (some (.failed failure)) middle)
    (concerns : Concerns (Asked graph .totalWeight declaration.name) history)
    (concludes : Run (program graph) (withoutResult declaration failure) middle further
      (some (.success line)) after)
    (asksNothing : ∀ event ∈ further, event.request? = none)
    (reports : Reports graph declaration line ((history ++ further).flatMap Event.diagnostics)) :
    Agrees graph declaration before ⟨line, history ++ further⟩ after where
  runs := (show Run _ _ _ _ (some (.ofAnswer (.error failure))) _ from weighs).ask_of_evaluate
    concludes
  reports := reports
  depths := by
    intro event happened name isDepth
    rcases List.mem_append.mp happened with isEarlier | isLater
    · obtain ⟨active, asked⟩ := concerns event isEarlier _ isDepth
      cases asked
    · rw [asksNothing event isLater] at isDepth
      cases isDepth
  weighed := by
    intro weighing weight found weighsAgain
    cases (weighs.unique rfl weighsAgain).2.1

/-- A weight that cannot be found leaves an error line, with one error about it. -/
private theorem exists_agrees_of_failed
    (weighs : Run (program graph) (Computation.evaluate (.totalWeight declaration.name)) before
      history (some (.failed failure)) middle)
    (idle : Idle (program graph) larger before) (middleIdle : Idle (program graph) larger middle) :
    ∃ description after, Idle (program graph) larger after ∧
      Agrees graph declaration before description after := by
  have accountable := weighs.accountable (disciplined_totalWeight _)
    (Computation.strict_evaluate (asked_of_idle idle .totalWeight _))
  have blamed := accountable.blamed failure rfl
  generalize reported : history.flatMap Event.diagnostics = diagnostics at blamed
  cases blamed with
  | cycle asked isActive =>
      obtain ⟨name, through, reaches, isCycle, isReport⟩ := cycleReport_weights asked isActive
      refine ⟨_, middle, middleIdle,
        agrees_of_failed weighs accountable.concerns .done (by simp) ?_⟩
      rw [List.append_nil, reported, isReport]
      exact .cyclic reaches isCycle
  | raised isRaised =>
      obtain ⟨name, reaches, isUndeclared, rfl⟩ := isRaised
      refine ⟨_, _, ⟨?_, middleIdle.trusted.reported _, middleIdle.below⟩,
        agrees_of_failed weighs accountable.concerns (.report .done) ?_ ?_⟩
      · exact middleIdle.noneActive
      · intro event happened
        rw [List.mem_singleton.mp happened]
        rfl
      · rw [List.flatMap_append, reported]
        exact .undeclared reaches isUndeclared

end Failed

/-- Describing a declaration has a line that agrees with what happens. -/
theorem exists_agrees (few : graph.declarations.length < 4294967296)
    (holds : larger.Holds analysisZone) (idle : Idle (program graph) larger session)
    (declaration : Declaration) :
    ∃ description after, Idle (program graph) larger after ∧
      Agrees graph declaration session description after := by
  obtain ⟨weighed, history, middle, weighs, middleIdle, weight_iff⟩ :=
    exists_run_evaluate few holds idle (.totalWeight declaration.name)
  cases weighed with
  | error failure => exact exists_agrees_of_failed weighs idle middleIdle
  | ok weight =>
      -- A name with a weight is sound, so that the question about its depth has a value.
      obtain ⟨sound, _⟩ := settles_totalWeight_iff.mp ((weight_iff weight).mp rfl)
      obtain ⟨depth, settlesDepth, _⟩ := settles_dependencyDepth few sound
      obtain ⟨measured, further, after, measures, afterIdle, depth_iff⟩ :=
        exists_run_evaluate few holds middleIdle (.dependencyDepth declaration.name)
      obtain rfl := (depth_iff depth).mpr settlesDepth
      have weighing := weighs.accountable (disciplined_totalWeight _)
        (Computation.strict_evaluate (asked_of_idle idle .totalWeight _))
      have measuring := measures.accountable (disciplined_dependencyDepth _)
        (Computation.strict_evaluate (asked_of_idle middleIdle .dependencyDepth _))
      have smooth : ∀ event ∈ history ++ (further ++ []), event.isSmooth := by
        intro event happened
        rw [List.append_nil] at happened
        exact (List.mem_append.mp happened).elim (weighing.smooth weight rfl event)
          (measuring.smooth depth rfl event)
      refine ⟨⟨⟨declaration.name, some (weight, depth)⟩, history ++ (further ++ [])⟩, after,
        afterIdle, ⟨?_, ?_, fun event happened _ _ => smooth event happened, fun _ _ _ _ => smooth⟩⟩
      · exact weighs.ask_of_evaluate (measures.ask_of_evaluate .done)
      · rw [Description.diagnostics, diagnostics_of_smooth smooth]
        exact .measured

/-! ### Graphs -/

/-- Declarations are described one after the other, and what happens for each of
them agrees with its line. -/
inductive AllAgree (graph : Graph) :
    AnalysisSession → List Declaration → List Description → AnalysisSession → Prop where
  | nil {session : AnalysisSession} : AllAgree graph session [] [] session
  | cons {session middle after : AnalysisSession} {declaration : Declaration}
      {description : Description} {declarations : List Declaration}
      {descriptions : List Description}
      (first : Agrees graph declaration session description middle)
      (rest : AllAgree graph middle declarations descriptions after) :
      AllAgree graph session (declaration :: declarations) (description :: descriptions) after

theorem exists_allAgree (few : graph.declarations.length < 4294967296)
    (holds : larger.Holds analysisZone) (idle : Idle (program graph) larger session)
    (declarations : List Declaration) :
    ∃ descriptions after, AllAgree graph session declarations descriptions after := by
  induction declarations generalizing session with
  | nil => exact ⟨[], session, .nil⟩
  | cons declaration rest inductionHypothesis =>
      obtain ⟨description, middle, middleIdle, agrees⟩ := exists_agrees few holds idle declaration
      obtain ⟨descriptions, after, agreeRest⟩ := inductionHypothesis middleIdle
      exact ⟨description :: descriptions, after, .cons agrees agreeRest⟩

namespace AllAgree

variable {before after : AnalysisSession} {declarations : List Declaration}
variable {descriptions : List Description}

theorem run (allAgree : AllAgree graph before declarations descriptions after) :
    Run (program graph) (describeAll declarations) before
      (descriptions.flatMap Description.history)
      (some (.success (descriptions.map Description.line))) after := by
  induction allAgree with
  | nil => exact .done
  | cons first _ inductionHypothesis =>
      rw [describeAll, List.flatMap_cons, ← List.append_nil (List.flatMap _ _)]
      exact first.runs.bind rfl (inductionHypothesis.bind rfl .done)

/-- Everything that is reported is reported about one of the declarations. -/
theorem diagnostics_eq (allAgree : AllAgree graph before declarations descriptions after) :
    after.diagnostics = before.diagnostics ++ descriptions.flatMap Description.diagnostics := by
  rw [allAgree.run.steps.diagnostics_eq, List.flatMap_assoc]
  rfl

/-- Whichever declaration is described, there is one error about it if its line is
an error line, and nothing at all otherwise. -/
theorem count_error (allAgree : AllAgree graph before declarations descriptions after) :
    ∀ description ∈ descriptions,
      if description.line.text = description.line.name ++ " error" then
        Diagnostics.count description.diagnostics .error = 1
      else description.diagnostics = [] := by
  induction allAgree with
  | nil =>
      intro description isDescription
      cases isDescription
  | cons first _ inductionHypothesis =>
      intro description isDescription
      rcases List.mem_cons.mp isDescription with rfl | inRest
      · exact first.reports.count_error
      · exact inductionHypothesis description inRest

/-- There are errors exactly when there is an error line. -/
theorem hasErrors_iff (allAgree : AllAgree graph before declarations descriptions after) :
    Diagnostics.hasErrors (descriptions.flatMap Description.diagnostics) ↔
      ∃ description ∈ descriptions,
        description.line.text = description.line.name ++ " error" := by
  have faulty_iff : ∀ description ∈ descriptions, Diagnostics.hasErrors description.diagnostics ↔
      description.line.text = description.line.name ++ " error" := by
    intro description isDescription
    have counted := allAgree.count_error description isDescription
    by_cases failed : description.line.text = description.line.name ++ " error"
    · rw [if_pos failed] at counted
      simp [Diagnostics.hasErrors_iff_count_pos, counted, failed]
    · rw [if_neg failed] at counted
      simp [counted, failed, Diagnostics.hasErrors]
  show (descriptions.flatMap Description.diagnostics).any (·.level = .error) ↔ _
  rw [List.any_flatMap, List.any_eq_true]
  exact exists_congr fun description => and_congr_right (faulty_iff description)

end AllAgree

/-- The analysis of a graph ends with a line for every declaration, in file order,
and everything that is reported agrees with these lines. -/
structure ErrorsAgree (graph : Graph) (session : AnalysisSession)
    (descriptions : List Description) (after : AnalysisSession) : Prop where
  runs : Analysis.run graph session = (.success (descriptions.map Description.line), after)
  allAgree : AllAgree graph session graph.declarations descriptions after
  diagnostics_eq : after.diagnostics =
    session.diagnostics ++ descriptions.flatMap Description.diagnostics

/-- The diagnostics of an analysis agree with its lines. -/
theorem Fresh.errorsAgree (fresh : Fresh session)
    (few : graph.declarations.length < 4294967296) :
    ∃ descriptions after, ErrorsAgree graph session descriptions after ∧
      after.registry.Admits analysisZone := by
  obtain ⟨larger, holds, idle⟩ := fresh.exists_idle graph
  obtain ⟨descriptions, after, allAgree⟩ := exists_allAgree few holds idle graph.declarations
  obtain ⟨lines, final, runs, admits, _⟩ := fresh.run few
  obtain ⟨history, happens⟩ := exists_run_of_run runs (by simp)
  obtain ⟨_, sameOutcome, rfl⟩ := allAgree.run.unique rfl happens
  obtain rfl := Outcome.success.inj sameOutcome
  exact ⟨descriptions, after, ⟨runs, allAgree, allAgree.diagnostics_eq⟩, admits⟩

end Analysis

end RequestEngine
