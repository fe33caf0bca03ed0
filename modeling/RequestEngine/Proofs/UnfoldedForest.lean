import RequestEngine.Proofs.PrintedLines
import RequestEngine.Proofs.RecordedGraph
import RequestEngine.Proofs.TreePlaces

/-!
Contract: trees and forests print every edge that they reach exactly once.

Owns:
- the guarantees of a printed tree or forest as a whole;
- that every tree and forest of every recorded graph gives them;
- that the forest of an evaluator reaches every edge that was recorded.

Does not own: which lines are marked as cyclic.
-/

namespace RequestEngine

open Relation

/-! ### Text -/

namespace TreeLine

variable {Request : Type}

/-- The text of a line without its line break. -/
def drawn (display : Request → String) (line : TreeLine Request) : List Char :=
  (String.join (line.ancestors.map indentation) ++ branch line.isLast ++ display line.request ++
    line.mark.text).toList

theorem toList_text (display : Request → String) (line : TreeLine Request) :
    (line.text display).toList = line.drawn display ++ ['\n'] := by
  simp only [text, drawn, String.toList_append]
  rfl

/-- A line has no line break of its own if its request is displayed without one. -/
theorem newline_not_mem_drawn {display : Request → String} {line : TreeLine Request}
    (noBreak : '\n' ∉ (display line.request).toList) : '\n' ∉ line.drawn display := by
  have indented : ∀ isLast, '\n' ∉ (indentation isLast).toList := by decide
  have branched : ∀ isLast, '\n' ∉ (branch isLast).toList := by decide
  have marked : '\n' ∉ line.mark.text.toList := by cases line.mark <;> decide
  simp only [drawn, String.toList_append, List.mem_append, not_or]
  refine ⟨⟨⟨?_, branched _⟩, noBreak⟩, marked⟩
  rw [String.toList_join, List.mem_flatMap]
  rintro ⟨_, isIndentation, hasBreak⟩
  obtain ⟨isLast, _, rfl⟩ := List.mem_map.mp isIndentation
  exact indented isLast hasBreak

theorem linesOf_join {display : Request → String} {lines : List (TreeLine Request)}
    (noBreak : ∀ line ∈ lines, '\n' ∉ (display line.request).toList) :
    Text.linesOf (String.join (lines.map (·.text display))).toList =
      lines.map (·.drawn display) := by
  have printed := Text.linesOf_flatMap
    (fun line isLine => newline_not_mem_drawn (noBreak line isLine)) []
  rw [String.toList_join, List.flatMap_map]
  simp only [toList_text]
  simpa using printed

end TreeLine

namespace Recorder

variable {Request : Type} [DecidableEq Request]

/-- What is guaranteed of the lines and of the text of some trees. -/
structure Unfolds (recorder : Recorder Request) (display : Request → String)
    (starts : List Request) (lines : List (TreeLine Request)) (text : String) : Prop where
  /-- The rules of the traversal, which know no bound, end with these lines. -/
  follows : ∀ others, (∃ after, Shows recorder [] [] (tops starts) [] others after) ↔ others = lines
  /-- The topmost lines are the ones of the requests that the trees start with. -/
  topmost : (lines.filter (·.depth = 0)).map (fun line => (line.isLast, line.request)) = tops starts
  /-- Every line shows what it should in its place. -/
  placed : ∀ earlier line later, lines = earlier ++ line :: later →
    Placed recorder earlier line later
  /-- A reachable request with dependencies is expanded once, by its first line. -/
  once : ∀ request ∈ recorder.reachable starts, recorder.dependenciesOf request ≠ [] →
    ∃ earlier line later, lines = earlier ++ line :: later ∧ line.request = request ∧
      line.mark = .none ∧ request ∉ earlier.map (·.request) ∧
      ∀ other ∈ later, other.request = request → other.mark ≠ .none
  /-- Exactly the reachable requests have lines. -/
  requests : ∀ request, request ∈ lines.map (·.request) ↔ request ∈ recorder.reachable starts
  /-- There is a line for every start, and one for every edge that is reached. -/
  finite : (recorder.reachable starts).Finite
  length_eq : lines.length = starts.length +
    ∑ᶠ request ∈ recorder.reachable starts, (recorder.dependenciesOf request).length
  /-- Every line is one line of the text. -/
  printed : (∀ request ∈ recorder.reachable starts, '\n' ∉ (display request).toList) →
    Text.linesOf text.toList = lines.map (·.drawn display)

variable {recorder : Recorder Request} {starts after : List Request}
variable {lines : List (TreeLine Request)}

/-- A request with dependencies is expanded by its first line, and by no other. -/
private theorem exists_first_line {request : Request}
    (placed : ∀ earlier line later, lines = earlier ++ line :: later →
      Placed recorder earlier line later)
    (isShown : request ∈ lines.map (·.request)) (depends : recorder.dependenciesOf request ≠ []) :
    ∃ earlier line later, lines = earlier ++ line :: later ∧ line.request = request ∧
      line.mark = .none ∧ request ∉ earlier.map (·.request) ∧
      ∀ other ∈ later, other.request = request → other.mark ≠ .none := by
  obtain ⟨before, behind, parts, isFirst⟩ := List.eq_append_cons_of_mem isShown
  obtain ⟨earlier, fromLine, rfl, rfl, isLine⟩ := List.map_eq_append_iff.mp parts
  obtain ⟨line, later, rfl, rfl, rfl⟩ := List.map_eq_cons_iff.mp isLine
  have isExpanded := (placed earlier line later rfl).first isFirst
  refine ⟨earlier, line, later, rfl, rfl, isExpanded, isFirst, ?_⟩
  intro other isLater same
  obtain ⟨between, rest, rfl⟩ := List.append_of_mem isLater
  have marked := (placed (earlier ++ line :: between) other rest (by simp)).again
    (same ▸ depends) (by simp [same])
  rw [marked]
  split <;> decide

theorem Shows.unfolds (shows : Shows recorder [] [] (tops starts) [] lines after)
    (display : Request → String) :
    Unfolds recorder display starts lines (String.join (lines.map (·.text display))) where
  follows := by
    intro others
    constructor
    · rintro ⟨_, also⟩
      exact (also.unique shows).1
    · rintro rfl
      exact ⟨after, shows⟩
  topmost := by
    have topmost := congrArg (List.map (·.2)) shows.filter_depth
    simpa [Function.comp_def] using topmost
  placed := shows.placed
  once := fun _ isReached => exists_first_line shows.placed (shows.mem_lines_iff.mpr isReached)
  requests := fun _ => shows.mem_lines_iff
  finite := shows.finite_reachable
  length_eq := shows.length_eq_add_finsum
  printed := by
    intro noBreak
    refine TreeLine.linesOf_join fun line isLine => noBreak _ ?_
    exact shows.mem_lines_iff.mp (List.mem_map_of_mem isLine)

/-! ### What evaluators record -/

theorem map_dependent_addEdge (dependent request : Request)
    (edges : List (DependencyList Request)) :
    (addEdge dependent request edges).map (·.dependent) =
      appendNew (edges.map (·.dependent)) dependent := by
  induction edges with
  | nil => simp [addEdge, appendNew]
  | cons entry rest inductionHypothesis =>
      by_cases same : entry.dependent = dependent
      · simp [addEdge, appendNew, same]
      · have differs : dependent ≠ entry.dependent := fun other => same other.symm
        rw [addEdge, if_neg same, List.map_cons, inductionHypothesis, List.map_cons]
        unfold appendNew
        simp only [List.mem_cons, differs, false_or]
        split <;> rfl

/-- No request has two lists of dependencies. -/
def Distinct (recorder : Recorder Request) : Prop := (recorder.edges.map (·.dependent)).Nodup

theorem Distinct.record (distinct : recorder.Distinct) (asker : Option Request)
    (request : Request) : (recorder.record asker request).Distinct := by
  cases asker with
  | none => exact distinct
  | some dependent =>
      rw [Distinct, Recorder.record, map_dependent_addEdge]
      exact nodup_appendNew distinct dependent

/-- In a graph that was recorded, an entry holds the dependencies of its request. -/
theorem Distinct.dependenciesOf_eq (distinct : recorder.Distinct)
    {entry : DependencyList Request} (isEntry : entry ∈ recorder.edges) :
    recorder.dependenciesOf entry.dependent = entry.dependencies := by
  unfold dependenciesOf
  cases found : recorder.edges.find? (·.dependent = entry.dependent) with
  | none => simpa using List.find?_eq_none.mp found entry isEntry
  | some other =>
      have sameDependent : other.dependent = entry.dependent := by
        simpa using List.find?_some found
      rw [List.inj_on_of_nodup_map distinct (List.mem_of_find?_eq_some found) isEntry sameDependent]
      rfl

theorem Distinct.edgeCount_eq (distinct : recorder.Distinct) :
    recorder.edgeCount = recorder.edgesFrom (recorder.edges.map (·.dependent)) := by
  rw [edgeCount, edgesFrom, List.length_flatMap, List.map_map]
  congr 1
  refine List.map_congr_left fun entry isEntry => ?_
  rw [Function.comp_apply, distinct.dependenciesOf_eq isEntry]

/-- If roots lead to every edge, then the edges that they reach are all edges. -/
theorem Distinct.finsum_eq_edgeCount (distinct : recorder.Distinct)
    (grounded : ∀ {dependent needed}, recorder.Edge dependent needed →
      ∃ root ∈ recorder.roots, ReflTransGen recorder.Edge root dependent) :
    ∑ᶠ request ∈ recorder.reachable recorder.roots, (recorder.dependenciesOf request).length =
      recorder.edgeCount := by
  let weight := fun request => (recorder.dependenciesOf request).length
  let dependents := recorder.edges.map (·.dependent)
  -- Requests without dependencies do not count, and all others are both reached
  -- and recorded as dependents.
  have sameSupport : recorder.reachable recorder.roots ∩ weight.support =
      ↑dependents.toFinset ∩ weight.support := by
    ext request
    refine and_congr_left fun counts => ?_
    have depends : recorder.dependenciesOf request ≠ [] :=
      fun isLeaf => counts (congrArg List.length isLeaf)
    obtain ⟨needed, edge⟩ := List.exists_mem_of_ne_nil _ depends
    have isDependent : request ∈ dependents := mem_dependents depends
    exact iff_of_true (grounded edge) (by simpa using isDependent)
  calc ∑ᶠ request ∈ recorder.reachable recorder.roots, weight request
      = ∑ᶠ request ∈ (↑dependents.toFinset : Set Request), weight request :=
        finsum_mem_inter_support_eq weight _ _ sameSupport
    _ = recorder.edgesFrom dependents := by
        rw [finsum_mem_coe_finset, List.sum_toFinset _ distinct, edgesFrom]
    _ = recorder.edgeCount := distinct.edgeCount_eq.symm

end Recorder

namespace Program

variable {Request : Type} [DecidableEq Request] {Value : Request → Type} {World : Type}
variable {program : Program Request Value World} {options : Options}
variable {history : List (Event Request Value World)} {session : Session Request Value World}

/-- At every moment of its career, an evaluator has one list of dependencies for a
request. -/
theorem Visits.distinct (visits : Visits program options history session) :
    ∀ recorder, session.evaluator.recorder = some recorder → recorder.Distinct := by
  refine visits.preserves (fun _ session => ∀ recorder, session.evaluator.recorder = some recorder →
    recorder.Distinct) ?_ ?_ ?_
  · intro session observed isFresh recorder recorded
    rw [isFresh, Evaluator.fresh] at recorded
    split at recorded
    · cases recorded
      exact List.nodup_nil
    · cases recorded
  · intro past event before after step distinct recorder recorded
    rw [step.recorder_eq, Option.map_eq_some_iff] at recorded
    obtain ⟨known, isKnown, rfl⟩ := recorded
    unfold Event.recordIn
    split
    · exact distinct known isKnown
    · exact (distinct known isKnown).record _ _
    all_goals exact distinct known isKnown
  · intro past before after sameEvaluator _ distinct
    rwa [sameEvaluator]

end Program

/-- Trees and forests of a recorded graph come to an end and print every edge that
they reach exactly once, whatever the graph is. In the forest of an evaluator these
are all edges that were recorded. -/
theorem Recorder.unfolds_every_edge_once {Request : Type} [DecidableEq Request]
    (recorder : Recorder Request) (display : Request → String) :
    (∀ request, recorder.Unfolds display [request] (recorder.treeLines request)
      (recorder.printTree display request)) ∧
    recorder.Unfolds display recorder.roots recorder.forestLines (recorder.printForest display) ∧
    ∀ {Value : Request → Type} {World : Type} (program : Program Request Value World)
      (options : Options) (history : List (Event Request Value World))
      (session : Session Request Value World),
      program.Visits options history session → options.recordDependencies = true →
      session.evaluator.recorder = some recorder →
        recorder.forestLines.length = recorder.roots.length + recorder.edgeCount := by
  obtain ⟨_, forestShows⟩ := recorder.shows_forestLines
  have forest := forestShows.unfolds display
  refine ⟨fun request => ?_, forest, ?_⟩
  · obtain ⟨_, shows⟩ := recorder.shows_treeLines request
    exact shows.unfolds display
  · intro Value World program options history session visits recording recorded
    obtain ⟨known, chronicle⟩ := visits.chronicle recording
    obtain rfl : known = recorder := Option.some.inj (chronicle.recorded.symm.trans recorded)
    rw [forest.length_eq,
      (visits.distinct known recorded).finsum_eq_edgeCount chronicle.explains.grounded]

/-- After two samples that ask for each other. -/
theorem Recorder.unfolds_every_edge_once_cycleA :
    let program := Fixtures.program []
    let options : Options := { recordDependencies := true }
    let created : Session FixtureRequest FixtureValue FixtureState :=
      { evaluator := .fresh options false, world := {} }
    let after := (program.evaluate 3 (.cycleA 7) created).2
    let recorder : Recorder FixtureRequest :=
      ⟨[.cycleA 7], [⟨.cycleA 7, [.cycleB 7]⟩, ⟨.cycleB 7, [.cycleA 7]⟩]⟩
    (∃ history, program.Visits options history after) ∧ options.recordDependencies = true ∧
      after.evaluator.recorder = some recorder ∧
      recorder.forestLines.length = recorder.roots.length + recorder.edgeCount ∧
      (∀ request ∈ recorder.reachable recorder.roots,
        '\n' ∉ (program.display request).toList) ∧
      Text.linesOf (recorder.printForest program.display).toList =
        ["`--CycleA(7)".toList, "   `--CycleB(7)".toList,
          "      `--CycleA(7) (cyclic dependency)".toList] := by
  intro program options created after recorder
  have evaluates : program.run 3 (Computation.evaluate (.cycleA 7)) created =
      (.failed (.cycle ⟨"CycleA(7)", ["CycleA(7)", "CycleB(7)", "CycleA(7)"]⟩), after) :=
    (Program.run_evaluate program 3 (.cycleA 7) created).trans rfl
  obtain ⟨call, runs⟩ := Program.exists_run_of_run evaluates (by simp)
  have visits : program.Visits options call after := .called rfl runs
  have recorded : after.evaluator.recorder = some recorder := rfl
  obtain ⟨_, forest, counted⟩ := recorder.unfolds_every_edge_once program.display
  have noBreak : ∀ request ∈ recorder.reachable recorder.roots,
      '\n' ∉ (program.display request).toList := by
    intro request isReached
    have shown : ∀ request ∈ recorder.forestLines.map (·.request),
        '\n' ∉ (program.display request).toList := by decide +kernel
    exact shown request ((forest.requests request).mpr isReached)
  exact ⟨⟨_, visits⟩, rfl, recorded, counted program options _ after visits rfl recorded, noBreak,
    (forest.printed noBreak).trans (by decide +kernel)⟩

end RequestEngine
