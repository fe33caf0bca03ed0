import Mathlib.Data.Finset.Card
import Mathlib.Data.Set.Card
import RequestEngine.Fixtures
import RequestEngine.Graph.Batch
import RequestEngine.Proofs.AnalysisProgram
import RequestEngine.Proofs.Possibilities
import RequestEngine.Proofs.StackDiscipline

/-!
Contract: evaluations end when finitely many requests can be reached.

Owns:
- the depths at which computations are decided, from what they may ask for;
- the end of every evaluation that can reach finitely many requests only, and
  how high the stack grows in it;
- the end of the analyses of every graph.

Nothing decreases in the requests themselves: they may ask for each other in
circles, and failures are never kept. What decreases is the number of requests
that can be reached and are not active.

Does not own: the outcomes.
-/

namespace RequestEngine

namespace Program

variable {Request : Type} [DecidableEq Request] {Value : Request → Type} {World : Type} {α : Type}
variable {program : Program Request Value World} {request : Request}
variable {computation : Computation Request Value World α}
variable {session after final : Session Request Value World}
variable {history : List (Event Request Value World)}

/-! ### Depths that are enough -/

theorem concluded_decided {outcome : Outcome (Value request)}
    (decided : outcome ≠ .tooDeep) : (session.concluded program request outcome).1 ≠ .tooDeep := by
  rcases outcome.answered_or_aborted_or_tooDeep with ⟨answer, rfl⟩ | ⟨message, rfl⟩ | rfl
  · rcases Session.concluded_answer program request answer session with
      ⟨left, concludes⟩ | ⟨message, left, concludes⟩
    · simp [concludes]
    · simp [concludes]
  · simp [Session.concluded]
  · exact absurd rfl decided

/-- A computation that is decided from some depth on has one end at all of them. -/
theorem exists_end {least : Nat}
    (decided : ∀ {depth}, least ≤ depth → (program.run depth computation session).1 ≠ .tooDeep) :
    ∃ outcome after, outcome ≠ .tooDeep ∧
      ∀ depth, least ≤ depth → program.run depth computation session = (outcome, after) := by
  rcases first : program.run least computation session with ⟨outcome, after⟩
  have firstDecided := decided (Nat.le_refl least)
  rw [first] at firstDecided
  refine ⟨outcome, after, firstDecided, fun depth enough => ?_⟩
  obtain ⟨_, runs⟩ := exists_run_of_run first firstDecided
  obtain ⟨_, otherRuns⟩ := exists_run_of_run rfl (decided enough)
  obtain ⟨_, rfl, rfl⟩ := runs.unique rfl otherRuns
  rfl

omit [DecidableEq Request] in
/-- How deeply evaluations may nest: what the computation of a request may ask
for has one level less than the request itself. -/
structure Nests (program : Program Request Value World)
    (fits : List Request → Request → Nat → Prop) : Prop where
  positive : ∀ {active request}, ¬ fits active request 0
  deeper : ∀ {active request needed depth}, fits active request (depth + 1) → request ∉ active →
    MayAsk program (program.compute request) needed → fits (active ++ [request]) needed depth

/-- A computation is decided when everything that it may ask for is. -/
private theorem run_decided {active : List Request} {allowed : Request → Prop} {depth : Nat}
    (decided : ∀ {request session}, allowed request → session.evaluator.active = active →
      Warranted program session → (program.evaluate depth request session).1 ≠ .tooDeep)
    (allows : ∀ {needed}, MayAsk program computation needed → allowed needed)
    (isActive : session.evaluator.active = active) (warranted : Warranted program session) :
    (program.run depth computation session).1 ≠ .tooDeep := by
  induction computation generalizing session with
  | done value => simp [run, Computation.run]
  | fail failure => simp [run, Computation.run]
  | abort message => simp [run, Computation.run]
  | ask request resume inductionHypothesis =>
      have evaluationDecided := decided (allows ⟨resume, .refl⟩) isActive warranted
      rcases evaluates : program.evaluate depth request session with ⟨outcome, after⟩
      rw [evaluates] at evaluationDecided
      rcases outcome.answered_or_aborted_or_tooDeep with ⟨answer, rfl⟩ | ⟨message, rfl⟩ | rfl
      · have runs := (run_evaluate program depth request session).trans evaluates
        obtain ⟨_, reaches⟩ := exists_run_of_run runs (by simp)
        have explained := reaches.explained warranted
        have mayAnswer := mayAnswer_of_evaluate (explained.ends answer rfl)
        rw [run_ask_of_answer evaluates]
        exact inductionHypothesis answer
          (fun asks => allows (asks.imp fun _ leads => .ask mayAnswer leads))
          ((active_of_answer runs).trans isActive) explained.warranted
      · rw [run_ask_of_abort evaluates]
        simp
      · exact absurd rfl evaluationDecided
  | activeRequests resume inductionHypothesis =>
      exact inductionHypothesis _
        (fun asks => allows (asks.imp fun _ leads => .activeRequests leads)) isActive warranted
  | isActive request resume inductionHypothesis =>
      exact inductionHypothesis _ (fun asks => allows (asks.imp fun _ leads => .isActive leads))
        isActive warranted
  | isCached request resume inductionHypothesis =>
      unfold run
      rw [Computation.run]
      cases session.evaluator.cache.contains program.kind request with
      | ok holds =>
          exact inductionHypothesis holds
            (fun asks => allows (asks.imp fun _ leads => .isCached leads)) isActive warranted
      | error clash => simp
  | report diagnostic rest inductionHypothesis =>
      exact inductionHypothesis
        (fun asks => allows (asks.imp fun _ leads => .report leads)) isActive (warranted.congr rfl)
  | read resume inductionHypothesis =>
      exact inductionHypothesis _
        (fun asks => allows (asks.imp fun _ leads => .read leads)) isActive warranted
  | update change rest inductionHypothesis =>
      exact inductionHypothesis
        (fun asks => allows (asks.imp fun _ leads => .update leads)) isActive (warranted.congr rfl)

namespace Nests

variable {fits : List Request → Request → Nat → Prop} {depth : Nat}

theorem evaluate_decided (nests : Nests program fits) (warranted : Warranted program session)
    (enough : fits session.evaluator.active request depth) :
    (program.evaluate depth request session).1 ≠ .tooDeep := by
  induction depth generalizing request session with
  | zero => exact absurd enough nests.positive
  | succ depth inductionHypothesis =>
      rw [evaluate_succ]
      rcases receives : session.receive program request with ⟨reception, entered⟩
      cases reception with
      | computing =>
          have notActive := Session.not_active_of_computing receives
          refine concluded_decided (run_decided ?_ (nests.deeper enough notActive)
            (Session.active_of_computing receives) (warranted.entered receives))
          intro nested session fitsNested isActive warranted
          rw [← isActive] at fitsNested
          exact inductionHypothesis warranted fitsNested
      | _ => simp

/-- A computation is decided when the depth is enough for everything that it may
ask for. -/
theorem run_decided (nests : Nests program fits) (warranted : Warranted program session)
    (enough : ∀ {needed}, MayAsk program computation needed →
      fits session.evaluator.active needed depth) :
    (program.run depth computation session).1 ≠ .tooDeep := by
  refine Program.run_decided (fun {request session} fitsHere isActive warranted => ?_) enough rfl
    warranted
  rw [← isActive] at fitsHere
  exact nests.evaluate_decided warranted fitsHere

end Nests

/-! ### Room that is left -/

/-- How many of some requests are not active. -/
def leeway (requests : Finset Request) (active : List Request) : Nat :=
  (requests \ active.toFinset).card

theorem leeway_le_card (requests : Finset Request) (active : List Request) :
    leeway requests active ≤ requests.card :=
  Finset.card_le_card Finset.sdiff_subset

/-- A request that becomes active takes up room. -/
theorem leeway_append_lt {requests : Finset Request} {active : List Request}
    (isOne : request ∈ requests) (notActive : request ∉ active) :
    leeway requests (active ++ [request]) < leeway requests active := by
  refine Finset.card_lt_card ((Finset.ssubset_iff_of_subset ?_).mpr ⟨request, ?_, ?_⟩)
  · intro other
    simp only [Finset.mem_sdiff, List.mem_toFinset, List.mem_append]
    exact fun ⟨isRequest, absent⟩ => ⟨isRequest, fun isActive => absent (.inl isActive)⟩
  · simp [isOne, notActive]
  · simp

/-! ### Finitely many requests -/

/-- What is opened in a history is taken up in it. -/
theorem mem_of_unfinished {outer opened : List Request}
    (tracks : unfinished outer history = some opened) (isOpen : request ∈ opened) :
    request ∈ outer ∨ ∃ reception, .received request reception ∈ history := by
  induction history generalizing outer with
  | nil =>
      cases tracks
      exact .inl isOpen
  | cons event later inductionHypothesis =>
      rw [unfinished_cons] at tracks
      obtain ⟨middle, trackEvent, trackLater⟩ := Option.bind_eq_some_iff.mp tracks
      rcases inductionHypothesis trackLater with inMiddle | ⟨reception, happened⟩
      case inr => exact .inr ⟨reception, List.mem_cons_of_mem _ happened⟩
      cases event with
      | received other reception =>
          cases reception with
          | computing =>
              cases trackEvent
              rcases List.mem_append.mp inMiddle with inOuter | isOther
              · exact .inl inOuter
              · obtain rfl := List.mem_singleton.mp isOther
                exact .inr ⟨.computing, List.mem_cons_self⟩
          | _ =>
              cases trackEvent
              exact .inl inMiddle
      | finished other answer =>
          rw [Event.track] at trackEvent
          split at trackEvent
          case isTrue =>
            cases trackEvent
            exact .inl ((List.dropLast_sublist _).subset inMiddle)
          case isFalse => cases trackEvent
      | _ =>
          cases trackEvent
          exact .inl inMiddle

/-- The evaluation of a request ends, and never adds more than some levels to
the stack. -/
structure EndsWithin (program : Program Request Value World) (session : Session Request Value World)
    (request : Request) (levels : Nat) : Prop where
  /-- There is one end, and every greater depth is enough for it. -/
  ends : ∃ outcome after, outcome ≠ .tooDeep ∧
    ∀ depth, levels < depth → program.evaluate depth request session = (outcome, after)
  /-- At every moment, the stack is at most so much higher than before. -/
  shallow : ∀ {history ended moment},
    Run program (Computation.evaluate request) session history ended moment →
    moment.evaluator.active.length ≤ session.evaluator.active.length + levels

section Finite

variable {permitted : World → World → Prop}

/-- The requests that are reached and not active bound the depth. -/
theorem nests_of_finite (finite : {needed | Reaches program request needed}.Finite) :
    Nests program fun active needed depth =>
      Reaches program request needed ∧ leeway finite.toFinset active < depth where
  positive := fun fits => Nat.not_lt_zero _ fits.2
  deeper := by
    rintro active upper needed depth ⟨reaches, enough⟩ notActive asks
    have fewer := leeway_append_lt (finite.mem_toFinset.mpr reaches) notActive
    exact ⟨Relation.ReflTransGen.tail reaches asks, by omega⟩

private theorem length_active_le (reached : Reached program permitted history session)
    (finite : {needed | Reaches program request needed}.Finite)
    {call : List (Event Request Value World)} {ended : Option (Outcome (Value request))}
    (runs : Run program (Computation.evaluate request) session call ended final) :
    final.evaluator.active.length ≤
      session.evaluator.active.length + {needed | Reaches program request needed}.ncard := by
  obtain ⟨opened, tracks, active, _⟩ := runs.nests
  have distinct := runs.steps.nodup_active reached.nodup_active
  rw [active] at distinct
  have distinctOpened := (List.nodup_append.mp distinct).2.1
  have isReached : ∀ other ∈ opened, Reaches program request other := by
    intro other isOpen
    rcases mem_of_unfinished (tracks []) isOpen with isOuter | ⟨reception, happened⟩
    · cases isOuter
    · obtain ⟨needed, asks, reaches⟩ :=
        (runs.explained reached.warranted).received other reception happened
      rwa [mayAsk_evaluate.mp asks] at reaches
  have fewer : (opened.toFinset : Set Request).ncard ≤
      {needed | Reaches program request needed}.ncard :=
    Set.ncard_le_ncard (fun other isOpen => isReached other (by simpa using isOpen)) finite
  rw [Set.ncard_coe_finset, List.toFinset_card_of_nodup distinctOpened] at fewer
  rw [active, List.length_append]
  omega

theorem Reached.endsWithin (reached : Reached program permitted history session)
    (finite : {needed | Reaches program request needed}.Finite) :
    EndsWithin program session request {needed | Reaches program request needed}.ncard where
  ends := by
    have decided : ∀ {depth}, {needed | Reaches program request needed}.ncard + 1 ≤ depth →
        (program.run depth (Computation.evaluate request) session).1 ≠ .tooDeep := by
      intro depth enough
      rw [run_evaluate]
      refine (nests_of_finite finite).evaluate_decided reached.warranted ⟨.refl, ?_⟩
      have fewer := leeway_le_card finite.toFinset session.evaluator.active
      rw [← Set.ncard_eq_toFinset_card _ finite] at fewer
      omega
    obtain ⟨outcome, after, isDecided, ends⟩ := exists_end decided
    refine ⟨outcome, after, isDecided, fun depth enough => ?_⟩
    rw [← run_evaluate]
    exact ends depth enough
  shallow := length_active_le reached finite

end Finite

end Program

/-! ### The analyses of a graph -/

namespace Analysis

open Program

variable {graph : Graph} {question : String → AnalysisRequest} {name : String} {α : Type}
variable {needed : AnalysisRequest}
variable {add : α → {name : String} → AnalysisValue (question name) → AnalysisComputation α}

private theorem mayAsk_visit {found : α} {names : List String}
    (addsOnly : ∀ found {name} (answer : AnalysisValue (question name)) needed,
      ¬ MayAsk (program graph) (add found answer) needed)
    (asks : MayAsk (program graph) (visit question add found names) needed) :
    ∃ name, needed = question name := by
  induction names generalizing found with
  | nil =>
      obtain ⟨resume, leads⟩ := asks
      cases leads
  | cons name rest inductionHypothesis =>
      rcases mayAsk_bind asks with first | ⟨answer, _, asksLater⟩
      · exact ⟨name, mayAsk_evaluate.mp first⟩
      · rcases mayAsk_bind asksLater with adds | ⟨next, _, asksLast⟩
        · exact absurd adds (addsOnly found answer needed)
        · exact inductionHypothesis asksLast

/-- A name is looked up to its declaration. -/
private theorem find?_of_mayAnswer {declaration : Declaration}
    (answers : MayAnswer (program graph) (.lookup name) (.ok declaration)) :
    graph.find? name = some declaration := by
  cases answers with
  | stored stores => cases stores
  | computed ends =>
      change LeadsTo (program graph) (compute graph (.lookup name)) (.done declaration) at ends
      rw [compute] at ends
      split at ends
      case h_1 found =>
        cases ends
        exact found
      case h_2 => cases ends

/-- Examining a name asks for its declaration, and goes on only if there is one. -/
private theorem mayAsk_examine {start : Declaration → α}
    (addsOnly : ∀ found {name} (answer : AnalysisValue (question name)) needed,
      ¬ MayAsk (program graph) (add found answer) needed)
    (asks : MayAsk (program graph) (examine question add start name) needed) :
    needed = .lookup name ∨
      ∃ declaration other, graph.find? name = some declaration ∧ needed = question other := by
  rcases mayAsk_bind asks with first | ⟨declaration, finds, asksLater⟩
  · exact .inl (mayAsk_evaluate.mp first)
  · obtain ⟨other, isQuestion⟩ := mayAsk_visit addsOnly asksLater
    have ends : LeadsTo (program graph) (Computation.evaluate (.lookup name))
        (.ofAnswer (.ok declaration)) := finds
    exact .inr ⟨declaration, other, find?_of_mayAnswer (mayAnswer_of_evaluate ends), isQuestion⟩

/-- A question about every declared name. -/
def questions (graph : Graph) (question : String → AnalysisRequest) : Finset AnalysisRequest :=
  (graph.declarations.map fun declaration => question declaration.name).toFinset

/-- The depth is enough for a request, whatever is active: one level for every
question about a declared name that is not active, one for a name that is not
declared, and one for looking a name up. -/
def Suffices (graph : Graph) (active : List AnalysisRequest) (request : AnalysisRequest)
    (depth : Nat) : Prop :=
  match request with
  | .lookup _ => 0 < depth
  | .totalWeight _ => leeway (questions graph .totalWeight) active + 2 ≤ depth
  | .dependencyDepth _ => leeway (questions graph .dependencyDepth) active + 2 ≤ depth

theorem leeway_questions_le (graph : Graph) (question : String → AnalysisRequest)
    (active : List AnalysisRequest) :
    leeway (questions graph question) active ≤ graph.declarations.length := by
  have distinct := List.toFinset_card_le
    (graph.declarations.map fun declaration => question declaration.name)
  rw [List.length_map] at distinct
  exact (leeway_le_card _ _).trans distinct

/-- When a question about a declared name becomes active, there is one less. -/
private theorem leeway_questions_lt {active : List AnalysisRequest} {declaration : Declaration}
    (found : graph.find? name = some declaration) (notActive : question name ∉ active) :
    leeway (questions graph question) (active ++ [question name]) <
      leeway (questions graph question) active := by
  refine leeway_append_lt ?_ notActive
  rw [questions, List.mem_toFinset, List.mem_map]
  exact ⟨declaration, List.mem_of_find?_eq_some found, by rw [Graph.name_of_find? found]⟩

/-- What examining a name may ask for has one level less. -/
private theorem suffices_examine {start : Declaration → α} {active : List AnalysisRequest}
    {depth : Nat}
    (addsOnly : ∀ found {name} (answer : AnalysisValue (question name)) needed,
      ¬ MayAsk (program graph) (add found answer) needed)
    (room : leeway (questions graph question) active + 2 ≤ depth + 1)
    (notActive : question name ∉ active)
    (asks : MayAsk (program graph) (examine question add start name) needed) :
    (needed = .lookup name ∧ 0 < depth) ∨
      ∃ other, needed = question other ∧
        leeway (questions graph question) (active ++ [question name]) + 2 ≤ depth := by
  rcases mayAsk_examine addsOnly asks with isLookup | ⟨declaration, other, found, isQuestion⟩
  · exact .inl ⟨isLookup, by omega⟩
  · have fewer := leeway_questions_lt found notActive
    exact .inr ⟨other, isQuestion, by omega⟩

theorem nests (graph : Graph) : Nests (program graph) (Suffices graph) where
  positive := by
    intro active request enough
    cases request with
    | lookup name => exact Nat.lt_irrefl 0 enough
    | totalWeight name => exact Nat.not_succ_le_zero _ enough
    | dependencyDepth name => exact Nat.not_succ_le_zero _ enough
  deeper := by
    intro active request needed depth enough notActive asks
    cases request with
    | lookup name =>
        obtain ⟨resume, leads⟩ := asks
        change LeadsTo (program graph) (compute graph (.lookup name)) _ at leads
        rw [compute] at leads
        split at leads <;> cases leads
    | totalWeight name =>
        change MayAsk (program graph) (compute graph (.totalWeight name)) needed at asks
        rw [compute_totalWeight] at asks
        have addsOnly : ∀ total weight needed,
            ¬ MayAsk (program graph) (addWeight total weight) needed := by
          rintro total weight needed ⟨resume, leads⟩
          cases leads
        rcases suffices_examine (fun total _ => addsOnly total) enough notActive asks with
          ⟨rfl, positive⟩ | ⟨other, rfl, room⟩
        · exact positive
        · exact room
    | dependencyDepth name =>
        change MayAsk (program graph) (compute graph (.dependencyDepth name)) needed at asks
        rw [compute_dependencyDepth] at asks
        have addsOnly : ∀ depth below needed,
            ¬ MayAsk (program graph) (addDepth depth below) needed := by
          rintro depth below needed ⟨resume, leads⟩
          rw [addDepth] at leads
          split at leads <;> cases leads
        rcases suffices_examine (fun depth _ => addsOnly depth) enough notActive asks with
          ⟨rfl, positive⟩ | ⟨other, rfl, room⟩
        · exact positive
        · exact room

private theorem mayAsk_describe {declaration : Declaration}
    (asks : MayAsk (program graph) (describe declaration) needed) :
    needed = .totalWeight declaration.name ∨ needed = .dependencyDepth declaration.name := by
  have noneBehind : ∀ failure,
      ¬ MayAsk (program graph) (withoutResult declaration failure) needed := by
    rintro failure ⟨resume, leads⟩
    cases failure with
    | cycle error => cases leads
    | computation error =>
        cases leads with
        | report resumes => cases resumes
  obtain ⟨resume, leads⟩ := asks
  cases leads with
  | refl => exact .inl rfl
  | @ask _ _ weight _ _ _ resumes =>
      cases weight with
      | error failure => exact absurd ⟨resume, resumes⟩ (noneBehind failure)
      | ok weight =>
          cases resumes with
          | refl => exact .inr rfl
          | @ask _ _ depth _ _ _ resumes =>
              cases depth with
              | error failure => exact absurd ⟨resume, resumes⟩ (noneBehind failure)
              | ok depth => cases resumes

private theorem mayAsk_describeAll {declarations : List Declaration}
    (asks : MayAsk (program graph) (describeAll declarations) needed) :
    ∃ name, needed = .totalWeight name ∨ needed = .dependencyDepth name := by
  induction declarations with
  | nil =>
      obtain ⟨resume, leads⟩ := asks
      cases leads
  | cons declaration rest inductionHypothesis =>
      rcases mayAsk_bind asks with first | ⟨line, _, asksLater⟩
      · exact ⟨declaration.name, mayAsk_describe first⟩
      · rcases mayAsk_bind asksLater with later | ⟨lines, _, ⟨resume, leads⟩⟩
        · exact inductionHypothesis later
        · cases leads

/-- The analysis of a graph ends in every session that an evaluator reaches, and
no depth beyond its bound makes a difference. -/
theorem exists_end_analyze {permitted : DepthCells → DepthCells → Prop}
    {history : List (Event AnalysisRequest AnalysisValue DepthCells)} {session : AnalysisSession}
    (reached : Reached (program graph) permitted history session) :
    ∃ outcome after, outcome ≠ .tooDeep ∧ ∀ depth, depthBound graph ≤ depth →
      (program graph).run depth (analyze graph) session = (outcome, after) := by
  refine exists_end fun {depth} enough => ?_
  refine (nests graph).run_decided reached.warranted fun {needed} asks => ?_
  unfold depthBound at enough
  obtain ⟨name, rfl | rfl⟩ := mayAsk_describeAll asks
  · show leeway (questions graph .totalWeight) session.evaluator.active + 2 ≤ depth
    have fewer := leeway_questions_le graph .totalWeight session.evaluator.active
    omega
  · show leeway (questions graph .dependencyDepth) session.evaluator.active + 2 ≤ depth
    have fewer := leeway_questions_le graph .dependencyDepth session.evaluator.active
    omega

end Analysis

/-- Evaluations that can reach finitely many requests end, in every session that
an evaluator reaches and whatever others do to the state of the program. So does
the analysis of every graph, within its bound. -/
theorem Program.evaluations_end :
    (∀ {Request : Type} [DecidableEq Request] {Value : Request → Type} {World : Type}
      (program : Program Request Value World) (permitted : World → World → Prop)
      (history : List (Event Request Value World)) (session : Session Request Value World)
      (request : Request), Reached program permitted history session →
      {needed | Reaches program request needed}.Finite →
      EndsWithin program session request {needed | Reaches program request needed}.ncard) ∧
    ∀ (graph : Graph) (permitted : DepthCells → DepthCells → Prop)
      (history : List (Event AnalysisRequest AnalysisValue DepthCells)) (session : AnalysisSession),
      Reached (Analysis.program graph) permitted history session →
      ∃ outcome after, outcome ≠ .tooDeep ∧ Analysis.run graph session = (outcome, after) ∧
        ∀ depth, Analysis.depthBound graph ≤ depth →
          (Analysis.program graph).run depth (Analysis.analyze graph) session =
            (outcome, after) := by
  constructor
  · intro Request _ Value World program permitted history session request reached finite
    exact reached.endsWithin finite
  · intro graph permitted history session reached
    obtain ⟨outcome, after, decided, ends⟩ := Analysis.exists_end_analyze reached
    exact ⟨outcome, after, decided, ends _ (Nat.le_refl _), ends⟩

namespace Fixtures

/-- Two samples with the same number ask for each other, and for nothing else. -/
theorem reaches_cycleA {forest : List TreeNode} {number : UInt32} {needed : FixtureRequest} :
    Program.Reaches (program forest) (.cycleA number) needed ↔
      needed = .cycleA number ∨ needed = .cycleB number := by
  constructor
  · intro reaches
    induction reaches with
    | refl => exact .inl rfl
    | tail _ asks inductionHypothesis =>
        rcases inductionHypothesis with rfl | rfl
        · exact .inr (Program.mayAsk_evaluate.mp asks)
        · exact .inl (Program.mayAsk_evaluate.mp asks)
  · rintro (rfl | rfl)
    · exact Relation.ReflTransGen.refl
    · exact Relation.ReflTransGen.single (Program.mayAsk_evaluate.mpr rfl)

end Fixtures

/-- Two samples that ask for each other never take more than two levels. -/
theorem Program.evaluations_end_cycleA :
    ∃ session : Session FixtureRequest FixtureValue FixtureState,
      Reached (Fixtures.program []) (fun _ _ => True) [] session ∧
      EndsWithin (Fixtures.program []) session (.cycleA 7) 2 := by
  let created : Session FixtureRequest FixtureValue FixtureState :=
    { evaluator := .fresh {} false, world := {} }
  have reached : Reached (Fixtures.program []) (fun _ _ => True) [] created :=
    .created rfl
  have both : {needed | Reaches (Fixtures.program []) (.cycleA 7) needed} =
      {.cycleA 7, .cycleB 7} :=
    Set.ext fun needed => Fixtures.reaches_cycleA
  have finite : {needed | Reaches (Fixtures.program []) (.cycleA 7) needed}.Finite := by
    rw [both]
    exact Set.toFinite _
  have ends := evaluations_end.1 (Fixtures.program []) _ [] created (.cycleA 7) reached finite
  rw [both, Set.ncard_pair (by simp)] at ends
  exact ⟨created, reached, ends⟩

end RequestEngine
