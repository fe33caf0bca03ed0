import RequestEngine.Graph.Analysis
import RequestEngine.Proofs.Trust

/-!
Contract: the analyses of a graph as a program that caching may be used for.

Owns:
- the form that the two recursive analyses share: looking a name up, and asking
  the same question about everything that it depends on;
- that the analyses pass cycle errors on and look at nothing else;
- the storage of depths on the declarations;
- the zone and the identities of the analyses.

Does not own: what the analyses answer.
-/

namespace RequestEngine

namespace Analysis

variable (graph : Graph)

/-- Asks a question about one name after the other, and adds each answer to what
has been found so far. -/
def visit {α : Type} (question : String → AnalysisRequest)
    (add : α → {name : String} → AnalysisValue (question name) → AnalysisComputation α)
    (found : α) : List String → AnalysisComputation α
  | [] => .done found
  | name :: rest =>
      (Computation.evaluate (question name)).bind fun answer =>
        (add found answer).bind fun next => visit question add next rest

/-- Looks a name up, and asks a question about everything that it depends on. -/
def examine {α : Type} (question : String → AnalysisRequest)
    (add : α → {name : String} → AnalysisValue (question name) → AnalysisComputation α)
    (start : Declaration → α) (name : String) : AnalysisComputation α :=
  (Computation.evaluate (AnalysisRequest.lookup name)).bind fun declaration =>
    visit question add (start declaration) declaration.dependsOn

def addWeight (total : UInt64) (weight : UInt64) : AnalysisComputation UInt64 :=
  .done (saturatingSum total weight)

/-- Raises a depth above another one, if that fits into a word. -/
def addDepth (depth : UInt32) (below : UInt32) : AnalysisComputation UInt32 :=
  if below.toNat + 1 < 4294967296 then .done (max depth (below + 1))
  else .abort "attempt to add with overflow"

theorem sumWeights_eq (total : UInt64) (names : List String) :
    sumWeights total names = visit .totalWeight (fun total _ weight => addWeight total weight)
      total names := by
  induction names generalizing total with
  | nil => rfl
  | cons name rest inductionHypothesis =>
      rw [sumWeights, visit]
      congr 1
      funext weight
      exact inductionHypothesis _

theorem raiseDepth_eq (depth : UInt32) (names : List String) :
    raiseDepth depth names = visit .dependencyDepth (fun depth _ below => addDepth depth below)
      depth names := by
  induction names generalizing depth with
  | nil => rfl
  | cons name rest inductionHypothesis =>
      rw [raiseDepth, visit]
      congr 1
      funext below
      unfold addDepth
      by_cases fits : below.toNat + 1 < 4294967296
      · rw [if_pos fits, if_pos fits]
        exact inductionHypothesis _
      · rw [if_neg fits, if_neg fits]
        rfl

/-- The total weight of a name is found by examining it. -/
theorem compute_totalWeight (name : String) :
    compute graph (.totalWeight name) =
      examine .totalWeight (fun total _ weight => addWeight total weight) (·.weight) name := by
  rw [compute, examine]
  congr 1
  funext declaration
  exact sumWeights_eq _ _

theorem compute_dependencyDepth (name : String) :
    compute graph (.dependencyDepth name) =
      examine .dependencyDepth (fun depth _ below => addDepth depth below) (fun _ => 0) name := by
  rw [compute, examine]
  congr 1
  funext declaration
  exact raiseDepth_eq _ _

section Visit

variable {α : Type} {question : String → AnalysisRequest}
variable {add : α → {name : String} → AnalysisValue (question name) → AnalysisComputation α}

private theorem oblivious_visit {found : α} {names : List String}
    (addOblivious : ∀ found {name} (answer : AnalysisValue (question name)),
      (add found answer).Oblivious (program graph)) :
    (visit question add found names).Oblivious (program graph) := by
  induction names generalizing found with
  | nil => exact trivial
  | cons name rest inductionHypothesis =>
      refine (Program.oblivious_evaluate _ _).bind fun answer => ?_
      exact (addOblivious found answer).bind fun next => inductionHypothesis

private theorem oblivious_examine {start : Declaration → α} {name : String}
    (addOblivious : ∀ found {name} (answer : AnalysisValue (question name)),
      (add found answer).Oblivious (program graph)) :
    (examine question add start name).Oblivious (program graph) :=
  (Program.oblivious_evaluate _ _).bind fun _ => oblivious_visit graph addOblivious

end Visit

theorem oblivious_compute (request : AnalysisRequest) :
    ((program graph).compute request).Oblivious (program graph) := by
  cases request with
  | lookup name =>
      show (compute graph (.lookup name)).Oblivious (program graph)
      simp only [compute]
      split <;> exact trivial
  | totalWeight name =>
      show (compute graph (.totalWeight name)).Oblivious (program graph)
      rw [compute_totalWeight]
      exact oblivious_examine graph fun _ _ _ => trivial
  | dependencyDepth name =>
      show (compute graph (.dependencyDepth name)).Oblivious (program graph)
      rw [compute_dependencyDepth]
      refine oblivious_examine graph fun depth _ below => ?_
      unfold addDepth
      split <;> exact trivial

theorem zone_kind (request : AnalysisRequest) :
    ((program graph).kind request).zone = analysisZone := by
  cases request <;> rfl

theorem zonesDeclared : (program graph).ZonesDeclared := by
  intro left right _
  rw [zone_kind, zone_kind]

/-- The three kinds of questions have identities of their own. -/
theorem distinctIdentities : (program graph).DistinctIdentities := by
  let kinds := [AnalysisRequest.kind (.lookup ""), AnalysisRequest.kind (.totalWeight ""),
    AnalysisRequest.kind (.dependencyDepth "")]
  have listed : ∀ request : AnalysisRequest, request.kind ∈ kinds := by
    intro request
    cases request <;> simp [kinds, AnalysisRequest.kind]
  have distinct : ∀ left ∈ kinds, ∀ right ∈ kinds, left.identity = right.identity →
      left = right := by decide
  exact fun left right => distinct _ (listed left) _ (listed right)

theorem storedOutside_nil (request : AnalysisRequest) :
    (program graph).storedOutside [] request = none := by
  cases request with
  | dependencyDepth name =>
      show (if (graph.find? name).isSome then none else none) = none
      split <;> rfl
  | _ => rfl

/-- Declarations give back the depths that were kept on them. -/
theorem honestStorage : (program graph).HonestStorage := by
  intro world request value other found stored
  cases request with
  | lookup name => exact .inl stored
  | totalWeight name => exact .inl stored
  | dependencyDepth name =>
      cases other with
      | lookup otherName => cases stored
      | totalWeight otherName => cases stored
      | dependencyDepth otherName =>
          change (if (graph.find? otherName).isSome then
            (store graph world (.dependencyDepth name) value).depth? otherName else none) =
              some found at stored
          change (if (graph.find? otherName).isSome then world.depth? otherName else none) =
              some found ∨ _
          split at stored
          case isFalse => cases stored
          case isTrue declared =>
            rw [if_pos declared]
            unfold store at stored
            simp only at stored
            split at stored
            case isFalse => exact .inl stored
            case isTrue =>
              rw [DepthCells.depth?_keep] at stored
              split at stored
              case isFalse => exact .inl stored
              case isTrue same =>
                subst same
                cases kept : world.depth? otherName with
                | some depth =>
                    rw [kept] at stored
                    exact .inl stored
                | none =>
                    rw [kept] at stored
                    cases stored
                    exact .inr rfl

end Analysis

end RequestEngine
