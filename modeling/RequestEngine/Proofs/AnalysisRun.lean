import Mathlib.Data.List.Perm.Subperm
import RequestEngine.Graph.Batch
import RequestEngine.Proofs.AnalysisMeaning
import RequestEngine.Proofs.Termination

/-!
Contract: the analyses of a graph are always answered.

Owns:
- how deeply their evaluations nest: the active questions are different questions
  of one kind about declared names, so there are not more of them than declarations;
- one line for every declaration, with the values that its questions settle on.

Does not own: what the values are.
-/

namespace RequestEngine

namespace Analysis

open Program

variable (graph : Graph)

/-- The active questions are of one kind and about declared names, and the depth
is enough for all further ones. The last two levels are for a name that is not
declared and for looking it up. -/
structure Room (question : String → AnalysisRequest) (active : List AnalysisRequest)
    (depth : Nat) : Prop where
  distinct : active.Nodup
  declared : active ⊆ graph.declarations.map fun declaration => question declaration.name
  enough : graph.declarations.length + 2 ≤ active.length + depth

/-- The depth is enough for a question. -/
def Fits (active : List AnalysisRequest) (request : AnalysisRequest) (depth : Nat) : Prop :=
  match request with
  | .lookup _ => 0 < depth
  | .totalWeight _ => Room graph .totalWeight active depth
  | .dependencyDepth _ => Room graph .dependencyDepth active depth

variable {graph} {question : String → AnalysisRequest} {active : List AnalysisRequest}
variable {depth : Nat} {name : String}

theorem Room.two_le (room : Room graph question active depth) : 2 ≤ depth := by
  -- Different questions about declared names are at most as many as declarations.
  have fewer := (List.subperm_of_subset room.distinct room.declared).length_le
  rw [List.length_map] at fewer
  have enough := room.enough
  omega

/-- When the computation of a question about a declared name begins, there is
still room. -/
theorem Room.pushed (room : Room graph question active (depth + 1))
    (notActive : question name ∉ active) {declaration : Declaration}
    (found : graph.find? name = some declaration) :
    Room graph question (active ++ [question name]) depth where
  distinct := List.nodup_append.mpr ⟨room.distinct, List.nodup_singleton _, by
    rintro other isActive _ isLast rfl
    rw [List.mem_singleton.mp isLast] at isActive
    exact notActive isActive⟩
  declared := by
    refine List.append_subset.mpr ⟨room.declared, ?_⟩
    rintro other isLast
    rw [List.mem_singleton.mp isLast, ← Graph.name_of_find? found]
    exact List.mem_map.mpr ⟨declaration, List.mem_of_find?_eq_some found, rfl⟩
  enough := by
    have enough := room.enough
    rw [List.length_append, List.length_singleton]
    omega

/-! ### Nesting -/

section Examine

variable {α : Type} {allowed : AnalysisRequest → Prop}
variable {add : α → {name : String} → AnalysisValue (question name) → AnalysisComputation α}

private theorem confined_visit {found : α} {names : List String}
    (asks : ∀ needed ∈ names, allowed (question needed))
    (adds : ∀ found {needed} (answer : AnalysisValue (question needed)),
      Settles (program graph) ((program graph).compute (question needed)) (.ok answer) →
      (add found answer).Confined (program graph) allowed) :
    (visit question add found names).Confined (program graph) allowed := by
  induction names generalizing found with
  | nil => exact trivial
  | cons name rest inductionHypothesis =>
      have allowedNow := asks name List.mem_cons_self
      refine Computation.confined_evaluate_bind allowedNow fun answer settles => ?_
      refine (adds found answer settles).bind fun next => ?_
      exact inductionHypothesis fun needed inRest => asks needed (List.mem_cons_of_mem _ inRest)

private theorem confined_examine {start : Declaration → α} (looksUp : allowed (.lookup name))
    (asks : ∀ declaration, graph.find? name = some declaration →
      ∀ needed, allowed (question needed))
    (adds : ∀ found {needed} (answer : AnalysisValue (question needed)),
      Settles (program graph) ((program graph).compute (question needed)) (.ok answer) →
      (add found answer).Confined (program graph) allowed) :
    (examine question add start name).Confined (program graph) allowed := by
  refine Computation.confined_evaluate_bind looksUp fun declaration settles => ?_
  exact confined_visit (fun needed _ => asks declaration (settles_lookup.mp settles) needed) adds

end Examine

/-- The evaluations of the analyses nest at most as deeply as there is room. -/
theorem bounded (few : graph.declarations.length < 4294967296) :
    Bounded (program graph) (Fits graph) where
  positive := by
    intro active request enough
    cases request with
    | lookup name => exact Nat.lt_irrefl 0 enough
    | totalWeight name =>
        have room : Room graph .totalWeight active 0 := enough
        have twoLevels := room.two_le
        omega
    | dependencyDepth name =>
        have room : Room graph .dependencyDepth active 0 := enough
        have twoLevels := room.two_le
        omega
  nested := by
    intro active request depth enough notActive
    cases request with
    | lookup name =>
        show (compute graph (.lookup name)).Confined (program graph) _
        unfold compute
        simp only
        split <;> exact trivial
    | totalWeight name =>
        have room : Room graph .totalWeight active (depth + 1) := enough
        show (compute graph (.totalWeight name)).Confined (program graph) _
        rw [compute_totalWeight]
        refine confined_examine (Nat.le_of_lt_succ room.two_le)
          (fun declaration found _ => room.pushed notActive found) ?_
        exact fun _ _ _ _ => trivial
    | dependencyDepth name =>
        have room : Room graph .dependencyDepth active (depth + 1) := enough
        show (compute graph (.dependencyDepth name)).Confined (program graph) _
        rw [compute_dependencyDepth]
        refine confined_examine (Nat.le_of_lt_succ room.two_le)
          (fun declaration found _ => room.pushed notActive found) ?_
        intro found needed below settles
        rw [addDepth, if_pos (depth_fits_of_settles few settles)]
        exact trivial

/-! ### Lines -/

variable {session : AnalysisSession} {larger : Registry} {declaration : Declaration}

/-- A line shows the values that the questions about a declaration settle on, if
both settle on one. -/
structure Shows (graph : Graph) (declaration : Declaration) (line : Line) : Prop where
  name_eq : line.name = declaration.name
  result_iff : ∀ weight depth, line.result = some (weight, depth) ↔
    Settles (program graph) ((program graph).compute (.totalWeight declaration.name))
        (.ok weight) ∧
      Settles (program graph) ((program graph).compute (.dependencyDepth declaration.name))
        (.ok depth)

/-- Between evaluations, every question is answered, with exactly the value that
it settles on. -/
theorem evaluates (few : graph.declarations.length < 4294967296)
    (holds : larger.Holds analysisZone) (idle : Idle (program graph) larger session)
    (request : AnalysisRequest) :
    ∃ answer after,
      (program graph).evaluate (depthBound graph) request session = (.ofAnswer answer, after) ∧
      Idle (program graph) larger after ∧
      ∀ value, answer = .ok value ↔
        Settles (program graph) ((program graph).compute request) (.ok value) := by
  have allHeld : ∀ request, larger.Holds ((program graph).kind request).zone := by
    intro request
    rw [zone_kind]
    exact holds
  have enough : Fits graph [] request (depthBound graph) := by
    cases request with
    | lookup name => exact Nat.succ_pos _
    | totalWeight name => exact ⟨.nil, List.nil_subset _, (Nat.zero_add _).ge⟩
    | dependencyDepth name => exact ⟨.nil, List.nil_subset _, (Nat.zero_add _).ge⟩
  exact idle.evaluates (oblivious_compute graph) (honestStorage graph) (zonesDeclared graph) allHeld
    (bounded few) (distinctIdentities graph) enough

private theorem run_withoutResult (depth : Nat) (declaration : Declaration) (failure : Failure)
    (idle : Idle (program graph) larger session) :
    ∃ after, (program graph).run depth (withoutResult declaration failure) session =
        (.success ⟨declaration.name, none⟩, after) ∧ Idle (program graph) larger after := by
  cases failure with
  | cycle error => exact ⟨session, rfl, idle⟩
  | computation error => exact ⟨_, rfl, idle.noneActive, idle.trusted.reported _, idle.below⟩

/-- A declaration gets a line that shows what its questions settle on. -/
theorem run_describe (few : graph.declarations.length < 4294967296)
    (holds : larger.Holds analysisZone) (idle : Idle (program graph) larger session)
    (declaration : Declaration) :
    ∃ line after, (program graph).run (depthBound graph) (describe declaration) session =
        (.success line, after) ∧ Idle (program graph) larger after ∧
      Shows graph declaration line := by
  obtain ⟨weighed, middle, evaluatesWeight, middleIdle, weight_iff⟩ :=
    evaluates few holds idle (.totalWeight declaration.name)
  rw [describe, run_ask_of_answer evaluatesWeight]
  cases weighed with
  | error failure =>
      obtain ⟨after, runs, afterIdle⟩ :=
        run_withoutResult (depthBound graph) declaration failure middleIdle
      refine ⟨_, after, runs, afterIdle, rfl, fun weight depth => ?_⟩
      simp [← weight_iff]
  | ok weight =>
      obtain ⟨measured, last, evaluatesDepth, lastIdle, depth_iff⟩ :=
        evaluates few holds middleIdle (.dependencyDepth declaration.name)
      simp only
      rw [run_ask_of_answer evaluatesDepth]
      cases measured with
      | error failure =>
          obtain ⟨after, runs, afterIdle⟩ :=
            run_withoutResult (depthBound graph) declaration failure lastIdle
          refine ⟨_, after, runs, afterIdle, rfl, fun weight depth => ?_⟩
          simp [← depth_iff]
      | ok depth =>
          refine ⟨_, last, rfl, lastIdle, rfl, fun otherWeight otherDepth => ?_⟩
          simp [← weight_iff, ← depth_iff]

theorem run_describeAll (few : graph.declarations.length < 4294967296)
    (holds : larger.Holds analysisZone) (idle : Idle (program graph) larger session)
    (declarations : List Declaration) :
    ∃ lines after, (program graph).run (depthBound graph) (describeAll declarations) session =
        (.success lines, after) ∧ Idle (program graph) larger after ∧
      List.Forall₂ (Shows graph) declarations lines := by
  induction declarations generalizing session with
  | nil => exact ⟨[], session, rfl, idle, .nil⟩
  | cons declaration rest inductionHypothesis =>
      obtain ⟨line, middle, describes, middleIdle, shows⟩ :=
        run_describe few holds idle declaration
      obtain ⟨lines, after, describesRest, afterIdle, showsRest⟩ := inductionHypothesis middleIdle
      refine ⟨line :: lines, after, ?_, afterIdle, .cons shows showsRest⟩
      rw [describeAll, run_bind_of_success describes, run_bind_of_success describesRest]
      rfl

/-- A session in which an analysis begins: nothing has been evaluated, no depth is
kept on a declaration, and no other zone has the id of the analyses. -/
structure Fresh (session : AnalysisSession) : Prop where
  evaluator : ∃ options observed, session.evaluator = .fresh options observed
  noDepths : session.world = []
  admits : session.registry.Admits analysisZone

/-- A fresh session is between evaluations, whatever graph is analyzed. -/
theorem Fresh.exists_idle (fresh : Fresh session) (graph : Graph) :
    ∃ larger : Registry, larger.Holds analysisZone ∧ Idle (program graph) larger session := by
  obtain ⟨larger, below, holds⟩ := fresh.admits.exists_holds
  obtain ⟨options, observed, isFresh⟩ := fresh.evaluator
  have trusted : Trusted (program graph) session := .of_fresh isFresh fun request => by
    rw [fresh.noDepths]
    exact storedOutside_nil graph request
  have noneActive : session.evaluator.active = [] := by
    rw [isFresh]
    rfl
  exact ⟨larger, holds, noneActive, trusted, below⟩

/-- The analysis of a graph ends with a line for every declaration, in file order,
and another graph can be analyzed next. -/
theorem Fresh.run (fresh : Fresh session) (few : graph.declarations.length < 4294967296) :
    ∃ lines after, Analysis.run graph session = (.success lines, after) ∧
      after.registry.Admits analysisZone ∧
      List.Forall₂ (Shows graph) graph.declarations lines := by
  obtain ⟨larger, holds, idle⟩ := fresh.exists_idle graph
  obtain ⟨lines, after, runs, afterIdle, shows⟩ := run_describeAll few holds idle graph.declarations
  exact ⟨lines, after, runs, afterIdle.below.admits holds, shows⟩

end Analysis

end RequestEngine
