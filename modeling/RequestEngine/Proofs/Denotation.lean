import Mathlib.Logic.Relation
import RequestEngine.Evaluation

/-!
Contract: what requests mean, apart from any evaluator.

Owns:
- the answers that computations settle on when every request is computed anew
  and no request takes part in a cycle;
- the requests that a settled computation needs;
- the absence of cycles among them.

An answer that is settled is a value or a computation error. Whether a request
settles depends on nothing but the program.

Does not own: evaluators, which have to find the same answers.
-/

namespace RequestEngine

namespace Program

variable {Request : Type} {Value : Request → Type} {World : Type} {α : Type}

/-- The answer of a computation when every request that it asks for is computed
anew. There is no answer if it ends in a cycle error, or abruptly, or looks at
the evaluator or at the state of the program. -/
inductive Settles (program : Program Request Value World) :
    {α : Type} → Computation Request Value World α → Except Failure α → Prop where
  | done {α : Type} {value : α} : Settles program (.done value) (.ok value)
  | fail {α : Type} {error : ErrorChain} :
      Settles program (.fail (.computation error) : Computation Request Value World α)
        (.error (.computation error))
  | ask {α : Type} {request : Request}
      {resume : Except Failure (Value request) → Computation Request Value World α}
      {nested : Except Failure (Value request)} {answer : Except Failure α}
      (computes : Settles program (program.compute request) nested)
      (resumes : Settles program (resume nested) answer) :
      Settles program (.ask request resume) answer
  | report {α : Type} {diagnostic : Diagnostic} {next : Computation Request Value World α}
      {answer : Except Failure α} (resumes : Settles program next answer) :
      Settles program (.report diagnostic next) answer
  | update {α : Type} {change : World → World} {next : Computation Request Value World α}
      {answer : Except Failure α} (resumes : Settles program next answer) :
      Settles program (.update change next) answer

/-- A computation asks for a request on the way to its settled answer. -/
inductive Asks (program : Program Request Value World) :
    {α : Type} → Computation Request Value World α → Request → Prop where
  | now {α : Type} {request : Request}
      {resume : Except Failure (Value request) → Computation Request Value World α} :
      Asks program (.ask request resume) request
  | later {α : Type} {request needed : Request}
      {resume : Except Failure (Value request) → Computation Request Value World α}
      {nested : Except Failure (Value request)}
      (computes : Settles program (program.compute request) nested)
      (resumes : Asks program (resume nested) needed) :
      Asks program (.ask request resume) needed
  | report {α : Type} {diagnostic : Diagnostic} {next : Computation Request Value World α}
      {needed : Request} (resumes : Asks program next needed) :
      Asks program (.report diagnostic next) needed
  | update {α : Type} {change : World → World} {next : Computation Request Value World α}
      {needed : Request} (resumes : Asks program next needed) :
      Asks program (.update change next) needed

/-- The computation of a request settles. -/
def Settled (program : Program Request Value World) (request : Request) : Prop :=
  ∃ answer, Settles program (program.compute request) answer

/-- The computation of a request asks for another one. -/
def Needs (program : Program Request Value World) (request needed : Request) : Prop :=
  Asks program (program.compute request) needed

/-- The computation of a request asks for another one, directly or not. A
request counts itself in. -/
def DependsOn (program : Program Request Value World) : Request → Request → Prop :=
  Relation.ReflTransGen (Needs program)

variable {program : Program Request Value World} {request needed : Request}
variable {computation : Computation Request Value World α}

/-- A computation settles on one answer at most. -/
theorem Settles.unique {left right : Except Failure α} (first : Settles program computation left)
    (second : Settles program computation right) : left = right := by
  induction first with
  | done =>
      cases second
      rfl
  | fail =>
      cases second
      rfl
  | ask computes resumes nestedHypothesis resumedHypothesis =>
      cases second with
      | ask otherComputes otherResumes =>
          obtain rfl := nestedHypothesis otherComputes
          exact resumedHypothesis otherResumes
  | report _ inductionHypothesis =>
      cases second with
      | report resumes => exact inductionHypothesis resumes
  | update _ inductionHypothesis =>
      cases second with
      | update resumes => exact inductionHypothesis resumes

theorem Settles.ne_cycle {answer : Except Failure α} (settles : Settles program computation answer)
    (error : CycleError) : answer ≠ .error (.cycle error) := by
  induction settles with
  | done => simp
  | fail => simp
  | ask _ _ _ inductionHypothesis => exact inductionHypothesis
  | report _ inductionHypothesis => exact inductionHypothesis
  | update _ inductionHypothesis => exact inductionHypothesis

/-! ### Sequencing -/

theorem settles_evaluate {answer : Except Failure (Value request)} :
    Settles program (Computation.evaluate request) answer ↔
      Settles program (program.compute request) answer := by
  constructor
  · intro settles
    cases settles with
    | @ask _ _ _ nested _ computes resumes =>
        cases nested with
        | ok value =>
            cases resumes
            exact computes
        | error failure =>
            cases resumes
            exact computes
  · intro computes
    cases answer with
    | ok value => exact .ask computes .done
    | error failure =>
        cases failure with
        | cycle error => exact absurd rfl (computes.ne_cycle error)
        | computation error => exact .ask computes .fail

theorem eq_of_asks_evaluate (asks : Asks program (Computation.evaluate request) needed) :
    needed = request := by
  cases asks with
  | now => rfl
  | @later _ _ _ nested _ resumes => cases nested <;> cases resumes

variable {β : Type} {next : α → Computation Request Value World β}

/-- Sequencing settles on a value when both parts do. -/
theorem settles_bind {result : β} :
    Settles program (computation.bind next) (.ok result) ↔
      ∃ value, Settles program computation (.ok value) ∧
        Settles program (next value) (.ok result) := by
  constructor
  · intro settles
    induction computation with
    | done value => exact ⟨value, .done, settles⟩
    | fail failure => cases settles
    | abort message => cases settles
    | ask request resume inductionHypothesis =>
        cases settles with
        | ask computes resumes =>
            obtain ⟨value, first, second⟩ := inductionHypothesis _ resumes
            exact ⟨value, .ask computes first, second⟩
    | activeRequests resume _ => cases settles
    | isActive request resume _ => cases settles
    | isCached request resume _ => cases settles
    | read resume _ => cases settles
    | report diagnostic rest inductionHypothesis =>
        cases settles with
        | report resumes =>
            obtain ⟨value, first, second⟩ := inductionHypothesis resumes
            exact ⟨value, .report first, second⟩
    | update change rest inductionHypothesis =>
        cases settles with
        | update resumes =>
            obtain ⟨value, first, second⟩ := inductionHypothesis resumes
            exact ⟨value, .update first, second⟩
  · rintro ⟨value, first, second⟩
    generalize answerEq : (Except.ok value : Except Failure α) = answer at first
    -- Only the answer of the first part is known, so its settling carries the induction.
    induction first with
    | done =>
        cases answerEq
        exact second
    | fail => cases answerEq
    | ask computes _ _ inductionHypothesis =>
        exact .ask computes (inductionHypothesis _ second answerEq)
    | report _ inductionHypothesis => exact .report (inductionHypothesis _ second answerEq)
    | update _ inductionHypothesis => exact .update (inductionHypothesis _ second answerEq)

/-- What the second part asks for is asked for when the first part has a value. -/
theorem Asks.bind {value : α} (settles : Settles program computation (.ok value))
    (asks : Asks program (next value) needed) : Asks program (computation.bind next) needed := by
  generalize answerEq : (Except.ok value : Except Failure α) = answer at settles
  induction settles with
  | done =>
      cases answerEq
      exact asks
  | fail => cases answerEq
  | ask computes _ _ inductionHypothesis =>
      exact .later computes (inductionHypothesis asks answerEq)
  | report _ inductionHypothesis => exact .report (inductionHypothesis asks answerEq)
  | update _ inductionHypothesis => exact .update (inductionHypothesis asks answerEq)

/-! ### Needs -/

theorem Settles.settled_of_asks {answer : Except Failure α}
    (settles : Settles program computation answer) (asks : Asks program computation needed) :
    Settled program needed := by
  induction settles with
  | done => cases asks
  | fail => cases asks
  | ask computes _ _ inductionHypothesis =>
      cases asks with
      | now => exact ⟨_, computes⟩
      | later otherComputes resumes =>
          obtain rfl := otherComputes.unique computes
          exact inductionHypothesis resumes
  | report _ inductionHypothesis =>
      cases asks with
      | report resumes => exact inductionHypothesis resumes
  | update _ inductionHypothesis =>
      cases asks with
      | update resumes => exact inductionHypothesis resumes

theorem Settled.of_dependsOn (settled : Settled program request)
    (depends : DependsOn program request needed) : Settled program needed := by
  induction depends with
  | refl => exact settled
  | tail _ needs inductionHypothesis =>
      obtain ⟨answer, settles⟩ := inductionHypothesis
      exact settles.settled_of_asks needs

/-- Needs of a settled computation can be followed only finitely often. -/
private theorem acc_of_asks {answer : Except Failure α}
    (settles : Settles program computation answer) (asks : Asks program computation needed) :
    Acc (fun later earlier => Needs program earlier later) needed := by
  induction settles generalizing needed with
  | done => cases asks
  | fail => cases asks
  | ask computes _ nestedHypothesis resumedHypothesis =>
      cases asks with
      | now => exact Acc.intro _ fun later needs => nestedHypothesis needs
      | later otherComputes resumes =>
          obtain rfl := otherComputes.unique computes
          exact resumedHypothesis resumes
  | report _ inductionHypothesis =>
      cases asks with
      | report resumes => exact inductionHypothesis resumes
  | update _ inductionHypothesis =>
      cases asks with
      | update resumes => exact inductionHypothesis resumes

private theorem not_transGen_of_acc
    (accessible : Acc (fun later earlier => Needs program earlier later) request) :
    ¬ Relation.TransGen (Needs program) request request := by
  induction accessible with
  | intro request _ inductionHypothesis =>
      intro cycle
      obtain ⟨next, needs, back⟩ := Relation.TransGen.head'_iff.mp cycle
      exact inductionHypothesis next needs (.tail' back needs)

/-- A settled request does not need itself, directly or not. -/
theorem Settled.not_transGen (settled : Settled program request) :
    ¬ Relation.TransGen (Needs program) request request := by
  obtain ⟨answer, settles⟩ := settled
  exact not_transGen_of_acc (Acc.intro request fun later needs => acc_of_asks settles needs)

theorem Settled.acyclic (settled : Settled program request) (needs : Needs program request needed) :
    ¬ DependsOn program needed request :=
  fun back => settled.not_transGen (.head' needs back)

/-- Nothing below a settled request that is not active becomes active when the
computation of the request begins. -/
theorem Settled.free_below {active : List Request} (settled : Settled program request)
    (free : ∀ other, DependsOn program request other → other ∉ active)
    (needs : Needs program request needed) {other : Request}
    (depends : DependsOn program needed other) : other ∉ active ++ [request] := by
  intro isActive
  rcases List.mem_append.mp isActive with below | isRequest
  · exact free other (.head needs depends) below
  · rw [List.mem_singleton.mp isRequest] at depends
    exact settled.acyclic needs depends

end Program

end RequestEngine
