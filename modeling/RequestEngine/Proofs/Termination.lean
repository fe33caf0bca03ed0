import RequestEngine.Proofs.Simulation
import RequestEngine.Proofs.StackDiscipline

/-!
Contract: evaluations that are always answered.

Owns:
- the reasons for which an evaluation is not answered, and when they are absent:
  zones do not conflict, identities do not clash, computations do not end
  abruptly, and evaluations do not nest too deeply;
- the theorem that then every evaluation is answered.

Does not own: the programs that this can be shown of.
-/

namespace RequestEngine

variable {Request : Type} [DecidableEq Request] {Value : Request → Type} {World : Type} {α : Type}

/-- A computation that never ends abruptly and asks for allowed requests only.
The values that it is given may be taken to be the settled ones. -/
def Computation.Confined (program : Program Request Value World) (allowed : Request → Prop) :
    Computation Request Value World α → Prop
  | .done _ | .fail _ => True
  | .ask request resume =>
      allowed request ∧ ∀ answer,
        (∀ value, answer = .ok value →
          program.Settles (program.compute request) (.ok value)) →
        (resume answer).Confined program allowed
  | .report _ next | .update _ next => next.Confined program allowed
  | .abort _ | .activeRequests _ | .isActive _ _ | .isCached _ _ | .read _ => False

namespace Computation

variable {program : Program Request Value World} {allowed : Request → Prop} {β : Type}
variable {computation : Computation Request Value World α}
variable {next : α → Computation Request Value World β}

omit [DecidableEq Request] in
theorem Confined.bind (confined : computation.Confined program allowed)
    (nextConfined : ∀ value, (next value).Confined program allowed) :
    (computation.bind next).Confined program allowed := by
  induction computation with
  | done value => exact nextConfined value
  | fail failure => exact trivial
  | abort message => exact confined.elim
  | ask request resume inductionHypothesis =>
      exact ⟨confined.1, fun answer settles =>
        inductionHypothesis answer (confined.2 answer settles)⟩
  | activeRequests resume _ => exact confined.elim
  | isActive request resume _ => exact confined.elim
  | isCached request resume _ => exact confined.elim
  | read resume _ => exact confined.elim
  | report diagnostic rest inductionHypothesis => exact inductionHypothesis confined
  | update change rest inductionHypothesis => exact inductionHypothesis confined

omit [DecidableEq Request] in
theorem confined_evaluate_bind {request : Request} (isAllowed : allowed request)
    {next : Value request → Computation Request Value World β}
    (nextConfined : ∀ value, program.Settles (program.compute request) (.ok value) →
      (next value).Confined program allowed) :
    ((Computation.evaluate request).bind next).Confined program allowed := by
  refine ⟨isAllowed, fun answer settles => ?_⟩
  cases answer with
  | ok value => exact nextConfined value (settles value rfl)
  | error failure => exact trivial

end Computation

/-! ### Zones that do not conflict -/

namespace Session

variable {program : Program Request Value World} {request : Request}
variable {session after : Session Request Value World} {larger : Registry}

/-- A registry that holds every zone of a program and everything registered so
far stays larger than what is registered. -/
theorem below_of_receive {reception : Reception (Value request)}
    (allHeld : ∀ request, larger.Holds (program.kind request).zone)
    (below : session.registry.Below larger)
    (receives : session.receive program request = (reception, after)) :
    (∀ conflict, reception ≠ .conflicting conflict) ∧ after.registry.Below larger := by
  obtain ⟨met, meets, metBelow⟩ := meets_of_holds below (allHeld request)
  have received := receive_eq_iff.mp receives
  have admitted : ∀ conflict, reception ≠ .conflicting conflict := by
    rintro conflict rfl
    cases received with
    | conflicting refuses =>
        rw [meets] at refuses
        cases refuses
  refine ⟨admitted, ?_⟩
  obtain ⟨otherMet, otherMeets, sameZones⟩ := received.meets admitted
  rw [meets] at otherMeets
  cases otherMeets
  rwa [registry_of_zones_eq sameZones]

end Session

namespace Program

variable {program : Program Request Value World} {request : Request} {larger : Registry}
variable {session after final : Session Request Value World}
variable {computation : Computation Request Value World α}
variable {history : List (Event Request Value World)}

theorem Step.registry_below {event : Event Request Value World}
    (step : Step program session event after)
    (allHeld : ∀ request, larger.Holds (program.kind request).zone)
    (below : session.registry.Below larger) : after.registry.Below larger := by
  cases step with
  | received receives => exact (Session.below_of_receive allHeld below receives).2
  | finished _ concludes =>
      rwa [Session.registry_of_zones_eq (Session.zones_concluded concludes)]
  | abandoned =>
      rwa [Session.registry_of_zones_eq (Session.zones_notifyFinished _)]
  | reported => exact below
  | updated => exact below

theorem Steps.registry_below (steps : Steps program session history final)
    (allHeld : ∀ request, larger.Holds (program.kind request).zone)
    (below : session.registry.Below larger) : final.registry.Below larger := by
  induction steps with
  | nil => exact below
  | cons first _ inductionHypothesis =>
      have middleBelow := first.registry_below allHeld below
      exact inductionHypothesis middleBelow

/-! ### Evaluations -/

/-- How deeply evaluations may nest: what is asked for in the computation of a
request has one level less than the request itself. -/
structure Bounded (program : Program Request Value World)
    (fits : List Request → Request → Nat → Prop) : Prop where
  positive : ∀ active request, ¬ fits active request 0
  nested : ∀ {active request depth}, fits active request (depth + 1) → request ∉ active →
    (program.compute request).Confined program fun asked => fits (active ++ [request]) asked depth

omit [DecidableEq Request] in
theorem Follows.evaluate {active : List Request}
    {resume : Except Failure (Value request) → Computation Request Value World α}
    (follows : Follows program active (.ask request resume)) :
    Follows program active (Computation.evaluate request) := by
  intro owner isLast settled
  obtain ⟨⟨settledAnswer, settles⟩, needs⟩ := follows owner isLast settled
  cases settles with
  | @ask _ _ _ nested _ computes _ =>
      refine ⟨⟨nested, settles_evaluate.mpr computes⟩, fun needed asks => ?_⟩
      rw [eq_of_asks_evaluate asks]
      exact needs request .now

/-- A session between evaluations. -/
structure Idle (program : Program Request Value World) (larger : Registry)
    (session : Session Request Value World) : Prop where
  noneActive : session.evaluator.active = []
  trusted : Trusted program session
  below : session.registry.Below larger

section Answered

variable (allOblivious : ∀ request, (program.compute request).Oblivious program)
variable (honest : program.HonestStorage) (declared : program.ZonesDeclared)
variable (allHeld : ∀ request, larger.Holds (program.kind request).zone)

include allOblivious honest declared allHeld

/-- A confined computation is answered when everything that it may ask for is. -/
private theorem answered_of_confined {active : List Request} {allowed : Request → Prop}
    {depth : Nat}
    (answered : ∀ request session, allowed request → session.evaluator.active = active →
      Trusted program session → session.registry.Below larger →
      (∀ owner ∈ active.getLast?, Settled program owner → Needs program owner request) →
      ∃ answer after, program.evaluate depth request session = (.ofAnswer answer, after))
    (confined : computation.Confined program allowed) (oblivious : computation.Oblivious program)
    (follows : Follows program active computation) (isActive : session.evaluator.active = active)
    (trusted : Trusted program session) (below : session.registry.Below larger) :
    ∃ answer after, program.run depth computation session = (.ofAnswer answer, after) := by
  induction computation generalizing session with
  | done value => exact ⟨.ok value, session, rfl⟩
  | fail failure => exact ⟨.error failure, session, rfl⟩
  | abort message => exact confined.elim
  | activeRequests resume _ => exact confined.elim
  | isActive request resume _ => exact confined.elim
  | isCached request resume _ => exact confined.elim
  | read resume _ => exact confined.elim
  | report diagnostic next inductionHypothesis =>
      exact inductionHypothesis confined oblivious follows.reported isActive
        (trusted.reported diagnostic) below
  | update change next inductionHypothesis =>
      exact inductionHypothesis confined oblivious.2 follows.updated isActive
        (trusted.updated (oblivious.1 session.world)) below
  | ask request resume inductionHypothesis =>
      obtain ⟨nested, after, evaluates⟩ :=
        answered request session confined.1 isActive trusted below follows.asked
      have runs := (run_evaluate program depth request session).trans evaluates
      obtain ⟨history, reaches⟩ := exists_run_of_run runs (by simp)
      have followsNested := follows.evaluate
      rw [← isActive] at followsNested
      have simulated := reaches.simulated allOblivious honest declared rfl
        (oblivious_evaluate program request) followsNested trusted
      have determined : ∀ settledAnswer, Settles program (program.compute request) settledAnswer →
          nested = settledAnswer :=
        fun _ settles => simulated.determined _ (settles_evaluate.mpr settles)
      have settledValue : ∀ value, nested = .ok value →
          Settles program (program.compute request) (.ok value) := by
        rintro value rfl
        exact settles_evaluate.mp (simulated.settles (by simp)).1
      -- What was answered is the settled answer, so the rest stays confined and on its way.
      rw [run_ask_of_answer evaluates]
      exact inductionHypothesis nested (confined.2 nested settledValue) (oblivious.1 nested)
        (follows.resumed determined) ((active_of_answer runs).trans isActive) simulated.trusted
        (reaches.steps.registry_below allHeld below)

/-- An evaluation is answered when zones do not conflict, identities do not
clash, and there is depth enough for everything that may be asked for. -/
theorem Bounded.answered {fits : List Request → Request → Nat → Prop}
    (bounded : Bounded program fits) (identities : program.DistinctIdentities) {depth : Nat}
    (enough : fits session.evaluator.active request depth) (trusted : Trusted program session)
    (below : session.registry.Below larger)
    (asked : ∀ owner ∈ session.evaluator.active.getLast?,
      Settled program owner → Needs program owner request) :
    ∃ answer after, program.evaluate depth request session = (.ofAnswer answer, after) := by
  induction depth generalizing request session with
  | zero => exact absurd enough (bounded.positive _ _)
  | succ depth inductionHypothesis =>
      rcases receives : session.receive program request with ⟨reception, entered⟩
      obtain ⟨admitted, enteredBelow⟩ := Session.below_of_receive allHeld below receives
      cases reception with
      | conflicting conflict => exact absurd rfl (admitted conflict)
      | refused clash =>
          cases Session.receive_eq_iff.mp receives with
          | refused _ clashes =>
              rw [Core.clash?_of_distinctIdentities identities] at clashes
              cases clashes
      | held value => exact ⟨.ok value, entered, evaluate_of_answer receives rfl⟩
      | rejected error diagnostics =>
          exact ⟨.error (.cycle error), entered, evaluate_of_answer receives rfl⟩
      | computing =>
          have notActive := Session.not_active_of_computing receives
          have enteredActive := Session.active_of_computing receives
          obtain ⟨answer, computed, computes⟩ :=
            answered_of_confined allOblivious honest declared allHeld
              (fun nested session enoughNested isActive trusted below asked =>
                inductionHypothesis (by rwa [isActive]) trusted below (by rwa [isActive]))
              (bounded.nested enough notActive) (allOblivious request) .compute enteredActive
              (trusted.entered declared receives asked) enteredBelow
          rw [evaluate_of_computing receives computes]
          rcases Session.concluded_answer program request answer computed with
            ⟨left, concludes⟩ | ⟨message, left, concludes⟩
          · exact ⟨answer, left, concludes⟩
          · generalize outcomeEq : Outcome.aborted message = outcome at concludes
            cases Session.finishes_of_concluded concludes with
            | failed _ => cases outcomeEq
            | kept _ _ => cases outcomeEq
            | clashing clashes _ =>
                rw [Core.clash?_of_distinctIdentities identities] at clashes
                cases clashes

/-- Between evaluations, an evaluation finds exactly the value that its request
settles on, and an evaluation can follow. -/
theorem Idle.evaluates {fits : List Request → Request → Nat → Prop}
    (idle : Idle program larger session) (bounded : Bounded program fits)
    (identities : program.DistinctIdentities) {depth : Nat} (enough : fits [] request depth) :
    ∃ answer after, program.evaluate depth request session = (.ofAnswer answer, after) ∧
      Idle program larger after ∧
      ∀ value, answer = .ok value ↔ Settles program (program.compute request) (.ok value) := by
  have enoughHere : fits session.evaluator.active request depth := by
    rwa [idle.noneActive]
  obtain ⟨answer, after, evaluates⟩ :=
    bounded.answered allOblivious honest declared allHeld identities enoughHere idle.trusted
      idle.below (by simp [idle.noneActive])
  have runs := (run_evaluate program depth request session).trans evaluates
  obtain ⟨history, reaches⟩ := exists_run_of_run runs (by simp)
  have simulated :=
    reaches.simulated_evaluate allOblivious honest declared idle.noneActive idle.trusted
  refine ⟨answer, after, evaluates, ⟨?_, simulated.trusted, ?_⟩, fun value => ⟨?_, ?_⟩⟩
  · rw [active_of_answer runs, idle.noneActive]
  · exact reaches.steps.registry_below allHeld idle.below
  · rintro rfl
    exact settles_evaluate.mp (simulated.settles (by simp)).1
  · intro settles
    exact simulated.determined _ (settles_evaluate.mpr settles)

end Answered

end Program

end RequestEngine
