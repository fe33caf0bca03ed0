import RequestEngine.Proofs.Counting
import RequestEngine.Proofs.KeptResults

/-!
Contract: the metrics account for everything that an evaluator was asked for.

Owns:
- the events at which an evaluator panics;
- the sessions of an evaluator that has not panicked, between calls and in the
  middle of them;
- the equations between the metrics, the stack, the result cache and the
  numbers of events.

Nothing is assumed about identities: kinds that share one may be evaluated, as
long as no clash comes of it. A request enters the result cache at most once
because nothing on the stack has an entry.

Does not own: the counter that a single event increments; `Proofs.Counting` does.
-/

namespace RequestEngine

variable {Request : Type} {Value : Request → Type} {World : Type}

/-! ### Kinds of events -/

namespace Event

/-- A request was evaluated. -/
def isCall : Event Request Value World → Bool
  | .received _ _ => true
  | .finished _ _ | .abandoned _ | .reported _ | .updated _ => false

/-- The computation of one of some requests had a value. -/
def succeeds (counted : Request → Bool) : Event Request Value World → Bool
  | .finished request (.ok _) => counted request
  | .finished _ (.error _) | .received _ _ | .abandoned _ | .reported _ | .updated _ => false

/-- An evaluation returned a failure. -/
def returnsFailure : Event Request Value World → Bool
  | .received _ (.rejected _ _) | .finished _ (.error _) => true
  | .received _ _ | .finished _ (.ok _) | .abandoned _ | .reported _ | .updated _ => false

end Event

/-- The result cache gets one entry for every success of a cached request. -/
theorem length_keptResults (kind : Request → RequestKind)
    (history : List (Event Request Value World)) :
    (keptResults kind history).length =
      history.countP (Event.succeeds fun request => (kind request).caching = .cached) := by
  unfold keptResults
  rw [List.length_filterMap_eq_countP]
  congr 1
  funext event
  cases event with
  | finished request answer =>
      cases answer with
      | error failure => rfl
      | ok value =>
          by_cases policy : (kind request).caching = .cached
          · simp [Event.keptResult?, Event.succeeds, policy]
          · simp [Event.keptResult?, Event.succeeds, policy]
  | _ => rfl

namespace Program

variable [DecidableEq Request] {program : Program Request Value World} {options : Options}
variable {session after final : Session Request Value World} {event : Event Request Value World}
variable {past history : List (Event Request Value World)}

/-! ### Sessions of an evaluator that has not panicked -/

/-- The evaluator panics at an event, or passes a panic on. -/
inductive Panics (program : Program Request Value World) (session : Session Request Value World) :
    Event Request Value World → Prop where
  | conflicting {request : Request} {conflict : ZoneConflict} :
      Panics program session (.received request (.conflicting conflict))
  | refused {request : Request} {clash : IdentityClash} :
      Panics program session (.received request (.refused clash))
  | unkept {request : Request} {value : Value request} {clash : IdentityClash}
      (clashes : session.core.clash? program request = some clash) :
      Panics program session (.finished request (.ok value))
  | abandoned {request : Request} : Panics program session (.abandoned request)

/-- Steps at which nothing panics. -/
inductive Unbroken (program : Program Request Value World) :
    Session Request Value World → List (Event Request Value World) →
      Session Request Value World → Prop where
  | nil {session : Session Request Value World} : Unbroken program session [] session
  | cons {session middle final : Session Request Value World} {event : Event Request Value World}
      {later : List (Event Request Value World)} (first : Step program session event middle)
      (quiet : ¬ Panics program session event) (rest : Unbroken program middle later final) :
      Unbroken program session (event :: later) final

/-- What may happen to an evaluator that was created with some options, and that
does not panic. A call either returns or is still under way. -/
def calmCareer (program : Program Request Value World) (options : Options) :
    Conduct (Session Request Value World) (Event Request Value World) :=
  program.running (fun session => ∃ observed, session.evaluator = .fresh options observed)
    (fun session history ended after =>
      match ended with
      | some outcome => ∃ answer, outcome = .ofAnswer answer
      | none => Unbroken program session history after)
    (fun session after => after.evaluator = session.evaluator)

/-- The sessions of a fresh evaluator that has not panicked so far, between calls
and in the middle of them. -/
def CalmVisits (program : Program Request Value World) (options : Options) :
    List (Event Request Value World) → Session Request Value World → Prop :=
  Visited (program.calmCareer options)

theorem Unbroken.append {middle : Session Request Value World}
    (first : Unbroken program session past middle)
    (second : Unbroken program middle history final) :
    Unbroken program session (past ++ history) final := by
  induction first with
  | nil => exact second
  | cons step quiet _ inductionHypothesis => exact .cons step quiet (inductionHypothesis second)

omit [DecidableEq Request] in
private theorem not_panics_of_answer {request : Request} {reception : Reception (Value request)}
    {answer : Except Failure (Value request)} (answers : reception.answer? = some answer) :
    ¬ Panics program session (.received request reception) := by
  intro panics
  cases panics <;> cases answers

private theorem not_panics_of_concluded {request : Request}
    {answer : Except Failure (Value request)}
    (concludes : session.concluded program request (.ofAnswer answer) = (.ofAnswer answer, after)) :
    ¬ Panics program session (.finished request answer) := by
  intro panics
  generalize outcomeEq : Outcome.ofAnswer answer = outcome at concludes
  cases panics with
  | @unkept _ value clash clashes =>
      rw [← outcomeEq] at concludes
      have finishes : Session.Finishes program request session (.ok value) (.success value) after :=
        Session.finishes_of_concluded concludes
      cases finishes with
      | kept noClash _ =>
          rw [clashes] at noClash
          cases noClash

/-- A run that returns has not panicked anywhere. -/
theorem Run.unbroken {α : Type} {computation : Computation Request Value World α}
    {ended : Option (Outcome α)} {answer : Except Failure α}
    (runs : Run program computation session history ended final)
    (returns : ended = some (.ofAnswer answer)) : Unbroken program session history final := by
  induction runs with
  | underWay => cases returns
  | unnoticed _ _ => cases returns
  | done => exact .nil
  | fail => exact .nil
  | abort => exact absurd returns Outcome.aborted_not_answered
  | answered receives answers _ later =>
      exact .cons (.received receives) (not_panics_of_answer answers) (later returns)
  | refused _ _ => exact absurd returns Outcome.aborted_not_answered
  | within _ _ _ => cases returns
  | returned receives computes concludes _ inside later =>
      apply Unbroken.cons (.received receives)
      · intro panics
        cases panics
      · apply (inside rfl).append
        exact .cons (.finished (onTop_of_computed receives computes) concludes)
          (not_panics_of_concluded concludes) (later returns)
  | unkept _ _ _ _ => exact absurd returns Outcome.aborted_not_answered
  | abandoned _ _ _ => exact absurd returns Outcome.aborted_not_answered
  | activeRequests _ later => exact later returns
  | isActive _ later => exact later returns
  | isCached _ _ later => exact later returns
  | isCachedRefused _ => exact absurd returns Outcome.aborted_not_answered
  | report _ later =>
      apply Unbroken.cons .reported
      · intro panics
        cases panics
      · exact later returns
  | read _ later => exact later returns
  | update _ later =>
      apply Unbroken.cons .updated
      · intro panics
        cases panics
      · exact later returns

/-! ### Accounting -/

/-- The metrics, the stack and the result cache agree with what has happened. -/
structure Accounted (program : Program Request Value World)
    (history : List (Event Request Value World)) (session : Session Request Value World) :
    Prop where
  /-- Every evaluation was answered from a cache, was computed, or was rejected. -/
  calls : history.countP Event.isCall =
    session.evaluator.metrics.cacheHits + session.evaluator.metrics.externalCacheHits +
      session.evaluator.metrics.computations + session.evaluator.metrics.cyclesDetected
  /-- Every computation has failed, has succeeded, or is on the stack. -/
  computations : session.evaluator.metrics.computations =
    session.evaluator.metrics.failures + history.countP (Event.succeeds fun _ => true) +
      session.evaluator.active.length
  /-- Failures are those of computations and of rejected requests. -/
  failures : history.countP Event.returnsFailure =
    session.evaluator.metrics.failures + session.evaluator.metrics.cyclesDetected
  /-- Every success of a cached request has an entry of its own. -/
  results : session.evaluator.cache.length =
    history.countP (Event.succeeds fun request => (program.kind request).caching = .cached)

theorem Step.calls_eq (step : Step program session event after)
    (quiet : ¬ Panics program session event) :
    after.evaluator.metrics.cacheHits + after.evaluator.metrics.externalCacheHits +
        after.evaluator.metrics.computations + after.evaluator.metrics.cyclesDetected =
      session.evaluator.metrics.cacheHits + session.evaluator.metrics.externalCacheHits +
        session.evaluator.metrics.computations + session.evaluator.metrics.cyclesDetected +
        [event].countP Event.isCall := by
  rw [step.metrics_eq]
  cases step with
  | @received _ request reception receives =>
      cases reception with
      | conflicting conflict => exact absurd .conflicting quiet
      | refused clash => exact absurd .refused quiet
      | held value =>
          have memoized : (program.kind request).caching ≠ .uncached := by
            intro policy
            cases Session.receive_eq_iff.mp receives with
            | held _ _ holds =>
                rw [Core.held?, policy] at holds
                cases holds
          have oneHit := session.evaluator.metrics.hits_countHit memoized
          simp [Event.count, Event.isCall]
          omega
      | rejected error diagnostics =>
          simp [Event.count, Event.isCall]
          omega
      | computing =>
          simp [Event.count, Event.isCall]
          omega
  | @finished _ _ answer => cases answer <;> rfl
  | abandoned => rfl
  | reported => rfl
  | updated => rfl

theorem Step.computations_eq (step : Step program session event after) {successes : Nat}
    (accounted : session.evaluator.metrics.computations =
      session.evaluator.metrics.failures + successes + session.evaluator.active.length) :
    after.evaluator.metrics.computations = after.evaluator.metrics.failures +
      (successes + [event].countP (Event.succeeds fun _ => true)) +
      after.evaluator.active.length := by
  have tracked := step.track_active
  rw [step.metrics_eq]
  cases event with
  | received request reception =>
      by_cases settled : reception = .computing
      · subst settled
        have pushed : session.evaluator.active ++ [request] = after.evaluator.active :=
          Option.some.inj tracked
        rw [← pushed, List.length_append]
        simp [Event.count, Event.succeeds]
        omega
      · rw [Event.track_received settled] at tracked
        rw [← Option.some.inj tracked]
        cases reception with
        | computing => exact absurd rfl settled
        | held value => simpa [Event.count, Event.succeeds] using accounted
        | _ => exact accounted
  | finished request answer =>
      rw [Event.track] at tracked
      split at tracked
      case isFalse => cases tracked
      case isTrue onTop =>
        have nonempty := List.length_pos_of_mem (List.mem_of_getLast? onTop)
        rw [← Option.some.inj tracked, List.length_dropLast]
        cases answer with
        | error failure =>
            simp [Event.count, Event.succeeds]
            omega
        | ok value =>
            simp [Event.count, Event.succeeds]
            omega
  | abandoned request =>
      rw [← Option.some.inj tracked]
      exact accounted
  | reported diagnostic =>
      rw [← Option.some.inj tracked]
      exact accounted
  | updated change =>
      rw [← Option.some.inj tracked]
      exact accounted

theorem Step.failures_eq (step : Step program session event after) :
    after.evaluator.metrics.failures + after.evaluator.metrics.cyclesDetected =
      session.evaluator.metrics.failures + session.evaluator.metrics.cyclesDetected +
        [event].countP Event.returnsFailure := by
  rw [step.metrics_eq]
  cases event with
  | received request reception =>
      cases reception with
      | held value => simp [Event.count, Event.returnsFailure]
      | _ => rfl
  | finished request answer =>
      cases answer with
      | error failure =>
          simp [Event.count, Event.returnsFailure]
          omega
      | ok value => rfl
  | _ => rfl

/-- What has been accounted for, together with the separation that keeps a
request from entering the result cache twice. -/
structure Balanced (program : Program Request Value World)
    (history : List (Event Request Value World)) (session : Session Request Value World) :
    Prop where
  accounted : Accounted program history session
  separated : Separated program session.core

omit [DecidableEq Request] in
theorem Balanced.created {observed : Bool} (isFresh : session.evaluator = .fresh options observed) :
    Balanced program [] session where
  accounted := by constructor <;> rw [isFresh] <;> rfl
  separated := by
    have core : session.core = ⟨[], [], session.world⟩ := by
      rw [Session.core, isFresh]
      rfl
    rw [core]
    exact .created

/-- Every step at which nothing panics is accounted for. -/
theorem Balanced.step (balanced : Balanced program past session)
    (step : Step program session event after) (quiet : ¬ Panics program session event) :
    Balanced program (past ++ [event]) after := by
  obtain ⟨accounted, separated⟩ := balanced
  have noClash : ∀ request value, event = .finished request (.ok value) →
      session.core.clash? program request = none := by
    rintro request value rfl
    cases clashes : session.core.clash? program request with
    | none => rfl
    | some clash => exact absurd (.unkept clashes) quiet
  obtain ⟨separatedAfter, extended⟩ := step.separated_of_noClash noClash separated
  refine ⟨⟨?_, ?_, ?_, ?_⟩, separatedAfter⟩
  · rw [List.countP_append, accounted.calls, step.calls_eq quiet]
  · rw [List.countP_append]
    exact step.computations_eq accounted.computations
  · rw [List.countP_append, accounted.failures, step.failures_eq]
  · rw [List.countP_append, extended, List.length_append, accounted.results, length_keptResults]

theorem Balanced.unbroken (balanced : Balanced program past session)
    (unbroken : Unbroken program session history final) :
    Balanced program (past ++ history) final := by
  induction unbroken generalizing past with
  | nil => rwa [List.append_nil]
  | @cons _ _ _ event later step quiet _ inductionHypothesis =>
      have whole := inductionHypothesis (balanced.step step quiet)
      rwa [List.append_assoc] at whole

omit [DecidableEq Request] in
theorem Balanced.elsewhere (balanced : Balanced program past session)
    (sameEvaluator : after.evaluator = session.evaluator) : Balanced program past after where
  accounted := by
    obtain ⟨calls, computations, failures, results⟩ := balanced.accounted
    constructor <;> rw [sameEvaluator] <;> assumption
  separated := by
    have core : after.core = { session.core with world := after.world } := by
      rw [Session.core, sameEvaluator]
      rfl
    rw [core]
    exact balanced.separated.changed _

theorem CalmVisits.balanced (visits : CalmVisits program options history session) :
    Balanced program history session := by
  refine Visited.preserves (fun history session => Balanced program history session) visits ?_ ?_ ?_
  · rintro session ⟨observed, isFresh⟩
    exact .created isFresh
  · rintro _ _ _ _ _ ⟨_, _, ended, _, runs, calm⟩ balanced
    cases ended with
    | none => exact balanced.unbroken calm
    | some outcome =>
        obtain ⟨answer, rfl⟩ := calm
        exact balanced.unbroken (runs.unbroken rfl)
  · intro _ _ _ sameEvaluator balanced
    exact balanced.elsewhere sameEvaluator

/-- At any moment of an evaluator that has not panicked the metrics account for
all that has happened. When nothing is being computed and only cached requests
were, every computation has failed or has an entry. -/
theorem CalmVisits.metricsAccount (visits : CalmVisits program options history session) :
    Accounted program history session ∧
      (session.evaluator.active = [] →
        (∀ request answer, .finished request answer ∈ history →
          (program.kind request).caching = .cached) →
        session.evaluator.cache.length =
          session.evaluator.metrics.computations - session.evaluator.metrics.failures) := by
  have balanced := visits.balanced
  refine ⟨balanced.accounted, fun idle onlyCached => ?_⟩
  have computations := balanced.accounted.computations
  have sameCount : history.countP (Event.succeeds fun _ => true) =
      history.countP (Event.succeeds fun request => (program.kind request).caching = .cached) := by
    refine List.countP_congr fun event happened => ?_
    cases event with
    | finished request answer =>
        cases answer with
        | error failure => rfl
        | ok value => simp [Event.succeeds, onlyCached request _ happened]
    | _ => rfl
  rw [idle, List.length_nil] at computations
  rw [balanced.accounted.results, ← sameCount]
  omega

section Samples

private abbrev treeless : Program FixtureRequest FixtureValue FixtureState := Fixtures.program []

private abbrev newborn : Session FixtureRequest FixtureValue FixtureState :=
  { evaluator := .fresh {} false, world := {} }

/-- In the middle of a cycle of two requests. -/
private theorem exists_calmVisits_cycle :
    ∃ history moment, CalmVisits treeless {} history moment ∧
      moment.evaluator.active = [.cycleA 7, .cycleB 7] ∧
      moment.evaluator.metrics = ⟨0, 0, 2, 0, 1⟩ := by
  let outer := (newborn.receive treeless (.cycleA 7)).2
  let inner := (outer.receive treeless (.cycleB 7)).2
  let error := inner.cycleError treeless (.cycleA 7)
  let report := Session.cycleReport treeless (.cycleA 7) [.cycleA 7, .cycleB 7]
  let rejected := (inner.receive treeless (.cycleA 7)).2
  have receivesA : newborn.receive treeless (.cycleA 7) = (.computing, outer) := rfl
  have receivesB : outer.receive treeless (.cycleB 7) = (.computing, inner) := rfl
  have rejects : inner.receive treeless (.cycleA 7) = (.rejected error report, rejected) := rfl
  have asks : Run treeless (treeless.compute (.cycleB 7)) inner
      [.received (.cycleA 7) (.rejected error report)] none rejected :=
    .answered rejects rfl .underWay
  have computes : Run treeless (treeless.compute (.cycleA 7)) outer
      [.received (.cycleB 7) .computing, .received (.cycleA 7) (.rejected error report)] none
      rejected := .within receivesB asks
  have evaluates : Run treeless (Computation.evaluate (.cycleA 7)) newborn _ none rejected :=
    .within receivesA computes
  have unbroken : Unbroken treeless newborn
      [.received (.cycleA 7) .computing, .received (.cycleB 7) .computing,
        .received (.cycleA 7) (.rejected error report)] rejected := by
    refine .cons (.received receivesA) ?_ (.cons (.received receivesB) ?_
      (.cons (.received rejects) ?_ .nil))
    all_goals
      intro panics
      cases panics
  have first : Course (treeless.calmCareer {}) [] newborn := .begun ⟨false, rfl⟩
  exact ⟨_, rejected, .during first ⟨_, _, none, rfl, evaluates, unbroken⟩, rfl, rfl⟩

/-- After the only request has succeeded. -/
private theorem exists_calmVisits_square :
    ∃ history after, CalmVisits treeless {} history after ∧ after.evaluator.active = [] ∧
      after.evaluator.metrics = ⟨0, 0, 1, 0, 0⟩ ∧
      ∀ request answer, .finished request answer ∈ history →
        (treeless.kind request).caching = .cached := by
  let change : FixtureState → FixtureState := FixtureState.count .square
  let answer : Except Failure UInt64 := .ok (Fixtures.squareWord 3)
  let entered := (newborn.receive treeless (.square 3)).2
  let computed := { entered with world := change entered.world }
  let after := (computed.concluded treeless (.square 3) (.ofAnswer answer)).2
  have receives : newborn.receive treeless (.square 3) = (.computing, entered) := rfl
  have computes : Run treeless (treeless.compute (.square 3)) entered [.updated change]
      (some (.ofAnswer answer)) computed := .read (.update .done)
  have concludes : computed.concluded treeless (.square 3) (.ofAnswer answer) =
      (.ofAnswer answer, after) := rfl
  have evaluates := Run.evaluate_of_computed receives computes concludes
  have first : Course (treeless.calmCareer {}) [] newborn := .begun ⟨false, rfl⟩
  refine ⟨_, after, .between (first.called ⟨_, _, _, rfl, evaluates, answer, rfl⟩), rfl, rfl, ?_⟩
  intro request answer finishes
  simp only [List.cons_append, List.nil_append, List.mem_cons, List.not_mem_nil, reduceCtorEq,
    false_or, or_false] at finishes
  cases finishes
  rfl

/-- In the middle of a cycle both requests are being computed, and the third
evaluation was rejected. After a single success there is a single entry. -/
theorem metricsAccount_samples :
    (∃ history moment, CalmVisits treeless {} history moment ∧
      moment.evaluator.active.length = 2 ∧ moment.evaluator.metrics = ⟨0, 0, 2, 0, 1⟩ ∧
      history.countP Event.isCall = 3 ∧ history.countP Event.returnsFailure = 1) ∧
    ∃ history after, CalmVisits treeless {} history after ∧ after.evaluator.active = [] ∧
      after.evaluator.metrics = ⟨0, 0, 1, 0, 0⟩ ∧ after.evaluator.cache.length = 1 - 0 := by
  constructor
  · obtain ⟨history, moment, visits, active, metrics⟩ := exists_calmVisits_cycle
    have accounted := visits.metricsAccount.1
    refine ⟨history, moment, visits, by rw [active]; rfl, metrics, ?_, ?_⟩
    · simpa only [metrics] using accounted.calls
    · simpa only [metrics] using accounted.failures
  · obtain ⟨history, after, visits, idle, metrics, onlyCached⟩ := exists_calmVisits_square
    have entries := visits.metricsAccount.2 idle onlyCached
    rw [metrics] at entries
    exact ⟨history, after, visits, idle, metrics, entries⟩

end Samples

end Program

end RequestEngine
