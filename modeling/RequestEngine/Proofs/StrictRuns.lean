import RequestEngine.Proofs.Counting
import RequestEngine.Proofs.Uncached

/-!
Contract: programs whose computations pass every failure on.

Owns:
- values that requests can be answered with, as far as their computations tell;
- computations that report nothing, hand on every failure as it is, and ask for
  certain requests only;
- where the failure of such a computation comes from, and that nothing but the
  diagnostics of this one place is reported;
- that nothing fails in such a computation if it has a value.

A failure ends every computation that it passes through, so one run meets at
most one. What may be asked for depends on the stack: this tells which requests
a cycle can consist of.

Does not own: the programs that this can be shown of.
-/

namespace RequestEngine

variable {Request : Type} {Value : Request → Type} {World : Type} {α β : Type}

/-! ### Events -/

namespace Event

/-- The request that an event is about. -/
def request? : Event Request Value World → Option Request
  | .received request _ | .finished request _ | .abandoned request => some request
  | .reported _ | .updated _ => none

/-- Nothing fails at the event, and nothing is reported. -/
def isSmooth : Event Request Value World → Bool
  | .received _ (.held _) | .received _ .computing | .finished _ (.ok _) | .updated _ => true
  | .received _ (.conflicting _) | .received _ (.refused _) | .received _ (.rejected _ _)
  | .finished _ (.error _) | .abandoned _ | .reported _ => false

theorem diagnostics_of_isSmooth {event : Event Request Value World} (smooth : event.isSmooth) :
    event.diagnostics = [] := by
  cases event with
  | received request reception => cases reception <;> first | rfl | cases smooth
  | finished request answer => rfl
  | abandoned request => rfl
  | reported diagnostic => cases smooth
  | updated change => rfl

end Event

/-- A history in which nothing fails reports nothing. -/
theorem diagnostics_of_smooth {history : List (Event Request Value World)}
    (smooth : ∀ event ∈ history, event.isSmooth) : history.flatMap Event.diagnostics = [] :=
  List.flatMap_eq_nil_iff.mpr fun event happened =>
    Event.diagnostics_of_isSmooth (smooth event happened)

/-! ### Computations -/

/-- A value that a request can be answered with: unless values of the request are
kept, some run of its computation ends with the value. -/
def Program.Yields [DecidableEq Request] (program : Program Request Value World)
    (request : Request) (value : Value request) : Prop :=
  (program.kind request).caching = .uncached → ∃ session history final,
    Run program (program.compute request) session history (some (.success value)) final

variable [DecidableEq Request] {program : Program Request Value World}

/-- A computation that asks for allowed requests only, hands every failure on as
it is, reports nothing, and fails by itself with certain errors only. -/
def Computation.Strict (program : Program Request Value World) (allowed : Request → Prop)
    (raises : ErrorChain → Prop) : Computation Request Value World α → Prop
  | .done _ | .abort _ => True
  | .fail (.computation error) => raises error
  | .fail (.cycle _) | .report _ _ => False
  | .ask request resume =>
      allowed request ∧
        (∀ value, program.Yields request value →
          (resume (.ok value)).Strict program allowed raises) ∧
        ∀ failure, resume (.error failure) = .fail failure
  | .activeRequests resume => ∀ displays, (resume displays).Strict program allowed raises
  | .isActive _ resume | .isCached _ resume =>
      ∀ holds, (resume holds).Strict program allowed raises
  | .read resume => ∀ world, (resume world).Strict program allowed raises
  | .update _ next => next.Strict program allowed raises

namespace Computation

variable {allowed : Request → Prop} {raises : ErrorChain → Prop}

theorem Strict.bind {computation : Computation Request Value World α}
    {next : α → Computation Request Value World β}
    (strict : computation.Strict program allowed raises)
    (nextStrict : ∀ value, (next value).Strict program allowed raises) :
    (computation.bind next).Strict program allowed raises := by
  induction computation with
  | done value => exact nextStrict value
  | fail failure =>
      cases failure with
      | cycle error => exact strict.elim
      | computation error => exact strict
  | abort message => trivial
  | ask request resume inductionHypothesis =>
      refine ⟨strict.1, fun value yields => inductionHypothesis _ (strict.2.1 value yields),
        fun failure => ?_⟩
      show (resume (.error failure)).bind next = .fail failure
      rw [strict.2.2 failure]
      rfl
  | activeRequests resume inductionHypothesis =>
      exact fun displays => inductionHypothesis displays (strict displays)
  | isActive request resume inductionHypothesis =>
      exact fun holds => inductionHypothesis holds (strict holds)
  | isCached request resume inductionHypothesis =>
      exact fun holds => inductionHypothesis holds (strict holds)
  | report diagnostic rest _ => exact strict.elim
  | read resume inductionHypothesis => exact fun world => inductionHypothesis world (strict world)
  | update change rest inductionHypothesis => exact inductionHypothesis strict

theorem strict_evaluate_bind {request : Request}
    {next : Value request → Computation Request Value World β} (isAllowed : allowed request)
    (nextStrict : ∀ value, program.Yields request value →
      (next value).Strict program allowed raises) :
    ((Computation.evaluate request).bind next).Strict program allowed raises :=
  ⟨isAllowed, nextStrict, fun _ => rfl⟩

theorem strict_evaluate {request : Request} (isAllowed : allowed request) :
    (Computation.evaluate request : Computation Request Value World _).Strict program allowed
      raises :=
  ⟨isAllowed, fun _ _ => trivial, fun _ => rfl⟩

end Computation

namespace Program

variable {computation : Computation Request Value World α}
variable {session middle final : Session Request Value World}
variable {history further : List (Event Request Value World)}

/-! ### Runs -/

/-- A run of a computation with a value goes on with what follows it. -/
theorem Run.bind {next : α → Computation Request Value World β} {value : α}
    {ended : Option (Outcome α)} {nextEnded : Option (Outcome β)}
    (runs : Run program computation session history ended middle)
    (ends : ended = some (.success value))
    (resumes : Run program (next value) middle further nextEnded final) :
    Run program (computation.bind next) session (history ++ further) nextEnded final := by
  induction runs with
  | underWay => cases ends
  | unnoticed _ _ => cases ends
  | done =>
      cases ends
      exact resumes
  | fail => cases ends
  | abort => cases ends
  | answered receives answers _ later => exact .answered receives answers (later ends resumes)
  | refused _ _ => cases ends
  | within _ _ _ => cases ends
  | @returned _ request resume _ _ _ _ _ _ _ _ _ receives computes concludes _ _ later =>
      show Run program (.ask request fun answer => (resume answer).bind next) _ _ _ _
      rw [List.cons_append, List.append_assoc, List.cons_append]
      exact .returned receives computes concludes (later ends resumes)
  | unkept _ _ _ _ => cases ends
  | abandoned _ _ _ => cases ends
  | activeRequests _ later => exact .activeRequests (later ends resumes)
  | isActive _ later => exact .isActive (later ends resumes)
  | isCached contains _ later => exact .isCached contains (later ends resumes)
  | isCachedRefused _ => cases ends
  | report _ later => exact .report (later ends resumes)
  | read _ later => exact .read (later ends resumes)
  | update _ later => exact .update (later ends resumes)

/-- A computation that fails at once does nothing else. -/
theorem Run.of_fail {failure : Failure} {ended : Option (Outcome α)}
    (runs : Run program (.fail failure) session history ended final) :
    history = [] ∧ ∀ outcome, ended = some outcome → outcome = .failed failure := by
  generalize isFailing : (Computation.fail failure : Computation Request Value World α) = failing
    at runs
  induction runs with
  | underWay => exact ⟨rfl, fun _ ends => by cases ends⟩
  | unnoticed _ inductionHypothesis =>
      exact ⟨(inductionHypothesis isFailing).1, fun _ ends => by cases ends⟩
  | fail =>
      cases isFailing
      exact ⟨rfl, fun _ ends => (Option.some.inj ends).symm⟩
  | _ => cases isFailing

/-- What may be asked for under a stack, such that no computation asks for
anything else, and what computations may raise. -/
structure Disciplined (program : Program Request Value World)
    (fits : List Request → Request → Prop) (raises : ErrorChain → Prop) : Prop where
  nested : ∀ {active request}, fits active request → request ∉ active →
    (program.compute request).Strict program (fits (active ++ [request])) raises

/-- Where a failure comes from, with the diagnostics reported there: a request
that was active already was asked for, or a computation raised an error. -/
inductive Blamed (program : Program Request Value World) (fits : List Request → Request → Prop)
    (raises : ErrorChain → Prop) : Failure → List Diagnostic → Prop where
  | cycle {active : List Request} {request : Request} {error : CycleError}
      (fitting : fits active request) (isActive : request ∈ active) :
      Blamed program fits raises (.cycle error)
        (Session.cycleReport program request (Session.cycleSteps request active))
  | raised {error : ErrorChain} (isRaised : raises error) :
      Blamed program fits raises (.computation error) []

omit [DecidableEq Request] in
/-- All events of a history are about requests that may be asked for. -/
def Concerns (fits : List Request → Request → Prop) (history : List (Event Request Value World)) :
    Prop :=
  ∀ event ∈ history, ∀ request, event.request? = some request → ∃ active, fits active request

section Concerns

variable {fits : List Request → Request → Prop} {event : Event Request Value World}
variable {active : List Request} {request other : Request}

omit [DecidableEq Request] in
theorem exists_fits (fitting : fits active request) (same : some request = some other) :
    ∃ active, fits active other :=
  ⟨active, Option.some.inj same ▸ fitting⟩

omit [DecidableEq Request] in
theorem concerns_nil : Concerns fits ([] : List (Event Request Value World)) := by
  intro event happened
  cases happened

omit [DecidableEq Request] in
theorem Concerns.cons (concerns : Concerns fits history)
    (first : ∀ request, event.request? = some request → ∃ active, fits active request) :
    Concerns fits (event :: history) := by
  intro other happened
  exact (List.mem_cons.mp happened).elim (fun same => same ▸ first) (concerns other)

omit [DecidableEq Request] in
theorem Concerns.append (concerns : Concerns fits history) (later : Concerns fits further) :
    Concerns fits (history ++ further) := by
  intro event happened
  exact (List.mem_append.mp happened).elim (concerns event) (later event)

end Concerns

/-- What the run of a strict computation tells. -/
structure Accountable (program : Program Request Value World)
    (fits : List Request → Request → Prop) (raises : ErrorChain → Prop)
    (history : List (Event Request Value World)) (ended : Option (Outcome α)) : Prop where
  /-- If there is a value, nothing has failed. -/
  smooth : ∀ value, ended = some (.success value) → ∀ event ∈ history, event.isSmooth
  /-- If there is a failure, it has one origin, and only that was reported. -/
  blamed : ∀ failure, ended = some (.failed failure) →
    Blamed program fits raises failure (history.flatMap Event.diagnostics)
  concerns : Concerns fits history

namespace Accountable

variable {fits : List Request → Request → Prop} {raises : ErrorChain → Prop}
variable {ended : Option (Outcome α)} {request : Request}

/-- Nothing has happened. -/
theorem nothing
    (blamed : ∀ failure, ended = some (.failed failure) → Blamed program fits raises failure []) :
    Accountable program fits raises [] ended where
  smooth := fun _ _ _ happened => by cases happened
  blamed := blamed
  concerns := concerns_nil

/-- Smooth events may come before. -/
theorem behind (accountable : Accountable program fits raises history ended)
    (earlier : List (Event Request Value World))
    (smooth : ∀ event ∈ earlier, event.isSmooth) (concerns : Concerns fits earlier) :
    Accountable program fits raises (earlier ++ history) ended where
  smooth := fun value ends event happened =>
    (List.mem_append.mp happened).elim (smooth event) (accountable.smooth value ends event)
  blamed := by
    intro failure ends
    rw [List.flatMap_append, diagnostics_of_smooth smooth]
    exact accountable.blamed failure ends
  concerns := concerns.append accountable.concerns

/-- What is told about the computation of a request that has no value is told
about its evaluation. -/
theorem evaluation {inner : List (Event Request Value World)} {closing : Event Request Value World}
    {nested : Option (Outcome (Value request))}
    (accountable : Accountable program fits raises inner nested)
    {active : List Request} (fitting : fits active request)
    (about : closing.request? = some request) (silent : closing.diagnostics = [])
    (unsuccessful : ∀ value, ended ≠ some (.success value))
    (handsOn : ∀ failure, ended = some (.failed failure) → nested = some (.failed failure)) :
    Accountable program fits raises (.received request .computing :: (inner ++ [closing])) ended
    where
  smooth := fun value ends => absurd ends (unsuccessful value)
  blamed := by
    intro failure ends
    have whole := accountable.blamed failure (handsOn failure ends)
    rw [List.flatMap_cons, List.flatMap_append, List.flatMap_singleton, silent, List.append_nil]
    exact whole
  concerns := by
    refine (accountable.concerns.append (concerns_nil.cons ?_)).cons fun _ => exists_fits fitting
    rw [about]
    exact fun _ => exists_fits fitting

end Accountable

variable {fits : List Request → Request → Prop} {raises : ErrorChain → Prop}

private theorem strict_of_computing {request : Request}
    {session entered : Session Request Value World} (disciplined : Disciplined program fits raises)
    (receives : session.receive program request = (.computing, entered))
    (allowed : fits session.evaluator.active request) :
    (program.compute request).Strict program (fits entered.evaluator.active) raises := by
  rw [Session.active_of_computing receives]
  exact disciplined.nested allowed (Session.not_active_of_computing receives)

private theorem yields_of_held {request : Request} {value : Value request}
    {session after : Session Request Value World}
    (receives : session.receive program request = (.held value, after)) :
    program.Yields request value := by
  intro policy
  cases Session.receive_eq_iff.mp receives with
  | held _ _ holds => simp [Core.held?, policy] at holds

/-- A strict computation that is handed a failure passes it on at once. -/
private theorem accountable_of_rejected {request : Request} {error : CycleError}
    {diagnostics : List Diagnostic} {ended : Option (Outcome α)}
    {session after final : Session Request Value World}
    (receives : session.receive program request = (.rejected error diagnostics, after))
    (allowed : fits session.evaluator.active request)
    (handedOn : Run program (.fail (.cycle error)) after history ended final) :
    Accountable program fits raises (.received request (.rejected error diagnostics) :: history)
      ended := by
  obtain ⟨rfl, endsSo⟩ := handedOn.of_fail
  refine ⟨fun value ends => ?_, fun failure ends => ?_, concerns_nil.cons fun _ =>
    exists_fits allowed⟩
  · cases endsSo _ ends
  · cases endsSo _ ends
    cases Session.receive_eq_iff.mp receives with
    | rejected _ _ _ isActive =>
        rw [List.flatMap_singleton]
        exact .cycle allowed isActive

private theorem accountable_of_returned {request : Request}
    {resume : Except Failure (Value request) → Computation Request Value World α}
    {session left final : Session Request Value World} {inner : List (Event Request Value World)}
    {answer : Except Failure (Value request)} {ended : Option (Outcome α)}
    (accountable : Accountable program fits raises inner (some (.ofAnswer answer)))
    (allowed : fits session.evaluator.active request)
    (handsOn : ∀ failure, resume (.error failure) = .fail failure)
    (resumes : Run program (resume answer) left history ended final)
    (later : ∀ value, answer = .ok value → Accountable program fits raises history ended) :
    Accountable program fits raises
      (.received request .computing :: (inner ++ .finished request answer :: history)) ended := by
  cases answer with
  | error failure =>
      rw [handsOn] at resumes
      obtain ⟨rfl, endsSo⟩ := resumes.of_fail
      apply accountable.evaluation allowed rfl rfl
      · intro value ends
        cases endsSo _ ends
      · intro other ends
        cases endsSo _ ends
        rfl
  | ok value =>
      have innerSmooth := accountable.smooth value rfl
      have whole := (later value rfl).behind
        (.received request .computing :: (inner ++ [.finished request (.ok value)])) ?_ ?_
      · simpa using whole
      · simp only [List.mem_cons, List.mem_append, List.not_mem_nil, or_false]
        rintro event (rfl | isInner | rfl)
        · rfl
        · exact innerSmooth event isInner
        · rfl
      · have closing :
            Concerns fits [(.finished request (.ok value) : Event Request Value World)] :=
          concerns_nil.cons fun _ => exists_fits allowed
        exact (accountable.concerns.append closing).cons fun _ => exists_fits allowed

/-- A strict computation is accountable, whichever way its run ends. -/
theorem Run.accountable {ended : Option (Outcome α)}
    (runs : Run program computation session history ended final)
    (disciplined : Disciplined program fits raises)
    (strict : computation.Strict program (fits session.evaluator.active) raises) :
    Accountable program fits raises history ended := by
  induction runs with
  | underWay => exact .nothing (by simp)
  | unnoticed _ inductionHypothesis =>
      exact ⟨by simp, by simp, (inductionHypothesis strict).concerns⟩
  | done => exact .nothing (by simp)
  | @fail _ failure _ =>
      cases failure with
      | cycle error => exact strict.elim
      | computation error =>
          refine .nothing fun failure ends => ?_
          cases ends
          exact .raised strict
  | abort => exact .nothing (by simp)
  | @answered _ request resume session after _ reception answer history ended receives answers
      resumes later =>
      obtain ⟨allowed, resumed, handsOn⟩ := strict
      have settled := Reception.ne_computing_of_answer answers
      have sameActive := Session.active_of_settled receives settled
      cases reception with
      | held value =>
          cases answers
          have yields := yields_of_held receives
          exact (later (sameActive ▸ resumed value yields)).behind [_] (by simp [Event.isSmooth])
            (concerns_nil.cons fun _ => exists_fits allowed)
      | rejected error diagnostics =>
          cases answers
          rw [handsOn] at resumes
          exact accountable_of_rejected receives allowed resumes
      | _ => cases answers
  | refused receives refuses =>
      exact ⟨by simp, by simp, concerns_nil.cons fun _ => exists_fits strict.1⟩
  | within receives _ inside =>
      have accountable := inside (strict_of_computing disciplined receives strict.1)
      exact ⟨by simp, by simp, accountable.concerns.cons fun _ => exists_fits strict.1⟩
  | returned receives computes concludes resumes inside later =>
      obtain ⟨allowed, resumed, handsOn⟩ := strict
      have accountable := inside (strict_of_computing disciplined receives allowed)
      apply accountable_of_returned accountable allowed handsOn resumes
      rintro value rfl
      have sameActive := (Session.finishes_of_concluded concludes).active_eq
      rw [active_of_computed receives computes, List.dropLast_concat] at sameActive
      exact later (sameActive ▸ resumed value fun _ => ⟨_, _, _, computes⟩)
  | unkept receives _ concludes inside =>
      have accountable := inside (strict_of_computing disciplined receives strict.1)
      exact accountable.evaluation strict.1 rfl rfl (by simp) (by simp)
  | abandoned receives _ inside =>
      have accountable := inside (strict_of_computing disciplined receives strict.1)
      exact accountable.evaluation strict.1 rfl rfl (by simp) (by simp)
  | activeRequests _ later => exact later (strict _)
  | isActive _ later => exact later (strict _)
  | isCached _ _ later => exact later (strict _)
  | isCachedRefused _ => exact .nothing (by simp)
  | report _ _ => exact strict.elim
  | read _ later => exact later (strict _)
  | update _ later =>
      exact (later strict).behind [_] (by simp [Event.isSmooth])
        (concerns_nil.cons fun _ same => by cases same)

end Program

end RequestEngine
