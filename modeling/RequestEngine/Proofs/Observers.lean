import RequestEngine.Fixtures
import RequestEngine.Proofs.Counting
import RequestEngine.Proofs.Registration
import RequestEngine.Proofs.Uncached

/-!
Contract: observers of an evaluator do not interfere with it.

Owns:
- the view of a session: what is left of it without its observers, namely its
  options, its recorded dependencies, its notifications with their times, and
  its log;
- that every operation of an evaluator turns equal views into equal views;
- calls from outside, one after the other, and the moments in them.

Two sessions with the same view are compared event by event. No observer is
assumed to be attached to either of them, or to both.

Does not own: what an observer is told.
-/

namespace RequestEngine

/-- A session without its observers. -/
structure View (Request : Type) (Value : Request → Type) (World : Type) where
  core : Core Request Value World
  zones : Registry × List Nat
  diagnostics : Diagnostics
  metrics : Metrics

namespace Session

variable {Request : Type} {Value : Request → Type} {World : Type}
variable {program : Program Request Value World} {request : Request}
variable {session left right leftAfter rightAfter : Session Request Value World}

def view (session : Session Request Value World) : View Request Value World where
  core := session.core
  zones := session.zones
  diagnostics := session.diagnostics
  metrics := session.evaluator.metrics

theorem core_of_view (same : left.view = right.view) : left.core = right.core :=
  congrArg View.core same

theorem active_of_view (same : left.view = right.view) :
    left.evaluator.active = right.evaluator.active :=
  congrArg (Core.active ∘ View.core) same

theorem cache_of_view (same : left.view = right.view) :
    left.evaluator.cache = right.evaluator.cache :=
  congrArg (Core.cache ∘ View.core) same

theorem world_of_view (same : left.view = right.view) : left.world = right.world :=
  congrArg (Core.world ∘ View.core) same

/-! ### Operations on views -/

@[simp]
theorem view_notifyFinished (kind : String) :
    (session.notifyFinished kind).view = session.view := by
  simp only [view, core_notifyFinished, zones_notifyFinished, diagnostics_notifyFinished,
    evaluator_notifyFinished]

theorem view_reported (same : left.view = right.view) (diagnostics : List Diagnostic) :
    (left.reported diagnostics).view = (right.reported diagnostics).view :=
  congrArg (fun view : View Request Value World =>
    { view with diagnostics := view.diagnostics ++ diagnostics }) same

theorem view_updated (same : left.view = right.view) (change : World → World) :
    ({ left with world := change left.world } : Session Request Value World).view =
      ({ right with world := change right.world } : Session Request Value World).view :=
  congrArg (fun view : View Request Value World =>
    { view with core := { view.core with world := change view.core.world } }) same

theorem view_countHit :
    (session.countHit program request).view =
      { session.view with
        metrics := session.view.metrics.countHit (program.kind request).caching } := by
  simp only [view, core_countHit, zones_countHit, diagnostics_countHit, metrics_countHit]

theorem view_entered :
    (session.entered program request).view =
      { session.view with
        core := session.view.core.entered request
        metrics := { session.view.metrics with
          computations := session.view.metrics.computations + 1 } } := by
  simp only [view, core_entered, zones_entered, diagnostics_entered, metrics_entered]

variable [DecidableEq Request]

@[simp]
theorem view_recorded : (session.recorded request).view = session.view := rfl

theorem view_rejected :
    (session.rejected program request).view =
      { session.view with
        diagnostics := session.view.diagnostics ++
          cycleReport program request (cycleSteps request session.view.core.active)
        metrics := { session.view.metrics with
          cyclesDetected := session.view.metrics.cyclesDetected + 1 } } := by
  simp only [view, core_rejected, zones_rejected, diagnostics_rejected, metrics_rejected]
  rfl

/-! ### Taking a request up -/

omit [DecidableEq Request] in
/-- Zones are met alike. -/
theorem meets_of_view {zone : ZoneDefinition} {conflict : Option ZoneConflict}
    (same : left.view = right.view) (meets : left.meetZone zone = (conflict, leftAfter)) :
    ∃ other, right.meetZone zone = (conflict, other) ∧ leftAfter.view = other.view := by
  have sameRegistry : left.registry = right.registry := congrArg (Prod.fst ∘ View.zones) same
  have sameKnown : left.evaluator.knownZones = right.evaluator.knownZones :=
    congrArg (Prod.snd ∘ View.zones) same
  have viewAfter : ∀ registry known, { left.view with zones := (registry, known) } =
      { right.view with zones := (registry, known) } := by
    intro registry known
    rw [same]
  unfold meetZone at meets ⊢
  rw [sameKnown] at meets
  split at meets
  case isTrue isKnown =>
    cases meets
    exact ⟨right, by rw [if_pos isKnown], same⟩
  case isFalse unknown =>
    rw [if_neg unknown]
    unfold registerZone at meets ⊢
    simp only [sameRegistry] at meets
    split at meets
    case h_1 held =>
      cases meets
      rw [held]
      exact ⟨_, rfl, viewAfter _ _⟩
    case h_2 claimed =>
      cases meets
      rw [claimed]
      exact ⟨_, rfl, viewAfter _ _⟩
    case h_3 registry added =>
      cases meets
      rw [added]
      exact ⟨_, rfl, viewAfter _ _⟩

/-- Requests are taken up alike. -/
theorem receive_of_view {reception : Reception (Value request)} (same : left.view = right.view)
    (receives : left.receive program request = (reception, leftAfter)) :
    ∃ other, right.receive program request = (reception, other) ∧ leftAfter.view = other.view := by
  have sameCore := core_of_view same
  have sameActive := active_of_view same
  cases receive_eq_iff.mp receives with
  | conflicting meets =>
      obtain ⟨other, meetsToo, alike⟩ := meets_of_view same meets
      exact ⟨other, receive_eq_iff.mpr (.conflicting meetsToo), alike⟩
  | refused meets clashes =>
      obtain ⟨other, meetsToo, alike⟩ := meets_of_view same meets
      rw [sameCore] at clashes
      exact ⟨_, receive_eq_iff.mpr (.refused meetsToo clashes), alike⟩
  | held meets noClash holds =>
      obtain ⟨other, meetsToo, alike⟩ := meets_of_view same meets
      rw [sameCore] at noClash holds
      refine ⟨_, receive_eq_iff.mpr (.held meetsToo noClash holds), ?_⟩
      simp only [view_countHit, view_recorded, alike]
  | rejected meets noClash vacant isActive =>
      obtain ⟨other, meetsToo, alike⟩ := meets_of_view same meets
      rw [sameCore] at noClash vacant
      have sameError : left.cycleError program request = right.cycleError program request :=
        cycleError_eq_of_active sameActive
      rw [sameActive] at isActive
      rw [sameError, sameActive]
      refine ⟨_, receive_eq_iff.mpr (.rejected meetsToo noClash vacant isActive), ?_⟩
      simp only [view_rejected, view_recorded, alike]
  | computing meets noClash vacant notActive =>
      obtain ⟨other, meetsToo, alike⟩ := meets_of_view same meets
      rw [sameCore] at noClash vacant
      rw [sameActive] at notActive
      refine ⟨_, receive_eq_iff.mpr (.computing meetsToo noClash vacant notActive), ?_⟩
      simp only [view_entered, view_recorded, alike]

/-! ### Finishing a computation -/

/-- Values are kept alike, or clash alike. -/
theorem kept_of_view (program : Program Request Value World) (same : left.view = right.view)
    (value : Value request) :
    match left.kept program request value with
    | .error clash => right.kept program request value = .error clash
    | .ok stored =>
        ∃ other, right.kept program request value = .ok other ∧ stored.view = other.view := by
  have sameCache := cache_of_view same
  unfold kept
  cases (program.kind request).caching with
  | uncached => exact ⟨right, rfl, same⟩
  | cached =>
      simp only [sameCache]
      cases right.evaluator.cache.insert program.kind request value with
      | error clash => rfl
      | ok inserted =>
          refine ⟨_, rfl, ?_⟩
          show { left.view with core := ⟨left.evaluator.active, inserted.2, left.world⟩ } =
            { right.view with core := ⟨right.evaluator.active, inserted.2, right.world⟩ }
          rw [active_of_view same, world_of_view same, same]
  | separatelyCached =>
      exact ⟨_, rfl, view_updated same fun world => program.store world request value⟩

/-- Computations are concluded alike, in whichever way they end. -/
theorem concluded_of_view {outcome concluded : Outcome (Value request)}
    (same : left.view = right.view)
    (concludes : left.concluded program request outcome = (concluded, leftAfter)) :
    ∃ other, right.concluded program request outcome = (concluded, other) ∧
      leftAfter.view = other.view := by
  have sameFinished : (left.notifyFinished (program.kind request).name).view =
      (right.notifyFinished (program.kind request).name).view := by
    rw [view_notifyFinished, view_notifyFinished, same]
  have samePopped :
      ((left.notifyFinished (program.kind request).name).popped program request).view =
        ((right.notifyFinished (program.kind request).name).popped program request).view :=
    congrArg (fun view : View Request Value World => { view with core := view.core.popped })
      sameFinished
  cases outcome with
  | aborted message =>
      cases concludes
      exact ⟨_, rfl, sameFinished⟩
  | tooDeep =>
      cases concludes
      exact ⟨_, rfl, sameFinished⟩
  | failed failure =>
      cases concludes
      exact ⟨_, rfl, congrArg (fun view : View Request Value World =>
        { view with metrics := { view.metrics with failures := view.metrics.failures + 1 } })
        samePopped⟩
  | success value =>
      have keeps := kept_of_view program samePopped value
      simp only [Session.concluded] at concludes ⊢
      split at keeps
      case h_1 clash clashes =>
        rw [clashes] at concludes
        cases concludes
        rw [keeps]
        exact ⟨_, rfl, samePopped⟩
      case h_2 stored stores =>
        rw [stores] at concludes
        cases concludes
        obtain ⟨other, storesToo, sameStored⟩ := keeps
        rw [storesToo]
        exact ⟨other, rfl, sameStored⟩

end Session

namespace Program

variable {Request : Type} [DecidableEq Request] {Value : Request → Type} {World : Type} {α : Type}
variable {program : Program Request Value World} {depth : Nat}
variable {left right leftAfter : Session Request Value World}

/-! ### Evaluations and runs -/

/-- A computation runs alike when what it asks for is evaluated alike. -/
private theorem run_of_view_of_evaluate {computation : Computation Request Value World α}
    {outcome : Outcome α}
    (evaluates : ∀ {request : Request} {left right leftAfter : Session Request Value World}
      {outcome : Outcome (Value request)}, left.view = right.view →
      program.evaluate depth request left = (outcome, leftAfter) →
      ∃ other, program.evaluate depth request right = (outcome, other) ∧
        leftAfter.view = other.view)
    (same : left.view = right.view)
    (runs : program.run depth computation left = (outcome, leftAfter)) :
    ∃ other, program.run depth computation right = (outcome, other) ∧
      leftAfter.view = other.view := by
  induction computation generalizing left right with
  | done value =>
      cases runs
      exact ⟨right, rfl, same⟩
  | fail failure =>
      cases runs
      exact ⟨right, rfl, same⟩
  | abort message =>
      cases runs
      exact ⟨right, rfl, same⟩
  | ask request resume later =>
      rcases evaluated : program.evaluate depth request left with ⟨nested, middle⟩
      obtain ⟨other, evaluatedToo, sameMiddle⟩ := evaluates same evaluated
      unfold run at runs later ⊢
      rw [Computation.run, evaluated] at runs
      rw [Computation.run, evaluatedToo]
      cases nested with
      | success value => exact later _ sameMiddle runs
      | failed failure => exact later _ sameMiddle runs
      | aborted message =>
          cases runs
          exact ⟨other, rfl, sameMiddle⟩
      | tooDeep =>
          cases runs
          exact ⟨other, rfl, sameMiddle⟩
  | activeRequests resume later =>
      have next := later (right.evaluator.active.map program.display) same
      rw [← Session.active_of_view same] at next
      unfold run at runs next ⊢
      rw [Computation.run, ← Session.active_of_view same]
      exact next runs
  | isActive request resume later =>
      unfold run at runs later ⊢
      rw [Computation.run, Session.active_of_view same] at runs
      exact later _ same runs
  | isCached request resume later =>
      unfold run at runs later ⊢
      rw [Computation.run, Session.cache_of_view same] at runs
      rw [Computation.run]
      split at runs
      case h_1 held contains => exact later _ same runs
      case h_2 clash contains =>
        cases runs
        exact ⟨right, rfl, same⟩
  | report diagnostic next later => exact later (Session.view_reported same _) runs
  | read resume later =>
      unfold run at runs later ⊢
      rw [Computation.run, Session.world_of_view same] at runs
      exact later _ same runs
  | update change next later => exact later (Session.view_updated same _) runs

/-- Requests are evaluated alike at every depth, in whichever way it ends. -/
theorem evaluate_of_view {request : Request} {outcome : Outcome (Value request)}
    (same : left.view = right.view)
    (evaluates : program.evaluate depth request left = (outcome, leftAfter)) :
    ∃ other, program.evaluate depth request right = (outcome, other) ∧
      leftAfter.view = other.view := by
  induction depth generalizing request left right leftAfter with
  | zero =>
      cases evaluates
      exact ⟨right, rfl, same⟩
  | succ depth deeper =>
      rcases receives : left.receive program request with ⟨reception, received⟩
      obtain ⟨other, receivesToo, sameReceived⟩ := Session.receive_of_view same receives
      rw [evaluate_succ, receives] at evaluates
      rw [evaluate_succ, receivesToo]
      cases reception with
      | computing =>
          rcases computes : program.run depth (program.compute request) received with
            ⟨inside, computed⟩
          obtain ⟨otherComputed, computesToo, sameComputed⟩ :=
            run_of_view_of_evaluate deeper sameReceived computes
          simp only [computes] at evaluates
          simp only [computesToo]
          exact Session.concluded_of_view sameComputed evaluates
      | _ =>
          cases evaluates
          exact ⟨other, rfl, sameReceived⟩

theorem run_of_view {computation : Computation Request Value World α} {outcome : Outcome α}
    (same : left.view = right.view)
    (runs : program.run depth computation left = (outcome, leftAfter)) :
    ∃ other, program.run depth computation right = (outcome, other) ∧
      leftAfter.view = other.view :=
  run_of_view_of_evaluate evaluate_of_view same runs

/-- The same events happen alike, up to any moment. -/
theorem Run.of_view {computation : Computation Request Value World α}
    {history : List (Event Request Value World)} {ended : Option (Outcome α)}
    (runs : Run program computation left history ended leftAfter)
    (same : left.view = right.view) :
    ∃ other, Run program computation right history ended other ∧ leftAfter.view = other.view := by
  induction runs generalizing right with
  | underWay => exact ⟨right, .underWay, same⟩
  | unnoticed _ inductionHypothesis =>
      obtain ⟨other, ends, alike⟩ := inductionHypothesis same
      exact ⟨other, .unnoticed ends, alike⟩
  | done => exact ⟨right, .done, same⟩
  | fail => exact ⟨right, .fail, same⟩
  | abort => exact ⟨right, .abort, same⟩
  | answered receives answers _ later =>
      obtain ⟨received, receivesToo, sameReceived⟩ := Session.receive_of_view same receives
      obtain ⟨other, resumes, alike⟩ := later sameReceived
      exact ⟨other, .answered receivesToo answers resumes, alike⟩
  | refused receives refuses =>
      obtain ⟨other, receivesToo, alike⟩ := Session.receive_of_view same receives
      exact ⟨other, .refused receivesToo refuses, alike⟩
  | within receives _ inside =>
      obtain ⟨entered, receivesToo, sameEntered⟩ := Session.receive_of_view same receives
      obtain ⟨other, computes, alike⟩ := inside sameEntered
      exact ⟨other, .within receivesToo computes, alike⟩
  | returned receives _ concludes _ inside later =>
      obtain ⟨entered, receivesToo, sameEntered⟩ := Session.receive_of_view same receives
      obtain ⟨computed, computes, sameComputed⟩ := inside sameEntered
      obtain ⟨left, concludesToo, sameLeft⟩ := Session.concluded_of_view sameComputed concludes
      obtain ⟨other, resumes, alike⟩ := later sameLeft
      exact ⟨other, .returned receivesToo computes concludesToo resumes, alike⟩
  | unkept receives _ concludes inside =>
      obtain ⟨entered, receivesToo, sameEntered⟩ := Session.receive_of_view same receives
      obtain ⟨computed, computes, sameComputed⟩ := inside sameEntered
      obtain ⟨other, concludesToo, alike⟩ := Session.concluded_of_view sameComputed concludes
      exact ⟨other, .unkept receivesToo computes concludesToo, alike⟩
  | abandoned receives _ inside =>
      obtain ⟨entered, receivesToo, sameEntered⟩ := Session.receive_of_view same receives
      obtain ⟨computed, computes, sameComputed⟩ := inside sameEntered
      refine ⟨_, .abandoned receivesToo computes, ?_⟩
      rw [Session.view_notifyFinished, Session.view_notifyFinished, sameComputed]
  | activeRequests _ later =>
      obtain ⟨other, resumes, alike⟩ := later same
      rw [Session.active_of_view same] at resumes
      exact ⟨other, .activeRequests resumes, alike⟩
  | isActive _ later =>
      obtain ⟨other, resumes, alike⟩ := later same
      simp only [Session.active_of_view same] at resumes
      exact ⟨other, .isActive resumes, alike⟩
  | isCached contains _ later =>
      obtain ⟨other, resumes, alike⟩ := later same
      rw [Session.cache_of_view same] at contains
      exact ⟨other, .isCached contains resumes, alike⟩
  | isCachedRefused contains =>
      rw [Session.cache_of_view same] at contains
      exact ⟨right, .isCachedRefused contains, same⟩
  | report _ later =>
      obtain ⟨other, resumes, alike⟩ := later (Session.view_reported same _)
      exact ⟨other, .report resumes, alike⟩
  | read _ later =>
      obtain ⟨other, resumes, alike⟩ := later same
      rw [Session.world_of_view same] at resumes
      exact ⟨other, .read resumes, alike⟩
  | update _ later =>
      obtain ⟨other, resumes, alike⟩ := later (Session.view_updated same _)
      exact ⟨other, .update resumes, alike⟩

end Program

/-! ### Calls from outside -/

/-- A call from outside. -/
inductive Call (Request : Type) (Value : Request → Type) where
  | evaluate (request : Request)
  | evaluateOrDefault (request : Request) (default : Value request)

namespace Call

variable {Request : Type} {Value : Request → Type} {World : Type}

def request : Call Request Value → Request
  | .evaluate request | .evaluateOrDefault request _ => request

def computation (vocabulary : Vocabulary Request) :
    (call : Call Request Value) → Computation Request Value World (Value call.request)
  | .evaluate request => Computation.evaluate request
  | .evaluateOrDefault request default =>
      Computation.evaluateOrDefault vocabulary.display request default

end Call

/-- How a call has ended, with the view after it. -/
structure CallResult (Request : Type) (Value : Request → Type) (World : Type) where
  call : Call Request Value
  outcome : Outcome (Value call.request)
  view : View Request Value World

namespace Program

variable {Request : Type} [DecidableEq Request] {Value : Request → Type} {World : Type}
variable {program : Program Request Value World} {depth : Nat}
variable {left right moment : Session Request Value World}

/-- The results of calls one after the other. A call that ends abruptly does not
keep the next one from being made. -/
def serve (program : Program Request Value World) (depth : Nat) :
    List (Call Request Value) → Session Request Value World →
      List (CallResult Request Value World)
  | [], _ => []
  | call :: later, session =>
      let (outcome, after) := program.run depth (call.computation program.toVocabulary) session
      ⟨call, outcome, after.view⟩ :: program.serve depth later after

/-- The moments in calls one after the other, with what has happened until then. -/
inductive Serves (program : Program Request Value World) :
    List (Call Request Value) → Session Request Value World →
      List (Event Request Value World) → Session Request Value World → Prop where
  | between {calls : List (Call Request Value)} {session : Session Request Value World} :
      Serves program calls session [] session
  | during {call : Call Request Value} {later : List (Call Request Value)}
      {session moment : Session Request Value World} {history : List (Event Request Value World)}
      (runs : Run program (call.computation program.toVocabulary) session history none moment) :
      Serves program (call :: later) session history moment
  | next {call : Call Request Value} {later : List (Call Request Value)}
      {session after moment : Session Request Value World}
      {history further : List (Event Request Value World)} {outcome : Outcome (Value call.request)}
      (runs : Run program (call.computation program.toVocabulary) session history (some outcome)
        after)
      (serves : Serves program later after further moment) :
      Serves program (call :: later) session (history ++ further) moment

private theorem Serves.of_view {calls : List (Call Request Value)}
    {history : List (Event Request Value World)} (serves : Serves program calls left history moment)
    (same : left.view = right.view) :
    ∃ other, Serves program calls right history other ∧ moment.view = other.view := by
  induction serves generalizing right with
  | between => exact ⟨right, .between, same⟩
  | during runs =>
      obtain ⟨other, runsToo, alike⟩ := runs.of_view same
      exact ⟨other, .during runsToo, alike⟩
  | next runs _ later =>
      obtain ⟨after, runsToo, sameAfter⟩ := runs.of_view same
      obtain ⟨other, servesToo, alike⟩ := later sameAfter
      exact ⟨other, .next runsToo servesToo, alike⟩

/-- Observers do not interfere. Evaluators with the same view serve any calls
with the same results, and the same views at the same moments. -/
theorem observers_do_not_interfere (program : Program Request Value World)
    (calls : List (Call Request Value)) (same : left.view = right.view) :
    (∀ depth, program.serve depth calls left = program.serve depth calls right) ∧
      ∀ history view,
        (∃ moment, Serves program calls left history moment ∧ moment.view = view) ↔
          ∃ moment, Serves program calls right history moment ∧ moment.view = view := by
  constructor
  · intro depth
    induction calls generalizing left right with
    | nil => rfl
    | cons call later inductionHypothesis =>
        rcases runs : program.run depth (call.computation program.toVocabulary) left with
          ⟨outcome, after⟩
        obtain ⟨other, runsToo, sameAfter⟩ := run_of_view same runs
        simp only [serve, runs, runsToo, sameAfter, inductionHypothesis sameAfter]
  · intro history view
    constructor
    · rintro ⟨moment, serves, rfl⟩
      obtain ⟨other, servesToo, alike⟩ := serves.of_view same
      exact ⟨other, servesToo, alike.symm⟩
    · rintro ⟨moment, serves, rfl⟩
      obtain ⟨other, servesToo, alike⟩ := serves.of_view same.symm
      exact ⟨other, servesToo, alike.symm⟩

/-- A cycle is met with every observer attached, and with none. Only one of the
evaluators sends notifications. -/
theorem observers_do_not_interfere_cycleA :
    let program := Fixtures.program []
    let alone : Session FixtureRequest FixtureValue FixtureState :=
      { evaluator := .fresh {} false, world := {} }
    let options : Options := { recordDependencies := true, debugCycles := true, pretty := false }
    let watched : Session FixtureRequest FixtureValue FixtureState :=
      { evaluator := .fresh options true, clock := [{ nanoseconds := 5 }], world := {} }
    let calls : List (Call FixtureRequest FixtureValue) :=
      [.evaluate (.cycleA 7), .evaluateOrDefault (.cycleB 7) (0 : UInt32)]
    alone.view = watched.view ∧
      (program.evaluate 4 (.cycleA 7) alone).2.notifications.length = 0 ∧
      (program.evaluate 4 (.cycleA 7) watched).2.notifications.length = 4 ∧
      ∀ depth, program.serve depth calls alone = program.serve depth calls watched := by
  intro program alone options watched calls
  have same : alone.view = watched.view := rfl
  exact ⟨same, rfl, rfl, (observers_do_not_interfere program calls same).1⟩

end Program

end RequestEngine
