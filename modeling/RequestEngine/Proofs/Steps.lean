import RequestEngine.Proofs.Run

/-!
Contract: runs as sequences of steps.

Owns:
- one event as a step of a session, and sequences of such steps;
- the requests whose computations have started and not finished;
- cutting a run at any of its moments.

A step says nothing about the computation that causes it. What all steps
preserve, all runs preserve.

Does not own: the sessions that an evaluator goes through in its lifetime;
`Proofs.Lifetime` describes those.
-/

namespace RequestEngine

variable {Request : Type} [DecidableEq Request] {Value : Request → Type} {World : Type}

/-- The open requests after an event, outermost first. Only the innermost one
can finish. -/
def Event.track (opened : List Request) : Event Request Value World → Option (List Request)
  | .received request .computing => some (opened ++ [request])
  | .finished request _ => if opened.getLast? = some request then some opened.dropLast else none
  | .received _ _ | .abandoned _ | .reported _ | .updated _ => some opened

/-- The requests whose computations have started and not finished in a history
that begins with some open requests, outermost first. -/
def unfinished (opened : List Request) (history : List (Event Request Value World)) :
    Option (List Request) :=
  history.foldlM Event.track opened

@[simp]
theorem unfinished_nil (opened : List Request) :
    unfinished opened ([] : List (Event Request Value World)) = some opened := rfl

@[simp]
theorem unfinished_cons (opened : List Request) (event : Event Request Value World)
    (later : List (Event Request Value World)) :
    unfinished opened (event :: later) = (event.track opened).bind (unfinished · later) := rfl

theorem unfinished_append (opened : List Request)
    (earlier later : List (Event Request Value World)) :
    unfinished opened (earlier ++ later) =
      (unfinished opened earlier).bind (unfinished · later) := by
  unfold unfinished
  rw [List.foldlM_append]
  rfl

/-- A computation is open below everything that it leaves open. -/
theorem unfinished_computing {inner : List (Event Request Value World)} {opened : List Request}
    (tracks : ∀ outer, unfinished outer inner = some (outer ++ opened)) (request : Request)
    (later : List (Event Request Value World)) (outer : List Request) :
    unfinished outer (.received request .computing :: (inner ++ later)) =
      unfinished (outer ++ request :: opened) later := by
  rw [unfinished_cons]
  show unfinished (outer ++ [request]) (inner ++ later) = _
  rw [unfinished_append, tracks, List.append_assoc]
  rfl

theorem unfinished_finished (outer : List Request) (request : Request)
    (answer : Except Failure (Value request)) (later : List (Event Request Value World)) :
    unfinished (outer ++ [request]) (.finished request answer :: later) =
      unfinished outer later := by
  rw [unfinished_cons, Event.track, if_pos List.getLast?_concat, List.dropLast_concat]
  rfl

theorem Event.track_received {request : Request} {reception : Reception (Value request)}
    (settled : reception ≠ .computing) (opened : List Request) :
    (Event.received request reception : Event Request Value World).track opened = some opened := by
  cases reception with
  | computing => exact absurd rfl settled
  | _ => rfl

namespace Program

variable {program : Program Request Value World}
variable {session middle after final : Session Request Value World}

/-- One event as a step of a session. Only the topmost request can finish. -/
inductive Step (program : Program Request Value World) :
    Session Request Value World → Event Request Value World → Session Request Value World → Prop
    where
  | received {session after : Session Request Value World} {request : Request}
      {reception : Reception (Value request)}
      (receives : session.receive program request = (reception, after)) :
      Step program session (.received request reception) after
  | finished {session after : Session Request Value World} {request : Request}
      {answer : Except Failure (Value request)} {outcome : Outcome (Value request)}
      (onTop : session.evaluator.active.getLast? = some request)
      (concludes : session.concluded program request (.ofAnswer answer) = (outcome, after)) :
      Step program session (.finished request answer) after
  | abandoned {session : Session Request Value World} {request : Request} :
      Step program session (.abandoned request) (session.notifyFinished (program.kind request).name)
  | reported {session : Session Request Value World} {diagnostic : Diagnostic} :
      Step program session (.reported diagnostic) (session.reported [diagnostic])
  | updated {session : Session Request Value World} {change : World → World} :
      Step program session (.updated change) { session with world := change session.world }

inductive Steps (program : Program Request Value World) :
    Session Request Value World → List (Event Request Value World) →
      Session Request Value World → Prop
    where
  | nil {session : Session Request Value World} : Steps program session [] session
  | cons {session middle final : Session Request Value World} {event : Event Request Value World}
      {later : List (Event Request Value World)}
      (first : Step program session event middle) (rest : Steps program middle later final) :
      Steps program session (event :: later) final

namespace Steps

variable {earlier later : List (Event Request Value World)} {event : Event Request Value World}

theorem append (first : Steps program session earlier middle)
    (second : Steps program middle later final) :
    Steps program session (earlier ++ later) final := by
  induction first with
  | nil => exact second
  | cons step _ inductionHypothesis => exact .cons step (inductionHypothesis second)

end Steps

/-! ### Runs are sequences of steps -/

section Runs

variable {α : Type} {computation : Computation Request Value World α}
variable {history : List (Event Request Value World)} {ended : Option (Outcome α)}

/-- A step changes the stack as its event says. -/
theorem Step.track_active {event : Event Request Value World}
    (step : Step program session event after) :
    event.track session.evaluator.active = some after.evaluator.active := by
  cases step with
  | @received _ request reception receives =>
      by_cases settled : reception = .computing
      · subst settled
        exact congrArg (some ∘ Core.active) (Session.core_of_computing receives).symm
      · rw [Event.track_received settled]
        exact congrArg (some ∘ Core.active) (Session.core_of_settled receives settled).symm
  | finished onTop concludes =>
      have leaves := (Session.finishes_of_concluded concludes).active_eq
      rw [Event.track, if_pos onTop, leaves]
  | abandoned =>
      rw [Session.evaluator_notifyFinished]
      rfl
  | reported => rfl
  | updated => rfl

private theorem active_of_computing {request : Request}
    {entered computed : Session Request Value World} {opened : List Request}
    (receives : session.receive program request = (.computing, entered))
    (active : computed.evaluator.active = entered.evaluator.active ++ opened) :
    computed.evaluator.active = session.evaluator.active ++ request :: opened := by
  have enteredActive := Session.active_of_computing receives
  rw [active, enteredActive, List.append_assoc]
  rfl

/-- A run opens computations on top of the stack, and none of them is left open
when it is answered. -/
theorem Run.nests (runs : Run program computation session history ended final) :
    ∃ opened, (∀ outer, unfinished outer history = some (outer ++ opened)) ∧
      final.evaluator.active = session.evaluator.active ++ opened ∧
      ∀ answer, ended = some (.ofAnswer answer) → opened = [] := by
  induction runs with
  | underWay => exact ⟨[], by simp, by simp, by simp⟩
  | unnoticed _ inductionHypothesis =>
      obtain ⟨opened, tracks, active, _⟩ := inductionHypothesis
      exact ⟨opened, tracks, active, by simp⟩
  | done => exact ⟨[], by simp, by simp, by simp⟩
  | fail => exact ⟨[], by simp, by simp, by simp⟩
  | abort => exact ⟨[], by simp, by simp, by simp⟩
  | answered receives answers _ later =>
      obtain ⟨opened, tracks, active, closed⟩ := later
      have settled := Reception.ne_computing_of_answer answers
      have sameActive := Session.active_of_settled receives settled
      refine ⟨opened, fun outer => ?_, active.trans (congrArg (· ++ opened) sameActive), closed⟩
      rw [unfinished_cons, Event.track_received settled]
      exact tracks outer
  | refused receives refuses =>
      have settled := Reception.ne_computing_of_refusal refuses
      have sameActive := Session.active_of_settled receives settled
      refine ⟨[], fun outer => ?_, sameActive.trans (List.append_nil _).symm, fun _ _ => rfl⟩
      rw [unfinished_cons, Event.track_received settled]
      simp
  | @within _ request _ _ _ _ _ receives _ inside =>
      obtain ⟨opened, tracks, active, _⟩ := inside
      refine ⟨request :: opened, fun outer => ?_, active_of_computing receives active, by simp⟩
      simpa using unfinished_computing tracks request [] outer
  | @returned _ request _ _ _ _ _ _ answer _ _ _ receives _ concludes _ inside later =>
      obtain ⟨opened, tracks, active, closed⟩ := inside
      obtain rfl := closed answer rfl
      obtain ⟨further, tracksFurther, activeFurther, closedFurther⟩ := later
      refine ⟨further, fun outer => ?_, ?_, closedFurther⟩
      · rw [unfinished_computing tracks, unfinished_finished, tracksFurther]
      · have finishes := Session.finishes_of_concluded concludes
        rw [activeFurther, finishes.active_eq, active_of_computing receives active,
          List.dropLast_concat]
  | @unkept _ request _ _ _ _ _ answer _ _ receives _ concludes inside =>
      obtain ⟨opened, tracks, active, closed⟩ := inside
      obtain rfl := closed answer rfl
      refine ⟨[], fun outer => ?_, ?_, fun _ _ => rfl⟩
      · rw [unfinished_computing tracks, unfinished_finished, unfinished_nil, List.append_nil]
      · have finishes := Session.finishes_of_concluded concludes
        rw [finishes.active_eq, active_of_computing receives active, List.dropLast_concat,
          List.append_nil]
  | @abandoned _ request _ _ _ _ _ _ receives _ inside =>
      obtain ⟨opened, tracks, active, _⟩ := inside
      refine ⟨request :: opened, fun outer => ?_, ?_, fun answer ends => ?_⟩
      · rw [unfinished_computing tracks]
        rfl
      · rw [Session.evaluator_notifyFinished]
        exact active_of_computing receives active
      · exact absurd ends Outcome.aborted_not_answered
  | activeRequests _ later => exact later
  | isActive _ later => exact later
  | isCached _ _ later => exact later
  | isCachedRefused _ => exact ⟨[], by simp, by simp, fun _ _ => rfl⟩
  | report _ later => exact later
  | read _ later => exact later
  | update _ later => exact later

/-- A computation that was answered is on top of the stack again. -/
theorem active_of_computed {request : Request} {entered computed : Session Request Value World}
    {answer : Except Failure (Value request)} {inner : List (Event Request Value World)}
    (receives : session.receive program request = (.computing, entered))
    (computes : Run program (program.compute request) entered inner (some (.ofAnswer answer))
      computed) :
    computed.evaluator.active = session.evaluator.active ++ [request] := by
  obtain ⟨opened, _, active, closed⟩ := computes.nests
  obtain rfl := closed answer rfl
  exact active_of_computing receives active

theorem onTop_of_computed {request : Request} {entered computed : Session Request Value World}
    {answer : Except Failure (Value request)} {inner : List (Event Request Value World)}
    (receives : session.receive program request = (.computing, entered))
    (computes : Run program (program.compute request) entered inner (some (.ofAnswer answer))
      computed) :
    computed.evaluator.active.getLast? = some request := by
  rw [active_of_computed receives computes]
  exact List.getLast?_concat

/-- A run is a sequence of steps. -/
theorem Run.steps (runs : Run program computation session history ended final) :
    Steps program session history final := by
  induction runs with
  | underWay => exact .nil
  | unnoticed _ inductionHypothesis => exact inductionHypothesis
  | done => exact .nil
  | fail => exact .nil
  | abort => exact .nil
  | answered receives _ _ later => exact .cons (.received receives) later
  | refused receives _ => exact .cons (.received receives) .nil
  | within receives _ inside => exact .cons (.received receives) inside
  | returned receives computes concludes _ inside later =>
      exact .cons (.received receives)
        (inside.append (.cons (.finished (onTop_of_computed receives computes) concludes) later))
  | unkept receives computes concludes inside =>
      exact .cons (.received receives)
        (inside.append (.cons (.finished (onTop_of_computed receives computes) concludes) .nil))
  | abandoned receives _ inside =>
      exact .cons (.received receives) (inside.append (.cons .abandoned .nil))
  | activeRequests _ later => exact later
  | isActive _ later => exact later
  | isCached _ _ later => exact later
  | isCachedRefused _ => exact .nil
  | report _ later => exact .cons .reported later
  | read _ later => exact later
  | update _ later => exact .cons .updated later

omit [DecidableEq Request] in
/-- A part of a history ends inside a nested computation, or after the event
that ends it. -/
private theorem ends_inside_or_beyond
    {inner behind earlier later : List (Event Request Value World)}
    {event : Event Request Value World} (parts : inner ++ event :: behind = earlier ++ later) :
    (∃ rest, inner = earlier ++ rest ∧ later = rest ++ event :: behind) ∨
      ∃ beyond, earlier = inner ++ event :: beyond ∧ behind = beyond ++ later := by
  rcases List.append_eq_append_iff.mp parts with ⟨beyond, isEarlier, tail⟩ | ⟨rest, inside, isLater⟩
  · cases beyond with
    | nil => exact .inl ⟨[], by simpa using isEarlier.symm, tail.symm⟩
    | cons first beyond =>
        obtain ⟨rfl, isBehind⟩ := List.cons.inj tail
        exact .inr ⟨beyond, isEarlier, isBehind⟩
  · exact .inl ⟨rest, inside, isLater⟩

private theorem moment_of_later (runs : Run program computation session history ended final)
    (moments : ∀ {event : Event Request Value World}
      {earlier later : List (Event Request Value World)}, history = event :: (earlier ++ later) →
      ∃ moment, Run program computation session (event :: earlier) none moment ∧
        Steps program moment later final)
    {earlier later : List (Event Request Value World)} (parts : history = earlier ++ later) :
    ∃ moment, Run program computation session earlier none moment ∧
      Steps program moment later final := by
  cases earlier with
  | nil =>
      obtain rfl : history = later := parts
      exact ⟨session, .underWay, runs.steps⟩
  | cons event earlier => exact moments parts

/-- The moments inside a nested computation are moments of the run around it. -/
private theorem moment_within {request : Request}
    {resume : Except Failure (Value request) → Computation Request Value World α}
    {entered computed : Session Request Value World} {answered : Option (Outcome (Value request))}
    {inner earlier rest behind : List (Event Request Value World)}
    (receives : session.receive program request = (.computing, entered))
    (computes : Run program (program.compute request) entered inner answered computed)
    (moments : ∀ {event : Event Request Value World}
      {earlier later : List (Event Request Value World)}, inner = event :: (earlier ++ later) →
      ∃ moment, Run program (program.compute request) entered (event :: earlier) none moment ∧
        Steps program moment later computed)
    (goesOn : Steps program computed behind final) (parts : inner = earlier ++ rest) :
    ∃ moment,
      Run program (.ask request resume) session (.received request .computing :: earlier) none
        moment ∧
      Steps program moment (rest ++ behind) final := by
  obtain ⟨moment, before, between⟩ := moment_of_later computes moments parts
  exact ⟨moment, .within receives before, between.append goesOn⟩

/-- A run passes through a moment after each of its events. -/
private theorem moment_of_cons (runs : Run program computation session history ended final)
    {event : Event Request Value World} {earlier later : List (Event Request Value World)}
    (parts : history = event :: (earlier ++ later)) :
    ∃ moment, Run program computation session (event :: earlier) none moment ∧
      Steps program moment later final := by
  induction runs generalizing event earlier later with
  | underWay => cases parts
  | unnoticed _ inductionHypothesis => exact inductionHypothesis parts
  | done => cases parts
  | fail => cases parts
  | abort => cases parts
  | answered receives answers resumes moments =>
      obtain ⟨rfl, rest⟩ := List.cons.inj parts
      obtain ⟨moment, before, behind⟩ := moment_of_later resumes moments rest
      exact ⟨moment, .answered receives answers before, behind⟩
  | refused receives refuses =>
      obtain ⟨rfl, rest⟩ := List.cons.inj parts
      obtain ⟨rfl, rfl⟩ := List.append_eq_nil_iff.mp rest.symm
      exact ⟨_, .unnoticed (.refused receives refuses), .nil⟩
  | within receives computes moments =>
      obtain ⟨rfl, rest⟩ := List.cons.inj parts
      simpa using moment_within receives computes moments .nil rest
  | returned receives computes concludes resumes inside moments =>
      obtain ⟨rfl, rest⟩ := List.cons.inj parts
      rcases ends_inside_or_beyond rest with ⟨_, inner, rfl⟩ | ⟨_, rfl, beyond⟩
      · have finishes := Step.finished (onTop_of_computed receives computes) concludes
        exact moment_within receives computes inside (.cons finishes resumes.steps) inner
      · obtain ⟨moment, before, behind⟩ := moment_of_later resumes moments beyond
        exact ⟨moment, .returned receives computes concludes before, behind⟩
  | unkept receives computes concludes inside =>
      obtain ⟨rfl, rest⟩ := List.cons.inj parts
      rcases ends_inside_or_beyond rest with ⟨_, inner, rfl⟩ | ⟨_, rfl, beyond⟩
      · have finishes := Step.finished (onTop_of_computed receives computes) concludes
        exact moment_within receives computes inside (.cons finishes .nil) inner
      · obtain ⟨rfl, rfl⟩ := List.append_eq_nil_iff.mp beyond.symm
        exact ⟨_, .unnoticed (.unkept receives computes concludes), .nil⟩
  | abandoned receives computes inside =>
      obtain ⟨rfl, rest⟩ := List.cons.inj parts
      rcases ends_inside_or_beyond rest with ⟨_, inner, rfl⟩ | ⟨_, rfl, beyond⟩
      · exact moment_within receives computes inside (.cons .abandoned .nil) inner
      · obtain ⟨rfl, rfl⟩ := List.append_eq_nil_iff.mp beyond.symm
        exact ⟨_, .unnoticed (.abandoned receives computes), .nil⟩
  | activeRequests _ moments =>
      obtain ⟨moment, before, behind⟩ := moments parts
      exact ⟨moment, .activeRequests before, behind⟩
  | isActive _ moments =>
      obtain ⟨moment, before, behind⟩ := moments parts
      exact ⟨moment, .isActive before, behind⟩
  | isCached contains _ moments =>
      obtain ⟨moment, before, behind⟩ := moments parts
      exact ⟨moment, .isCached contains before, behind⟩
  | isCachedRefused _ => cases parts
  | report resumes moments =>
      obtain ⟨rfl, rest⟩ := List.cons.inj parts
      obtain ⟨moment, before, behind⟩ := moment_of_later resumes moments rest
      exact ⟨moment, .report before, behind⟩
  | read _ moments =>
      obtain ⟨moment, before, behind⟩ := moments parts
      exact ⟨moment, .read before, behind⟩
  | update resumes moments =>
      obtain ⟨rfl, rest⟩ := List.cons.inj parts
      obtain ⟨moment, before, behind⟩ := moment_of_later resumes moments rest
      exact ⟨moment, .update before, behind⟩

/-- A run passes through a moment after every part of its history. -/
theorem Run.moment (runs : Run program computation session history ended final)
    {earlier later : List (Event Request Value World)} (parts : history = earlier ++ later) :
    ∃ moment, Run program computation session earlier none moment ∧
      Steps program moment later final :=
  moment_of_later runs (moment_of_cons runs) parts

end Runs

end Program

end RequestEngine
