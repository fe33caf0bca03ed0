import RequestEngine.Fixtures
import RequestEngine.Proofs.Counting
import RequestEngine.Proofs.Course
import RequestEngine.Proofs.StatisticsTotals

/-!
Contract: notifications are well nested and complete.

Owns:
- well-nested words of notifications, and the word that mirrors a history;
- what each operation of an observed evaluator sends;
- that a call sends the word that mirrors its history, however it ends;
- what the totals of an observer say that was there from the start.

The finish of a computation is sent on every way out of it. An abrupt end
passes through all computations on the stack, and each of them is finished on the
way out although none of them leaves the stack.

Does not own: the times that are reported.
-/

namespace RequestEngine

variable {Request : Type} {Value : Request → Type} {World : Type} {α : Type}

/-! ### Words -/

/-- What a notification says about a computation that starts: its kind and its
displayed inputs. -/
def Notification.opening? : Notification → Option (String × String)
  | .started kind inputs => some (kind, inputs)
  | .finished _ _ => none

/-- Every start is closed by one finish of the same kind, after everything that
is nested in between. -/
inductive WellNested : List Notification → Prop where
  | nil : WellNested []
  | bracket (kind inputs : String) (elapsed : Duration) {inside later : List Notification}
      (nested : WellNested inside) (rest : WellNested later) :
      WellNested (.started kind inputs :: (inside ++ .finished kind elapsed :: later))

/-- The request whose computation begins at an event. -/
def Event.begun? : Event Request Value World → Option Request
  | .received request .computing => some request
  | .received _ _ | .finished _ _ | .abandoned _ | .reported _ | .updated _ => none

/-- The request whose computation is over at an event, be it answered or not. -/
def Event.over? : Event Request Value World → Option Request
  | .finished request _ | .abandoned request => some request
  | .received _ _ | .reported _ | .updated _ => none

theorem Event.begun?_received {request : Request} {reception : Reception (Value request)}
    (settled : reception ≠ .computing) :
    (Event.received request reception : Event Request Value World).begun? = none := by
  cases reception with
  | computing => exact absurd rfl settled
  | _ => rfl

/-- The kind of the computation that begins at an event has a name. -/
def Event.begins (vocabulary : Vocabulary Request) (kind : String)
    (event : Event Request Value World) : Bool :=
  event.begun?.any fun request => (vocabulary.kind request).name = kind

/-- A word mirrors a history: a computation sends its start, what the computations
nested in it send, and one finish. Nothing else sends anything. -/
inductive Mirrors (vocabulary : Vocabulary Request) :
    List (Event Request Value World) → List Notification → Prop where
  | nil : Mirrors vocabulary [] []
  | quiet {event : Event Request Value World} {later : List (Event Request Value World)}
      {sent : List Notification} (begunNot : event.begun? = none) (overNot : event.over? = none)
      (rest : Mirrors vocabulary later sent) : Mirrors vocabulary (event :: later) sent
  | computation {request : Request} {last : Event Request Value World}
      {inside later : List (Event Request Value World)} {sentInside sent : List Notification}
      (elapsed : Duration) (isOver : last.over? = some request)
      (nested : Mirrors vocabulary inside sentInside) (rest : Mirrors vocabulary later sent) :
      Mirrors vocabulary (.received request .computing :: (inside ++ last :: later))
        (.started (vocabulary.kind request).name (vocabulary.displayInputs request) ::
          (sentInside ++ .finished (vocabulary.kind request).name elapsed :: sent))

/-- The computations that begin in a history, by their kinds and inputs. -/
def openings (vocabulary : Vocabulary Request) (history : List (Event Request Value World)) :
    List (String × String) :=
  history.filterMap fun event => event.begun?.map fun request =>
    ((vocabulary.kind request).name, vocabulary.displayInputs request)

section Mirrors

variable {vocabulary : Vocabulary Request}
variable {history earlier later : List (Event Request Value World)}
variable {sent sentEarlier : List Notification}

theorem Mirrors.wellNested (mirrors : Mirrors vocabulary history sent) : WellNested sent := by
  induction mirrors with
  | nil => exact .nil
  | quiet _ _ _ inductionHypothesis => exact inductionHypothesis
  | computation elapsed _ _ _ nested rest => exact .bracket _ _ elapsed nested rest

theorem Mirrors.append (first : Mirrors vocabulary earlier sentEarlier)
    (second : Mirrors vocabulary later sent) :
    Mirrors vocabulary (earlier ++ later) (sentEarlier ++ sent) := by
  induction first with
  | nil => exact second
  | quiet begunNot overNot _ inductionHypothesis =>
      exact .quiet begunNot overNot inductionHypothesis
  | computation elapsed isOver nested _ _ inductionHypothesis =>
      have together := Mirrors.computation elapsed isOver nested inductionHypothesis
      simpa using together

theorem openings_append (earlier later : List (Event Request Value World)) :
    openings vocabulary (earlier ++ later) =
      openings vocabulary earlier ++ openings vocabulary later :=
  List.filterMap_append

/-- The starts of a kind are the computations of that name. -/
theorem countP_starts_eq (same : sent.filterMap (·.opening?) = openings vocabulary history)
    (kind : String) :
    sent.countP (·.starts kind) = history.countP (Event.begins vocabulary kind) := by
  have ofSent : (sent.filterMap (·.opening?)).countP (·.1 = kind) =
      sent.countP (·.starts kind) := by
    rw [List.countP_filterMap]
    congr 1
    funext notification
    cases notification <;>
      simp [Notification.opening?, Notification.starts, Notification.startedKind?]
  have ofHistory : (openings vocabulary history).countP (·.1 = kind) =
      history.countP (Event.begins vocabulary kind) := by
    rw [openings, List.countP_filterMap]
    congr 1
    funext event
    unfold Event.begins
    cases event.begun? <;> simp
  rw [← ofSent, same, ofHistory]

end Mirrors

/-! ### What operations send -/

namespace Session

variable {program : Program Request Value World} {request : Request}
variable {session met after : Session Request Value World}

/-- Whether an evaluator is observed, and what its observer was sent. -/
def audience (session : Session Request Value World) : Bool × List Notification :=
  (session.evaluator.observed, session.notifications)

theorem observed_of_audience (sameAudience : after.audience = session.audience) :
    after.evaluator.observed = session.evaluator.observed :=
  congrArg Prod.fst sameAudience

theorem notifications_of_audience (sameAudience : after.audience = session.audience) :
    after.notifications = session.notifications :=
  congrArg Prod.snd sameAudience

theorem audience_of_meets {zone : ZoneDefinition} {conflict : Option ZoneConflict}
    (meets : session.meetZone zone = (conflict, met)) : met.audience = session.audience := by
  unfold meetZone at meets
  split at meets
  · cases meets
    rfl
  · unfold registerZone at meets
    split at meets <;> cases meets <;> rfl

theorem audience_countHit : (session.countHit program request).audience = session.audience := by
  unfold countHit
  split <;> rfl

theorem audience_entered (observed : session.evaluator.observed = true) :
    (session.entered program request).audience =
      (true, session.notifications ++
        [.started (program.kind request).name (program.displayInputs request)]) := by
  simp only [entered, notifyStarted, audience, logged, counted, observed, ↓reduceIte]

theorem audience_notifyFinished (observed : session.evaluator.observed = true) (kind : String) :
    (session.notifyFinished kind).audience =
      (true, session.notifications ++ [.finished kind (session.clock.headD .zero)]) := by
  simp only [notifyFinished, observed, ↓reduceIte, audience]

variable [DecidableEq Request]

theorem audience_rejected : (session.rejected program request).audience = session.audience := by
  unfold rejected
  split <;> rfl

theorem audience_kept {value : Value request}
    (keeps : session.kept program request value = .ok after) :
    after.audience = session.audience := by
  unfold kept at keeps
  split at keeps
  · cases keeps
    rfl
  · cases inserts : session.evaluator.cache.insert program.kind request value with
    | error clash =>
        rw [inserts] at keeps
        cases keeps
    | ok inserted =>
        rw [inserts] at keeps
        cases keeps
        rfl
  · cases keeps
    rfl

theorem audience_recorded_of_meets (request : Request) {zone : ZoneDefinition}
    {conflict : Option ZoneConflict} (meets : session.meetZone zone = (conflict, met)) :
    (met.recorded request).audience = session.audience :=
  (show (met.recorded request).audience = met.audience from rfl).trans (audience_of_meets meets)

/-- A request that is settled or refused at once sends nothing. -/
theorem audience_of_settled {reception : Reception (Value request)}
    (receives : session.receive program request = (reception, after))
    (settled : reception ≠ .computing) : after.audience = session.audience := by
  cases receive_eq_iff.mp receives with
  | conflicting meets => exact audience_of_meets meets
  | refused meets _ => exact audience_recorded_of_meets request meets
  | held meets _ _ => exact audience_countHit.trans (audience_recorded_of_meets request meets)
  | rejected meets _ _ _ =>
      exact audience_rejected.trans (audience_recorded_of_meets request meets)
  | computing _ _ _ _ => exact absurd rfl settled

theorem audience_of_computing (observed : session.evaluator.observed = true)
    (receives : session.receive program request = (.computing, after)) :
    after.audience = (true, session.notifications ++
      [.started (program.kind request).name (program.displayInputs request)]) := by
  cases receive_eq_iff.mp receives with
  | @computing met meets _ _ _ =>
      have sameAudience := audience_recorded_of_meets request meets
      rw [audience_entered ((observed_of_audience sameAudience).trans observed),
        notifications_of_audience sameAudience]

/-- Whatever a computation comes to, its finish is sent. -/
theorem audience_of_concluded {outcome concluded : Outcome (Value request)}
    (observed : session.evaluator.observed = true)
    (concludes : session.concluded program request outcome = (concluded, after)) :
    after.audience = (true, session.notifications ++
      [.finished (program.kind request).name (session.clock.headD .zero)]) := by
  rw [← audience_notifyFinished observed]
  cases outcome with
  | aborted message =>
      cases concludes
      rfl
  | tooDeep =>
      cases concludes
      rfl
  | failed failure =>
      cases concludes
      rfl
  | success value =>
      simp only [Session.concluded] at concludes
      split at concludes
      case h_1 stored keeps =>
        cases concludes
        exact (audience_kept keeps).trans rfl
      case h_2 clash _ =>
        cases concludes
        rfl

end Session

namespace Program

variable [DecidableEq Request] {program : Program Request Value World} {request : Request}
variable {session after final : Session Request Value World}
variable {computation : Computation Request Value World α} {outcome : Outcome α}
variable {event : Event Request Value World} {past history : List (Event Request Value World)}

/-! ### What steps send -/

/-- A step sends a start exactly when a computation begins. -/
theorem Step.openings_eq (step : Step program session event after)
    (observed : session.evaluator.observed = true) :
    after.evaluator.observed = true ∧ ∃ sent, after.notifications = session.notifications ++ sent ∧
      sent.filterMap (·.opening?) = openings program.toVocabulary [event] := by
  cases step with
  | @received _ request reception receives =>
      by_cases settled : reception = .computing
      · subst settled
        have audience := Session.audience_of_computing observed receives
        exact ⟨congrArg Prod.fst audience, _, congrArg Prod.snd audience, rfl⟩
      · have audience := Session.audience_of_settled receives settled
        refine ⟨(Session.observed_of_audience audience).trans observed, [], ?_, ?_⟩
        · rw [Session.notifications_of_audience audience, List.append_nil]
        · simp [openings, Event.begun?_received settled]
  | finished _ concludes =>
      have audience := Session.audience_of_concluded observed concludes
      exact ⟨congrArg Prod.fst audience, _, congrArg Prod.snd audience, rfl⟩
  | @abandoned request =>
      have audience := Session.audience_notifyFinished observed (program.kind request).name
      exact ⟨congrArg Prod.fst audience, _, congrArg Prod.snd audience, rfl⟩
  | reported => exact ⟨observed, [], (List.append_nil _).symm, rfl⟩
  | updated => exact ⟨observed, [], (List.append_nil _).symm, rfl⟩

/-- The starts that were sent are those of the computations begun, in order. -/
theorem Steps.openings_eq (steps : Steps program session history final)
    (observed : session.evaluator.observed = true) :
    final.evaluator.observed = true ∧ ∃ sent, final.notifications = session.notifications ++ sent ∧
      sent.filterMap (·.opening?) = openings program.toVocabulary history := by
  induction steps with
  | nil => exact ⟨observed, [], (List.append_nil _).symm, rfl⟩
  | @cons _ _ _ event later first _ inductionHypothesis =>
      obtain ⟨middleObserved, sentFirst, isFirst, opensFirst⟩ := first.openings_eq observed
      obtain ⟨finalObserved, sentLater, isLater, opensLater⟩ := inductionHypothesis middleObserved
      refine ⟨finalObserved, sentFirst ++ sentLater, ?_, ?_⟩
      · rw [isLater, isFirst, List.append_assoc]
      · rw [List.filterMap_append, opensFirst, opensLater, ← openings_append]
        rfl

/-- The count of computations grows with every computation begun. -/
theorem Steps.computations_eq (steps : Steps program session history final) :
    final.evaluator.metrics.computations =
      session.evaluator.metrics.computations + (openings program.toVocabulary history).length := by
  induction steps with
  | nil => rfl
  | @cons session _ _ event later first _ inductionHypothesis =>
      have counted : (event.count program.kind session.evaluator.metrics).computations =
          session.evaluator.metrics.computations +
            (openings program.toVocabulary [event]).length := by
        cases event with
        | received request reception =>
            cases reception <;> simp [Event.count, openings, Event.begun?]
        | finished request answer => cases answer <;> rfl
        | _ => rfl
      rw [inductionHypothesis, first.metrics_eq, counted, Nat.add_assoc, ← List.length_append,
        ← openings_append]
      rfl

/-! ### What runs send -/

/-- Between two sessions of an observed evaluator, the word that mirrors a history
is sent. -/
structure Sends (program : Program Request Value World) (session : Session Request Value World)
    (history : List (Event Request Value World)) (final : Session Request Value World) : Prop where
  observed : final.evaluator.observed = true
  word : ∃ sent, final.notifications = session.notifications ++ sent ∧
    Mirrors program.toVocabulary history sent

namespace Sends

omit [DecidableEq Request] in
theorem nil (observed : session.evaluator.observed = true) : Sends program session [] session where
  observed := observed
  word := ⟨[], (List.append_nil _).symm, .nil⟩

omit [DecidableEq Request] in
/-- An event that sends nothing goes ahead. -/
theorem quiet (sends : Sends program after history final)
    (sameAudience : after.audience = session.audience) (begunNot : event.begun? = none)
    (overNot : event.over? = none) : Sends program session (event :: history) final where
  observed := sends.observed
  word := by
    obtain ⟨sent, isSent, mirrors⟩ := sends.word
    rw [Session.notifications_of_audience sameAudience] at isSent
    exact ⟨sent, isSent, .quiet begunNot overNot mirrors⟩

/-- A computation goes ahead: it is entered, other things are sent, and it is left. -/
theorem nested {entered computed left : Session Request Value World} {elapsed : Duration}
    {inside : List (Event Request Value World)} {last : Event Request Value World}
    (observed : session.evaluator.observed = true)
    (receives : session.receive program request = (.computing, entered))
    (sendsInside : Sends program entered inside computed) (isOver : last.over? = some request)
    (leaves : left.audience =
      (true, computed.notifications ++ [.finished (program.kind request).name elapsed]))
    (sends : Sends program left history final) :
    Sends program session (.received request .computing :: (inside ++ last :: history)) final where
  observed := sends.observed
  word := by
    have enters := Session.audience_of_computing observed receives
    obtain ⟨sentInside, isSentInside, nested⟩ := sendsInside.word
    obtain ⟨sent, isSent, mirrors⟩ := sends.word
    refine ⟨_, ?_, .computation elapsed isOver nested mirrors⟩
    have isLeft : left.notifications = computed.notifications ++ _ := congrArg Prod.snd leaves
    have isEntered : entered.notifications = session.notifications ++ _ := congrArg Prod.snd enters
    rw [isSent, isLeft, isSentInside, isEntered]
    simp

end Sends

/-- A run that has ended, in whichever way, has sent the word that mirrors it. -/
theorem Run.sends {ended : Option (Outcome α)}
    (runs : Run program computation session history ended final)
    (hasEnded : ended = some outcome) (observed : session.evaluator.observed = true) :
    Sends program session history final := by
  induction runs with
  | underWay => cases hasEnded
  | unnoticed _ _ => cases hasEnded
  | within _ _ _ => cases hasEnded
  | done => exact .nil observed
  | fail => exact .nil observed
  | abort => exact .nil observed
  | isCachedRefused _ => exact .nil observed
  | activeRequests _ inductionHypothesis => exact inductionHypothesis hasEnded observed
  | isActive _ inductionHypothesis => exact inductionHypothesis hasEnded observed
  | isCached _ _ inductionHypothesis => exact inductionHypothesis hasEnded observed
  | read _ inductionHypothesis => exact inductionHypothesis hasEnded observed
  | report _ inductionHypothesis => exact (inductionHypothesis hasEnded observed).quiet rfl rfl rfl
  | update _ inductionHypothesis => exact (inductionHypothesis hasEnded observed).quiet rfl rfl rfl
  | answered receives answers _ inductionHypothesis =>
      have settled := Reception.ne_computing_of_answer answers
      have audience := Session.audience_of_settled receives settled
      exact (inductionHypothesis hasEnded
        ((Session.observed_of_audience audience).trans observed)).quiet audience
        (Event.begun?_received settled) rfl
  | refused receives refuses =>
      have settled := Reception.ne_computing_of_refusal refuses
      have audience := Session.audience_of_settled receives settled
      exact (Sends.nil ((Session.observed_of_audience audience).trans observed)).quiet audience
        (Event.begun?_received settled) rfl
  | returned receives _ concludes _ inside later =>
      have enters := Session.audience_of_computing observed receives
      have sendsInside := inside rfl (congrArg Prod.fst enters)
      have leaves := Session.audience_of_concluded sendsInside.observed concludes
      exact .nested observed receives sendsInside rfl leaves
        (later hasEnded (congrArg Prod.fst leaves))
  | unkept receives _ concludes inside =>
      have enters := Session.audience_of_computing observed receives
      have sendsInside := inside rfl (congrArg Prod.fst enters)
      have leaves := Session.audience_of_concluded sendsInside.observed concludes
      exact .nested observed receives sendsInside rfl leaves (.nil (congrArg Prod.fst leaves))
  | @abandoned _ request _ _ _ _ _ _ receives _ inside =>
      have enters := Session.audience_of_computing observed receives
      have sendsInside := inside rfl (congrArg Prod.fst enters)
      have leaves :=
        Session.audience_notifyFinished sendsInside.observed (program.kind request).name
      exact .nested observed receives sendsInside rfl leaves (.nil (congrArg Prod.fst leaves))

/-! ### Observers -/

/-- The sessions of an evaluator, between its calls, with an observer of its own
that was there from the start. Calls may end in any way. -/
def Attended (program : Program Request Value World) :
    List (Event Request Value World) → Session Request Value World → Prop :=
  Course (program.running
    (fun session => (∃ options, session.evaluator = .fresh options true) ∧
      session.notifications = [])
    (fun _ _ _ _ => True)
    (fun session after => after.evaluator = session.evaluator ∧
      after.notifications = session.notifications))

/-- The observer was sent a start for every computation begun, in order. -/
theorem Attended.openings_eq (attended : Attended program past session) :
    session.evaluator.observed = true ∧
      session.notifications.filterMap (·.opening?) = openings program.toVocabulary past := by
  induction attended with
  | begun begins =>
      obtain ⟨⟨options, isFresh⟩, silent⟩ := begins
      rw [isFresh, silent]
      exact ⟨rfl, rfl⟩
  | called _ calls inductionHypothesis =>
      obtain ⟨_, _, _, _, runs, _⟩ := calls
      obtain ⟨observed, opens⟩ := inductionHypothesis
      obtain ⟨afterObserved, sent, isSent, opensLater⟩ := runs.steps.openings_eq observed
      refine ⟨afterObserved, ?_⟩
      rw [isSent, List.filterMap_append, opens, opensLater, openings_append]
  | elsewhere _ changes inductionHypothesis =>
      obtain ⟨sameEvaluator, sameNotifications⟩ := changes
      rw [sameEvaluator, sameNotifications]
      exact inductionHypothesis

/-- Between calls, everything that the observer was sent is well nested. -/
theorem Attended.mirrors (attended : Attended program past session) :
    Mirrors program.toVocabulary past session.notifications := by
  induction attended with
  | begun begins =>
      rw [begins.2]
      exact .nil
  | called before calls inductionHypothesis =>
      obtain ⟨_, _, ended, hasEnded, runs, _⟩ := calls
      obtain ⟨outcome, rfl⟩ := Option.isSome_iff_exists.mp hasEnded
      obtain ⟨sent, isSent, mirrors⟩ :=
        (runs.sends rfl (Attended.openings_eq before).1).word
      rw [isSent]
      exact inductionHypothesis.append mirrors
  | elsewhere _ changes inductionHypothesis => rwa [changes.2]

/-- What an observed evaluator sends, whichever program it runs. -/
structure NotifiesFully (program : Program Request Value World) : Prop where
  /-- A call that ends, with a value, a failure or abruptly, sends a well-nested
  word, with one start for each computation begun. -/
  call : ∀ depth request (session after : Session Request Value World) outcome,
    session.evaluator.observed = true →
    program.evaluate depth request session = (outcome, after) → outcome ≠ .tooDeep →
    ∃ history sent,
      Run program (Computation.evaluate request) session history (some outcome) after ∧
      after.notifications = session.notifications ++ sent ∧
      Mirrors program.toVocabulary history sent ∧ WellNested sent ∧
      sent.filterMap (·.opening?) = openings program.toVocabulary history ∧
      after.evaluator.metrics.computations =
        session.evaluator.metrics.computations + (sent.filterMap (·.opening?)).length
  /-- Values that are held, rejected requests, and those that are refused for a
  conflict or a clash send nothing. -/
  settled : ∀ request (session after : Session Request Value World) reception,
    session.receive program request = (reception, after) → reception ≠ .computing →
    after.notifications = session.notifications
  /-- The totals of an observer count the computations of each name, also in the
  middle of a call. -/
  totals : ∀ past session, Attended program past session →
    ∀ {β : Type} (computation : Computation Request Value World β) history ended moment,
    Run program computation session history ended moment → ∀ kind,
    (Statistics.ofNotifications moment.notifications).calls kind =
      (past ++ history).countP (Event.begins program.toVocabulary kind)

/-- Every start that an observed evaluator sends is closed by one finish, on every
way out of a computation. -/
theorem notifiesFully (program : Program Request Value World) : NotifiesFully program where
  call := by
    intro depth request session after outcome observed evaluates decided
    have runsSo := (run_evaluate program depth request session).trans evaluates
    obtain ⟨history, runs⟩ := exists_run_of_run runsSo decided
    obtain ⟨sent, isSent, mirrors⟩ := (runs.sends rfl observed).word
    obtain ⟨_, sentToo, isSentToo, opens⟩ := runs.steps.openings_eq observed
    obtain rfl : sent = sentToo := List.append_cancel_left (isSent.symm.trans isSentToo)
    refine ⟨history, sent, runs, isSent, mirrors, mirrors.wellNested, opens, ?_⟩
    rw [opens]
    exact runs.steps.computations_eq
  settled := by
    intro request session after reception receives isSettled
    exact Session.notifications_of_audience (Session.audience_of_settled receives isSettled)
  totals := by
    intro past session attended β computation history ended moment runs kind
    obtain ⟨observed, opens⟩ := attended.openings_eq
    obtain ⟨_, sent, isSent, opensLater⟩ := runs.steps.openings_eq observed
    rw [Statistics.calls_ofNotifications]
    refine countP_starts_eq ?_ kind
    rw [isSent, List.filterMap_append, opens, opensLater, openings_append]

/-- A depth that is too large to be raised ends two computations abruptly, and
both of them are finished in the notifications. -/
theorem notifiesFully_nodeDepth :
    let forest : List TreeNode := [⟨"a", [1]⟩, ⟨"b", [2]⟩, ⟨"c", []⟩]
    let session : Session FixtureRequest FixtureValue FixtureState :=
      { evaluator := .fresh {} true, world := { depths := [⟨2, 4294967295⟩] } }
    let after := ((Fixtures.program forest).evaluate 4 (.nodeDepth 0) session).2
    ((Fixtures.program forest).evaluate 4 (.nodeDepth 0) session).1 =
        .aborted "attempt to add with overflow" ∧
      after.notifications =
        [.started "NodeDepth" "(\"a\")", .started "NodeDepth" "(\"b\")",
          .finished "NodeDepth" .zero, .finished "NodeDepth" .zero] ∧
      WellNested after.notifications ∧ after.evaluator.active.length = 2 := by
  intro forest session after
  have aborts : ((Fixtures.program forest).evaluate 4 (.nodeDepth 0) session).1 =
      .aborted "attempt to add with overflow" := by
    decide +kernel
  obtain ⟨history, sent, _, isSent, _, nested, _⟩ :=
    (notifiesFully (Fixtures.program forest)).call 4 (.nodeDepth 0) session
      after (.aborted "attempt to add with overflow") rfl (Prod.ext aborts rfl) (by simp)
  have isSentOnly : after.notifications = sent := isSent
  exact ⟨aborts, by decide +kernel, isSentOnly ▸ nested, by decide +kernel⟩

end Program

end RequestEngine
