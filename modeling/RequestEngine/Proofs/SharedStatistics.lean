import RequestEngine.Graph.Batch
import RequestEngine.Proofs.AnalysisProgram
import RequestEngine.Proofs.FiniteNesting
import RequestEngine.Proofs.Interleaving
import RequestEngine.Proofs.NotificationNesting

/-!
Contract: statistics that the analyses of several files share.

Owns:
- programs whose kinds start in a given order, and that their runs send
  notifications in this order;
- that the analysis of a file sends a total weight first, then a lookup, and then a
  depth, also if it finds cycles, fails, or ends abruptly;
- that the totals of several analyses do not depend on how they interleave.

A request may only be asked for when the kinds before its own have started. This
depends on answers: a depth is asked for after a weight, and a weight that was found
says that something was looked up. Held values count, because what is held was
computed by the same evaluator.

Does not own: the times that are reported.
-/

namespace RequestEngine

variable {Request : Type} {Value : Request → Type} {World : Type} {α β : Type}

/-! ### Requests in the order of their kinds -/

/-- An order in which the kinds of a program start for the first time. -/
structure Pace (Request : Type) where
  order : List String
  /-- The place of the kind of a request. -/
  place : Request → Nat
  /-- How many kinds have started whenever a request has a value. -/
  valued : Nat

/-- With so many kinds started, a computation asks for the next kinds in their
order, and so many have started when it has a value. It leaves the state to the
storage of the kinds. -/
def Computation.Paced (pace : Pace Request) (target : Nat) :
    Computation Request Value World α → Nat → Prop
  | .done _, begun => target ≤ begun
  | .fail _, _ | .abort _, _ => True
  | .ask request resume, begun =>
      pace.place request ≤ begun ∧ (∀ failure, (resume (.error failure)).Paced pace target begun) ∧
        ∀ value, (resume (.ok value)).Paced pace target (max begun pace.valued)
  | .activeRequests resume, begun => ∀ displays, (resume displays).Paced pace target begun
  | .isActive _ resume, begun | .isCached _ resume, begun =>
      ∀ holds, (resume holds).Paced pace target begun
  | .report _ next, begun => next.Paced pace target begun
  | .read resume, begun => ∀ world, (resume world).Paced pace target begun
  | .update _ _, _ => False

namespace Computation

variable {pace : Pace Request} {target middle begun more : Nat}
variable {computation : Computation Request Value World α}

theorem Paced.mono (paced : computation.Paced pace target begun) (further : begun ≤ more) :
    computation.Paced pace target more := by
  induction computation generalizing begun more with
  | done value => exact Nat.le_trans paced further
  | fail failure => exact trivial
  | abort message => exact trivial
  | ask request resume inductionHypothesis =>
      obtain ⟨isNext, onFailure, onValue⟩ := paced
      exact ⟨Nat.le_trans isNext further,
        fun failure => inductionHypothesis _ (onFailure failure) further,
        fun value => inductionHypothesis _ (onValue value) (max_le_max_right _ further)⟩
  | activeRequests resume inductionHypothesis =>
      exact fun displays => inductionHypothesis displays (paced displays) further
  | isActive request resume inductionHypothesis =>
      exact fun holds => inductionHypothesis holds (paced holds) further
  | isCached request resume inductionHypothesis =>
      exact fun holds => inductionHypothesis holds (paced holds) further
  | report diagnostic rest inductionHypothesis => exact inductionHypothesis paced further
  | read resume inductionHypothesis =>
      exact fun world => inductionHypothesis world (paced world) further
  | update change rest _ => exact paced

theorem Paced.bind {next : α → Computation Request Value World β}
    (paced : computation.Paced pace middle begun)
    (nextPaced : ∀ value, (next value).Paced pace target middle) :
    (computation.bind next).Paced pace target begun := by
  induction computation generalizing begun with
  | done value => exact (nextPaced value).mono paced
  | fail failure => exact trivial
  | abort message => exact trivial
  | ask request resume inductionHypothesis =>
      obtain ⟨isNext, onFailure, onValue⟩ := paced
      exact ⟨isNext, fun failure => inductionHypothesis _ (onFailure failure),
        fun value => inductionHypothesis _ (onValue value)⟩
  | activeRequests resume inductionHypothesis =>
      exact fun displays => inductionHypothesis displays (paced displays)
  | isActive request resume inductionHypothesis =>
      exact fun holds => inductionHypothesis holds (paced holds)
  | isCached request resume inductionHypothesis =>
      exact fun holds => inductionHypothesis holds (paced holds)
  | report diagnostic rest inductionHypothesis => exact inductionHypothesis paced
  | read resume inductionHypothesis => exact fun world => inductionHypothesis world (paced world)
  | update change rest _ => exact paced

theorem paced_evaluate {request : Request} (isNext : pace.place request ≤ begun)
    (enough : target ≤ max begun pace.valued) :
    (Computation.evaluate request : Computation Request Value World _).Paced pace target begun :=
  ⟨isNext, fun _ => trivial, fun _ => enough⟩

end Computation

namespace Program

variable [DecidableEq Request] {program : Program Request Value World} {pace : Pace Request}
variable {request : Request} {session after final : Session Request Value World}
variable {before sent : List Notification}
variable {history : List (Event Request Value World)}
variable {computation : Computation Request Value World α} {outcome : Outcome α}

omit [DecidableEq Request] in
/-- The program keeps to the pace: every computation does, once its own kind has
started. -/
structure KeepsPace (program : Program Request Value World) (pace : Pace Request) : Prop where
  isPlace : ∀ request, pace.order[pace.place request]? = some (program.kind request).name
  computes : ∀ request,
    (program.compute request).Paced pace pace.valued (pace.place request + 1)

/-- So far, an observed evaluator has sent notifications in order, and if it holds a
value, the kinds that values rest on have started. -/
structure InStep (program : Program Request Value World) (pace : Pace Request)
    (before sent : List Notification) (session : Session Request Value World) : Prop where
  audience : session.audience = (true, before ++ sent)
  inOrder : InOrder pace.order sent
  valued : ∀ request value, session.core.held? program request = some value →
    Begun pace.order pace.valued sent

namespace InStep

theorem observed (inStep : InStep program pace before sent session) :
    session.evaluator.observed = true :=
  congrArg Prod.fst inStep.audience

theorem notifications_eq (inStep : InStep program pace before sent session) :
    session.notifications = before ++ sent :=
  congrArg Prod.snd inStep.audience

theorem settled {reception : Reception (Value request)}
    (inStep : InStep program pace before sent session)
    (receives : session.receive program request = (reception, after))
    (isSettled : reception ≠ .computing) : InStep program pace before sent after where
  audience := (Session.audience_of_settled receives isSettled).trans inStep.audience
  inOrder := inStep.inOrder
  valued := by
    rw [Session.core_of_settled receives isSettled]
    exact inStep.valued

/-- A value that is held when a request is taken up was computed before. -/
theorem begun_of_held {reception : Reception (Value request)} {value : Value request}
    (inStep : InStep program pace before sent session)
    (receives : session.receive program request = (reception, after))
    (answers : reception.answer? = some (.ok value)) : Begun pace.order pace.valued sent := by
  cases Session.receive_eq_iff.mp receives with
  | held _ _ holds => exact inStep.valued request _ holds
  | _ => cases answers

/-- One more notification is sent, and nothing is held that may not be. -/
theorem next {last : Notification} (inStep : InStep program pace before sent session)
    (audience : after.audience = (true, session.notifications ++ [last]))
    (due : Due pace.order sent last)
    (holdsNoMore : ∀ request value, after.core.held? program request = some value →
      session.core.held? program request = some value ∨
        Begun pace.order pace.valued (sent ++ [last])) :
    InStep program pace before (sent ++ [last]) after where
  audience := by rw [audience, inStep.notifications_eq, List.append_assoc]
  inOrder := inStep.inOrder.concat due
  valued := by
    intro request value holds
    rcases holdsNoMore request value holds with heldBefore | begun
    · exact (inStep.valued request value heldBefore).mono (List.subset_append_left _ _)
    · exact begun

theorem entered (keeps : KeepsPace program pace)
    (inStep : InStep program pace before sent session)
    (receives : session.receive program request = (.computing, after))
    (begun : Begun pace.order (pace.place request) sent) :
    InStep program pace before
      (sent ++ [.started (program.kind request).name (program.displayInputs request)]) after := by
  refine inStep.next (Session.audience_of_computing inStep.observed receives)
    (.started (keeps.isPlace request) begun) fun other value holds => .inl ?_
  rwa [Session.core_of_computing receives] at holds

/-- The finish of a computation is sent, whatever becomes of its answer. -/
theorem concluded {answer : Except Failure (Value request)} {concluded : Outcome (Value request)}
    (inStep : InStep program pace before sent session)
    (concludes : session.concluded program request (.ofAnswer answer) = (concluded, after))
    (isStarted : (program.kind request).name ∈ startedKinds sent)
    (valued : ∀ value, answer = .ok value → Begun pace.order pace.valued sent) :
    InStep program pace before
      (sent ++ [.finished (program.kind request).name (session.clock.headD .zero)]) after := by
  refine inStep.next (Session.audience_of_concluded inStep.observed concludes)
    (.finished isStarted) fun other value holds => ?_
  cases Session.finishes_of_concluded concludes with
  | failed leaves =>
      rw [leaves] at holds
      exact .inl holds
  | kept _ _ => exact .inr ((valued _ rfl).mono (List.subset_append_left _ _))
  | clashing _ leaves =>
      rw [leaves] at holds
      exact .inl holds

theorem abandoned (inStep : InStep program pace before sent session)
    (isStarted : (program.kind request).name ∈ startedKinds sent) :
    InStep program pace before
      (sent ++ [.finished (program.kind request).name (session.clock.headD .zero)])
      (session.notifyFinished (program.kind request).name) := by
  refine inStep.next (Session.audience_notifyFinished inStep.observed _) (.finished isStarted)
    fun other value holds => .inl ?_
  rwa [Session.core_notifyFinished] at holds

section Nested

variable {entered computed left : Session Request Value World} {begun : Nat}
variable {nestedOutcome : Outcome (Value request)}

/-- A computation is entered, and sends its notifications after its own start. -/
private theorem after_computing (keeps : KeepsPace program pace)
    (inStep : InStep program pace before sent session)
    (receives : session.receive program request = (.computing, entered))
    (isBegun : Begun pace.order begun sent) (isNext : pace.place request ≤ begun)
    (inside : ∀ {sentOnEntry}, InStep program pace before sentOnEntry entered →
      Begun pace.order (pace.place request + 1) sentOnEntry →
      ∃ later, InStep program pace before later computed ∧ sentOnEntry <+: later ∧
        ∀ value, nestedOutcome = .success value → Begun pace.order pace.valued later) :
    ∃ later, InStep program pace before later computed ∧ sent <+: later ∧
      (program.kind request).name ∈ startedKinds later ∧
      ∀ value, nestedOutcome = .success value → Begun pace.order pace.valued later := by
  have reached := isBegun.of_le isNext
  obtain ⟨later, computedInStep, kept, valued⟩ := inside (inStep.entered keeps receives reached)
    (reached.started (keeps.isPlace request) (program.displayInputs request))
  refine ⟨later, computedInStep, (List.prefix_append _ _).trans kept, ?_, valued⟩
  refine mem_startedKinds.mpr
    ⟨.started (program.kind request).name (program.displayInputs request), kept.subset ?_, rfl⟩
  exact List.mem_append_right _ (List.mem_singleton_self _)

/-- A computation is entered, and left with an answer. -/
private theorem after_leaving {answer : Except Failure (Value request)}
    (keeps : KeepsPace program pace) (inStep : InStep program pace before sent session)
    (receives : session.receive program request = (.computing, entered))
    (isBegun : Begun pace.order begun sent) (isNext : pace.place request ≤ begun)
    (inside : ∀ {sentOnEntry}, InStep program pace before sentOnEntry entered →
      Begun pace.order (pace.place request + 1) sentOnEntry →
      ∃ later, InStep program pace before later computed ∧ sentOnEntry <+: later ∧
        ∀ value, Outcome.ofAnswer answer = .success value → Begun pace.order pace.valued later)
    (concludes : computed.concluded program request (.ofAnswer answer) = (nestedOutcome, left)) :
    ∃ later, InStep program pace before later left ∧ sent <+: later ∧
      ∀ value, answer = .ok value → Begun pace.order pace.valued later := by
  obtain ⟨later, computedInStep, kept, isStarted, valued⟩ :=
    inStep.after_computing keeps receives isBegun isNext inside
  have valuedNow : ∀ value, answer = .ok value → Begun pace.order pace.valued later := by
    rintro value rfl
    exact valued value rfl
  exact ⟨_, computedInStep.concluded concludes isStarted valuedNow,
    kept.trans (List.prefix_append _ _),
    fun value isValue => (valuedNow value isValue).mono (List.subset_append_left _ _)⟩

end Nested

end InStep

/-- A run of a program that keeps to a pace sends its notifications in order,
however it ends. -/
theorem Run.inStep {pace : Pace Request} {target begun : Nat} {ended : Option (Outcome α)}
    (keeps : KeepsPace program pace)
    (runs : Run program computation session history ended final) (hasEnded : ended = some outcome)
    (inStep : InStep program pace before sent session) (isBegun : Begun pace.order begun sent)
    (paced : computation.Paced pace target begun) :
    ∃ later, InStep program pace before later final ∧ sent <+: later ∧
      ∀ value, outcome = .success value → Begun pace.order target later := by
  induction runs generalizing sent target begun with
  | underWay => cases hasEnded
  | unnoticed _ _ => cases hasEnded
  | within _ _ _ => cases hasEnded
  | done => exact ⟨sent, inStep, List.prefix_rfl, fun _ _ => isBegun.of_le paced⟩
  | fail =>
      cases hasEnded
      exact ⟨sent, inStep, List.prefix_rfl, fun _ isValue => by cases isValue⟩
  | abort =>
      cases hasEnded
      exact ⟨sent, inStep, List.prefix_rfl, fun _ isValue => by cases isValue⟩
  | isCachedRefused _ =>
      cases hasEnded
      exact ⟨sent, inStep, List.prefix_rfl, fun _ isValue => by cases isValue⟩
  | activeRequests _ inductionHypothesis =>
      exact inductionHypothesis hasEnded inStep isBegun (paced _)
  | isActive _ inductionHypothesis =>
      exact inductionHypothesis hasEnded inStep isBegun (paced _)
  | isCached _ _ inductionHypothesis =>
      exact inductionHypothesis hasEnded inStep isBegun (paced _)
  | read _ inductionHypothesis => exact inductionHypothesis hasEnded inStep isBegun (paced _)
  | report _ inductionHypothesis =>
      exact inductionHypothesis hasEnded ⟨inStep.audience, inStep.inOrder, inStep.valued⟩ isBegun
        paced
  | update _ _ => exact absurd paced id
  | @answered _ _ _ _ _ _ reception answer _ _ receives answers _ inductionHypothesis =>
      have afterInStep := inStep.settled receives (Reception.ne_computing_of_answer answers)
      cases answer with
      | error failure => exact inductionHypothesis hasEnded afterInStep isBegun (paced.2.1 failure)
      | ok value =>
          -- The value was held, and this evaluator has sent what its computation sent.
          exact inductionHypothesis hasEnded afterInStep
            (isBegun.max (inStep.begun_of_held receives answers)) (paced.2.2 value)
  | refused receives refuses =>
      cases hasEnded
      exact ⟨sent, inStep.settled receives (Reception.ne_computing_of_refusal refuses),
        List.prefix_rfl, fun _ isValue => by cases isValue⟩
  | @returned _ request _ _ _ _ _ _ answer _ _ _ receives _ concludes _ inside later =>
      obtain ⟨sentLeft, leftInStep, kept, valued⟩ :=
        inStep.after_leaving keeps receives isBegun paced.1
          (fun entered reached => inside rfl entered reached (keeps.computes request)) concludes
      have stillBegun := isBegun.mono kept.subset
      cases answer with
      | error failure =>
          obtain ⟨sentLater, finalInStep, keptLater, target⟩ :=
            later hasEnded leftInStep stillBegun (paced.2.1 failure)
          exact ⟨sentLater, finalInStep, kept.trans keptLater, target⟩
      | ok value =>
          obtain ⟨sentLater, finalInStep, keptLater, target⟩ :=
            later hasEnded leftInStep (stillBegun.max (valued value rfl)) (paced.2.2 value)
          exact ⟨sentLater, finalInStep, kept.trans keptLater, target⟩
  | @unkept _ request _ _ _ _ _ _ _ _ receives _ concludes inside =>
      cases hasEnded
      obtain ⟨sentLeft, leftInStep, kept, _⟩ :=
        inStep.after_leaving keeps receives isBegun paced.1
          (fun entered reached => inside rfl entered reached (keeps.computes request)) concludes
      exact ⟨sentLeft, leftInStep, kept, fun _ isValue => by cases isValue⟩
  | @abandoned _ request _ _ _ _ _ _ receives _ inside =>
      cases hasEnded
      obtain ⟨sentInside, computedInStep, kept, isStarted, _⟩ :=
        inStep.after_computing keeps receives isBegun paced.1
          fun entered reached => inside rfl entered reached (keeps.computes request)
      exact ⟨_, computedInStep.abandoned isStarted, kept.trans (List.prefix_append _ _),
        fun _ isValue => by cases isValue⟩

end Program

/-! ### Analyses -/

namespace Analysis

open Program

/-- The order in which analyses meet the kinds of questions. Whenever a question has
a value, a total weight was asked for, and something was looked up. -/
def pace : Pace AnalysisRequest where
  order := ["TotalWeight", "LookupDeclaration", "DependencyDepth"]
  place
    | .totalWeight _ => 0
    | .lookup _ => 1
    | .dependencyDepth _ => 2
  valued := 2

section Examine

variable {question : String → AnalysisRequest} {begun : Nat}
variable {add : α → {name : String} → AnalysisValue (question name) → AnalysisComputation α}

private theorem paced_visit {found : α} {names : List String} (valued : pace.valued ≤ begun)
    (isNext : ∀ name, pace.place (question name) ≤ begun)
    (adds : ∀ found {name} (answer : AnalysisValue (question name)),
      (add found answer).Paced pace begun begun) :
    (visit question add found names).Paced pace pace.valued begun := by
  induction names generalizing found with
  | nil => exact valued
  | cons name rest inductionHypothesis =>
      refine (Computation.paced_evaluate (isNext name) (Nat.le_max_left _ _)).bind fun answer => ?_
      exact (adds found answer).bind fun next => inductionHypothesis

/-- Once a total weight was asked for, looking a name up is next, and its question may
be asked about everything that it depends on. -/
private theorem paced_examine {start : Declaration → α} {name : String} (weighed : 1 ≤ begun)
    (isNext : ∀ name, pace.place (question name) ≤ max begun pace.valued)
    (adds : ∀ found {name} (answer : AnalysisValue (question name)) more,
      (add found answer).Paced pace more more) :
    (examine question add start name).Paced pace pace.valued begun := by
  refine (Computation.paced_evaluate weighed (Nat.le_refl _)).bind fun declaration => ?_
  exact paced_visit (Nat.le_max_right _ _) isNext fun found _ answer => adds found answer _

end Examine

theorem keepsPace (graph : Graph) : KeepsPace (program graph) pace where
  isPlace := by
    intro request
    cases request <;> rfl
  computes := by
    intro request
    cases request with
    | lookup name =>
        show (compute graph (.lookup name)).Paced pace pace.valued 2
        unfold compute
        simp only
        split
        · exact Nat.le_refl 2
        · exact trivial
    | totalWeight name =>
        show (compute graph (.totalWeight name)).Paced pace pace.valued 1
        rw [compute_totalWeight]
        exact paced_examine (Nat.le_refl 1) (fun _ => Nat.zero_le _)
          fun _ _ _ more => Nat.le_refl more
    | dependencyDepth name =>
        show (compute graph (.dependencyDepth name)).Paced pace pace.valued 3
        rw [compute_dependencyDepth]
        refine paced_examine (by decide) (fun _ => show 2 ≤ max 3 2 by decide)
          fun depth _ below more => ?_
        unfold addDepth
        split
        · exact Nat.le_refl more
        · exact trivial

theorem paced_describe (declaration : Declaration) : (describe declaration).Paced pace 0 0 := by
  have withoutMore : ∀ failure begun, (withoutResult declaration failure).Paced pace 0 begun := by
    intro failure begun
    cases failure <;> exact Nat.zero_le _
  refine ⟨Nat.le_refl 0, fun failure => withoutMore failure _, fun weight => ?_⟩
  exact ⟨Nat.le_refl 2, fun failure => withoutMore failure _, fun depth => Nat.zero_le _⟩

theorem paced_describeAll (declarations : List Declaration) :
    (describeAll declarations).Paced pace 0 0 := by
  induction declarations with
  | nil => exact Nat.le_refl 0
  | cons declaration rest inductionHypothesis =>
      refine (paced_describe declaration).bind fun line => ?_
      exact inductionHypothesis.bind fun lines => Nat.le_refl 0

/-- The analysis of a graph by a fresh evaluator sends its notifications in order,
whatever it comes to. -/
theorem exists_sent {options : Options} {session : AnalysisSession} (graph : Graph)
    (isFresh : session.evaluator = .fresh options true) (noDepths : session.world = []) :
    ∃ sent, (run graph session).2.notifications = session.notifications ++ sent ∧
      InOrder pace.order sent := by
  have reached : Reached (program graph) (fun _ _ => True) [] session :=
    .created isFresh
  obtain ⟨outcome, after, decided, ends⟩ := exists_end_analyze reached
  have runsTo : run graph session = (outcome, after) := ends _ (Nat.le_refl _)
  obtain ⟨history, runs⟩ := exists_run_of_run runsTo decided
  have inStep : InStep (program graph) pace session.notifications [] session := by
    refine ⟨?_, inOrder_nil _, fun request value holds => ?_⟩
    · rw [Session.audience, isFresh, List.append_nil]
      rfl
    · rw [held?_of_fresh isFresh (fun other => noDepths ▸ storedOutside_nil graph other)] at holds
      cases holds
  obtain ⟨sent, finalInStep, _⟩ := runs.inStep (keepsPace graph) rfl inStep (begun_zero _ _)
    (paced_describeAll graph.declarations)
  refine ⟨sent, ?_, finalInStep.inOrder⟩
  rw [runsTo]
  exact finalInStep.notifications_eq

end Analysis

/-! ### Files that are analyzed at the same time -/

namespace Batch

variable {options : Options} {files : List SourceFile} {sequences : List (List Notification)}

/-- What the analysis of a file can send: the file loads, whatever the registry holds
and was sent already, and however long the computations take. -/
def Sends (options : Options) (file : SourceFile) (sent : List Notification) : Prop :=
  ∃ graph state clock, Graph.ofFile file.path file.content = .ok graph ∧
    (Analysis.run graph { session options state with clock := clock }).2.notifications =
      state.notifications ++ sent

/-- The same for a session of a batch, with any times. -/
theorem exists_sent_session (collects : options.collectStatistics = true) (state : BatchState)
    (clock : List Duration) (graph : Graph) :
    ∃ sent, (Analysis.run graph { session options state with clock := clock }).2.notifications =
        state.notifications ++ sent ∧ InOrder Analysis.pace.order sent := by
  have isFresh : (session options state).evaluator = .fresh options true := by
    rw [← collects]
    rfl
  exact Analysis.exists_sent graph isFresh rfl

theorem Sends.inOrder {file : SourceFile} {sent : List Notification}
    (collects : options.collectStatistics = true) (sends : Sends options file sent) :
    InOrder Analysis.pace.order sent := by
  obtain ⟨graph, state, clock, _, isSent⟩ := sends
  obtain ⟨same, isSame, inOrder⟩ := exists_sent_session collects state clock graph
  rwa [List.append_cancel_left (isSent.symm.trans isSame)]

theorem inOrder_of_sends (collects : options.collectStatistics = true)
    (work : List.Forall₂ (Sends options) files sequences) :
    ∀ sequence ∈ sequences, InOrder Analysis.pace.order sequence := by
  induction work with
  | nil => simp
  | cons sends _ inductionHypothesis =>
      exact List.forall_mem_cons.mpr ⟨sends.inOrder collects, inductionHypothesis⟩

/-- Analyzing one file after the other is one way of interleaving the analyses of
those files that load. -/
theorem exists_sequences_analyzeFrom (collects : options.collectStatistics = true)
    (state : BatchState) (files : List SourceFile) :
    ∃ sequences, List.Forall₂ (Sends options)
        (files.filter fun file => (Graph.ofFile file.path file.content).isOk) sequences ∧
      (analyzeFrom options state files).state.notifications =
        state.notifications ++ sequences.flatten := by
  induction files generalizing state with
  | nil => exact ⟨[], .nil, (List.append_nil _).symm⟩
  | cons file rest inductionHypothesis =>
      obtain ⟨sequences, work, isSent⟩ := inductionHypothesis (analyzeFile options state file).2
      cases loads : Graph.ofFile file.path file.content with
      | error error =>
          refine ⟨sequences, ?_, ?_⟩
          · rw [List.filter_cons_of_neg (by simp [loads, Except.isOk, Except.toBool])]
            exact work
          · rw [analyzeFrom, isSent]
            simp only [analyzeFile, loads]
      | ok graph =>
          obtain ⟨sent, isSentHere, _⟩ := exists_sent_session collects state [] graph
          refine ⟨sent :: sequences, ?_, ?_⟩
          · rw [List.filter_cons_of_pos (by simp [loads, Except.isOk, Except.toBool])]
            exact .cons ⟨graph, state, [], loads, isSentHere⟩ work
          · have isHere : (analyzeFile options state file).2.notifications =
                state.notifications ++ sent := by
              simp only [analyzeFile, loads]
              exact isSentHere
            rw [analyzeFrom, isSent, isHere, List.flatten_cons, List.append_assoc]

/-- The statistics that several analyses share are the same, however the analyses
interleave: the kinds are always listed in one order, and nothing that was reported
about them is lost. -/
theorem interleavings_agree (collects : options.collectStatistics = true)
    (work : List.Forall₂ (Sends options) files sequences)
    (fits : ∀ kind, (sequences.map (timeOf kind)).sum < durationBound) :
    ∃ statistics, Statistics.Combines ["TotalWeight", "LookupDeclaration", "DependencyDepth"]
        sequences statistics ∧
      ∀ merged, Interleaving sequences merged →
        Statistics.ofNotifications merged = statistics ∧ Statistics.NoneLost merged :=
  Statistics.exists_combines (by decide) (inOrder_of_sends collects work) fits

/-- What a file sends when its analysis begins with the given times. -/
private theorem sends_of_ofFile {file : SourceFile} {sent : List Notification}
    (clock : List Duration)
    (isSent : (Graph.ofFile file.path file.content).toOption.map (fun graph =>
      (Analysis.run graph { session options {} with clock := clock }).2.notifications) =
        some sent) : Sends options file sent := by
  cases loads : Graph.ofFile file.path file.content with
  | error error =>
      rw [loads] at isSent
      cases isSent
  | ok graph =>
      rw [loads] at isSent
      exact ⟨graph, {}, clock, loads, Option.some.inj isSent⟩

/-- A file whose only declaration depends on itself never asks for a depth, and yet
the kinds are the same whichever of the two files is ahead. -/
theorem interleavings_agree_loop_leaf :
    let files : List SourceFile :=
      [⟨"loop.json",
          .ok "\x7b\"declarations\":[\x7b\"name\":\"a\",\"dependsOn\":[\"a\"]\x7d]\x7d"⟩,
        ⟨"leaf.json", .ok "\x7b\"declarations\":[\x7b\"name\":\"b\"\x7d]\x7d"⟩]
    let loop : List Notification :=
      [.started "TotalWeight" "(\"loop.json\", \"a\")",
        .started "LookupDeclaration" "(\"loop.json\", \"a\")",
        .finished "LookupDeclaration" ⟨1, by decide⟩, .finished "TotalWeight" ⟨2, by decide⟩]
    let leaf : List Notification :=
      [.started "TotalWeight" "(\"leaf.json\", \"b\")",
        .started "LookupDeclaration" "(\"leaf.json\", \"b\")",
        .finished "LookupDeclaration" ⟨4, by decide⟩, .finished "TotalWeight" ⟨8, by decide⟩,
        .started "DependencyDepth" "(\"leaf.json\", \"b\")",
        .started "LookupDeclaration" "(\"leaf.json\", \"b\")",
        .finished "LookupDeclaration" ⟨16, by decide⟩, .finished "DependencyDepth" ⟨32, by decide⟩]
    List.Forall₂ (Sends { collectStatistics := true }) files [loop, leaf] ∧
      ∀ merged, Interleaving [loop, leaf] merged →
        Statistics.ofNotifications merged =
          [⟨"TotalWeight", 2, ⟨10, by decide⟩⟩, ⟨"LookupDeclaration", 3, ⟨21, by decide⟩⟩,
            ⟨"DependencyDepth", 1, ⟨32, by decide⟩⟩] := by
  intro files loop leaf
  have work : List.Forall₂ (Sends { collectStatistics := true }) files [loop, leaf] := by
    refine .cons (sends_of_ofFile [⟨1, by decide⟩, ⟨2, by decide⟩] ?_)
      (.cons (sends_of_ofFile [⟨4, by decide⟩, ⟨8, by decide⟩, ⟨16, by decide⟩, ⟨32, by decide⟩] ?_)
        .nil)
    · decide +kernel
    · decide +kernel
  have fits : ∀ kind, ([loop, leaf].map (timeOf kind)).sum < durationBound := by
    intro kind
    simp only [loop, leaf, timeOf, Notification.time, List.map_cons, List.map_nil, List.sum_cons,
      List.sum_nil]
    split_ifs <;> decide
  obtain ⟨statistics, _, agree⟩ := interleavings_agree rfl work fits
  refine ⟨work, fun merged interleaves => ?_⟩
  rw [(agree merged interleaves).1, ← (agree _ (.flatten _)).1]
  decide +kernel

end Batch

end RequestEngine
