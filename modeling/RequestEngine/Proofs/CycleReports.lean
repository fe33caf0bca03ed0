import RequestEngine.Fixtures
import RequestEngine.Proofs.Counting
import RequestEngine.Proofs.StackDiscipline
import RequestEngine.Proofs.Uncached

/-!
Contract: cycle errors are genuine, and reported where they are built.

Owns:
- computations that get cycle errors only from the requests that they ask for;
- where the cycle error that a computation fails with comes from;
- the chain of a cycle error and the diagnostics that go with it;
- that no failure is replaced by a default in silence.

An error travels through any number of computations before it is seen. It is
read off the history of a run where it was built, and it is compared there with
the stack.

Does not own: which requests take part in cycles.
-/

namespace RequestEngine

variable {Request : Type} {Value : Request → Type} {World : Type} {α β : Type}

/-! ### Computations that hand cycle errors on -/

/-- A computation fails with cycle errors only that it was handed, before or by
one of its own requests. -/
def Computation.HandsOn (handed : CycleError → Prop) :
    Computation Request Value World α → Prop
  | .done _ | .abort _ => True
  | .fail failure => ∀ error, failure = .cycle error → handed error
  | .ask _ resume =>
      ∀ answer, (resume answer).HandsOn fun error =>
        handed error ∨ answer = .error (.cycle error)
  | .activeRequests resume => ∀ displays, (resume displays).HandsOn handed
  | .isActive _ resume | .isCached _ resume => ∀ holds, (resume holds).HandsOn handed
  | .report _ next | .update _ next => next.HandsOn handed
  | .read resume => ∀ world, (resume world).HandsOn handed

namespace Computation

variable {computation : Computation Request Value World α}
variable {next : α → Computation Request Value World β} {handed more : CycleError → Prop}

theorem HandsOn.mono (handsOn : computation.HandsOn handed)
    (includes : ∀ error, handed error → more error) : computation.HandsOn more := by
  induction computation generalizing handed more with
  | done value => exact trivial
  | abort message => exact trivial
  | fail failure => exact fun error isCycle => includes error (handsOn error isCycle)
  | ask request resume inductionHypothesis =>
      exact fun answer => inductionHypothesis answer (handsOn answer) fun error =>
        Or.imp_left (includes error)
  | activeRequests resume inductionHypothesis =>
      exact fun displays => inductionHypothesis displays (handsOn displays) includes
  | isActive request resume inductionHypothesis =>
      exact fun holds => inductionHypothesis holds (handsOn holds) includes
  | isCached request resume inductionHypothesis =>
      exact fun holds => inductionHypothesis holds (handsOn holds) includes
  | report diagnostic rest inductionHypothesis => exact inductionHypothesis handsOn includes
  | read resume inductionHypothesis =>
      exact fun world => inductionHypothesis world (handsOn world) includes
  | update change rest inductionHypothesis => exact inductionHypothesis handsOn includes

theorem HandsOn.bind (handsOn : computation.HandsOn handed)
    (nextHandsOn : ∀ value, (next value).HandsOn handed) :
    (computation.bind next).HandsOn handed := by
  induction computation generalizing handed with
  | done value => exact nextHandsOn value
  | abort message => exact trivial
  | fail failure => exact handsOn
  | ask request resume inductionHypothesis =>
      exact fun answer => inductionHypothesis answer (handsOn answer) fun value =>
        (nextHandsOn value).mono fun _ => .inl
  | activeRequests resume inductionHypothesis =>
      exact fun displays => inductionHypothesis displays (handsOn displays) nextHandsOn
  | isActive request resume inductionHypothesis =>
      exact fun holds => inductionHypothesis holds (handsOn holds) nextHandsOn
  | isCached request resume inductionHypothesis =>
      exact fun holds => inductionHypothesis holds (handsOn holds) nextHandsOn
  | report diagnostic rest inductionHypothesis => exact inductionHypothesis handsOn nextHandsOn
  | read resume inductionHypothesis =>
      exact fun world => inductionHypothesis world (handsOn world) nextHandsOn
  | update change rest inductionHypothesis => exact inductionHypothesis handsOn nextHandsOn

theorem handsOn_evaluate (request : Request) :
    (Computation.evaluate request : Computation Request Value World _).HandsOn handed := by
  intro answer
  cases answer with
  | ok value => exact trivial
  | error failure => exact fun error isCycle => .inr (by rw [isCycle])

theorem handsOn_evaluateOrDefault (display : Request → String) (request : Request)
    (default : Value request) :
    (Computation.evaluateOrDefault display request default :
      Computation Request Value World _).HandsOn handed := by
  intro answer
  cases answer with
  | ok value => exact trivial
  | error failure => cases failure <;> exact trivial

end Computation

variable [DecidableEq Request]

/-! ### Where a cycle error is built -/

namespace Program

variable {program : Program Request Value World} {request : Request}
variable {session moment next after final : Session Request Value World}
variable {computation : Computation Request Value World α}
variable {history : List (Event Request Value World)} {error : CycleError}

/-- A cycle error was built in a history: a request was rejected with it. -/
def Builds (history : List (Event Request Value World)) (error : CycleError) : Prop :=
  ∃ request diagnostics, .received request (.rejected error diagnostics) ∈ history

omit [DecidableEq Request] in
theorem Builds.mono {part whole : List (Event Request Value World)} (builds : Builds part error)
    (isPart : part ⊆ whole) : Builds whole error := by
  obtain ⟨request, diagnostics, happened⟩ := builds
  exact ⟨request, diagnostics, isPart happened⟩

/-- A computation that fails with a cycle error was handed it before, or the
error was built in its run. -/
theorem Run.handed_or_builds {ended : Option (Outcome α)} {handed : CycleError → Prop}
    (runs : Run program computation session history ended final)
    (ends : ended = some (.failed (.cycle error)))
    (allHandOn : ∀ request, (program.compute request).HandsOn fun _ => False)
    (handsOn : computation.HandsOn handed) : handed error ∨ Builds history error := by
  induction runs generalizing handed error with
  | underWay => cases ends
  | unnoticed _ _ => cases ends
  | within _ _ _ => cases ends
  | done => cases ends
  | abort => cases ends
  | refused _ _ => cases ends
  | unkept _ _ _ _ => cases ends
  | abandoned _ _ _ => cases ends
  | isCachedRefused _ => cases ends
  | fail =>
      cases ends
      exact .inl (handsOn error rfl)
  | @answered _ request _ _ _ _ reception answer _ _ _ answers _ later =>
      rcases later ends (handsOn answer) with (wasHanded | rfl) | builds
      · exact .inl wasHanded
      · cases reception with
        | rejected _ diagnostics =>
            cases answers
            exact .inr ⟨request, diagnostics, List.mem_cons_self⟩
        | _ => cases answers
      · exact .inr (builds.mono (List.subset_cons_self _ _))
  | @returned _ request _ _ _ _ _ _ answer inner history _ _ _ _ _ inside later =>
      have innerPart : inner ⊆
          .received request .computing :: (inner ++ .finished request answer :: history) :=
        List.subset_cons_of_subset _ (List.subset_append_left _ _)
      have laterPart : history ⊆
          .received request .computing :: (inner ++ .finished request answer :: history) :=
        List.subset_cons_of_subset _
          (List.subset_append_of_subset_right _ (List.subset_cons_self _ _))
      rcases later ends (handsOn answer) with (wasHanded | rfl) | builds
      · exact .inl wasHanded
      · rcases inside rfl (allHandOn request) with never | builds
        · exact never.elim
        · exact .inr (builds.mono innerPart)
      · exact .inr (builds.mono laterPart)
  | activeRequests _ later => exact later ends (handsOn _)
  | isActive _ later => exact later ends (handsOn _)
  | isCached _ _ later => exact later ends (handsOn _)
  | report _ later =>
      exact (later ends handsOn).imp_right (·.mono (List.subset_cons_self _ _))
  | read _ later => exact later ends (handsOn _)
  | update _ later =>
      exact (later ends handsOn).imp_right (·.mono (List.subset_cons_self _ _))

/-! ### How a request is rejected -/

/-- A request is rejected because it is active and no cache answers it. Its
error and its diagnostics tell about the stack from the request itself up. -/
structure Narrated (program : Program Request Value World) (moment : Session Request Value World)
    (request : Request) (error : CycleError) (diagnostics : List Diagnostic)
    (next : Session Request Value World) : Prop where
  vacant : moment.core.held? program request = none
  /-- The request is on the stack once. One entry of the chain and one report
  stand for it, one each for everything above it, and one for its rejection. -/
  traced : ∃ below above, moment.evaluator.active = below ++ request :: above ∧
    request ∉ below ∧ request ∉ above ∧
    error.chain = (request :: above).map program.display ++ [program.display request] ∧
    diagnostics = program.cycleDiagnostics request ++ above.flatMap program.stepDiagnostics ++
      program.stepDiagnostics request
  names : error.request = program.display request
  /-- The chain begins and ends with the request. -/
  closed : 2 ≤ error.chain.length ∧ error.chain.head? = some error.request ∧
    error.chain.getLast? = some error.request
  /-- The diagnostics are reported, behind everything reported before. -/
  reported : next.diagnostics = moment.diagnostics ++ diagnostics
  counted : next.evaluator.metrics.cyclesDetected = moment.evaluator.metrics.cyclesDetected + 1
  /-- The stack, the caches and the state of the program stay as they are. -/
  unchanged : next.core = moment.core

/-- A cycle goes from the first occurrence of its request to the top. -/
theorem cycleSteps_append {below above : List Request} (notBelow : request ∉ below) :
    Session.cycleSteps request (below ++ request :: above) = request :: above := by
  unfold Session.cycleSteps
  rw [List.dropWhile_append_of_pos, List.dropWhile_cons_of_neg (by simp)]
  intro other isBelow
  have differs : other ≠ request := fun same => notBelow (same ▸ isBelow)
  simpa using differs

/-- Every rejection is narrated. -/
theorem narrated_of_rejected {diagnostics : List Diagnostic}
    (step : Step program moment (.received request (.rejected error diagnostics)) next)
    (distinct : moment.evaluator.active.Nodup) :
    Narrated program moment request error diagnostics next := by
  cases step with
  | received receives =>
      have received := Session.receive_eq_iff.mp receives
      have reported := received.diagnostics_eq
      have unchanged := received.core_eq
      cases received with
      | rejected meets _ vacant isActive =>
          obtain ⟨below, above, active⟩ := List.append_of_mem isActive
          rw [active] at distinct
          obtain ⟨_, distinctAbove, apart⟩ := List.nodup_append.mp distinct
          have notBelow : request ∉ below :=
            fun isBelow => apart request isBelow request List.mem_cons_self rfl
          have chain : (moment.cycleError program request).chain =
              (request :: above).map program.display ++ [program.display request] := by
            simp only [Session.cycleError, active, cycleSteps_append notBelow]
          have report : Session.cycleReport program request
              (Session.cycleSteps request moment.evaluator.active) =
              program.cycleDiagnostics request ++ above.flatMap program.stepDiagnostics ++
                program.stepDiagnostics request := by
            rw [active, cycleSteps_append notBelow]
            rfl
          have notAbove := (List.nodup_cons.mp distinctAbove).1
          refine ⟨vacant, ⟨below, above, active, notBelow, notAbove, chain, report⟩, rfl, ?_,
            reported, ?_, unchanged⟩
          · rw [chain]
            exact ⟨by simp, rfl, List.getLast?_concat⟩
          · rw [Session.metrics_rejected, ← Session.metrics_of_meets meets]
            rfl

/-! ### What a caller learns -/

/-- A cycle error that a call ends with was built in the call, where a request
was rejected, and was reported there. Nothing on the way out has changed it. -/
inductive Originates (program : Program Request Value World) (session : Session Request Value World)
    (request : Request) (error : CycleError) (after : Session Request Value World) : Prop where
  | intro {earlier later : List (Event Request Value World)} {culprit : Request}
      {diagnostics before behind : List Diagnostic} {moment next : Session Request Value World}
      (runs : Run program (Computation.evaluate request) session
        (earlier ++ .received culprit (.rejected error diagnostics) :: later)
        (some (.failed (.cycle error))) after)
      (reaches : Run program (Computation.evaluate request) session earlier none moment)
      (rejects : Step program moment (.received culprit (.rejected error diagnostics)) next)
      (narrated : Narrated program moment culprit error diagnostics next)
      (reportedBefore : moment.diagnostics = session.diagnostics ++ before)
      (reportedBehind : after.diagnostics = next.diagnostics ++ behind)

/-- What evaluations from a session promise about cycles. -/
structure CyclesNarrated (program : Program Request Value World)
    (session : Session Request Value World) : Prop where
  /-- Every rejection is narrated, also if its error is never seen. -/
  rejected : ∀ {request earlier later culprit error diagnostics ended final},
    Run program (Computation.evaluate request) session
      (earlier ++ .received culprit (.rejected error diagnostics) :: later) ended final →
    ∃ moment next, Run program (Computation.evaluate request) session earlier none moment ∧
      Step program moment (.received culprit (.rejected error diagnostics)) next ∧
      Steps program next later final ∧
      Narrated program moment culprit error diagnostics next
  /-- A cycle error that is returned was built and reported in the call. -/
  returned : ∀ {depth request error after},
    program.evaluate depth request session = (.failed (.cycle error), after) →
    Originates program session request error after
  /-- A default never replaces a failure in silence: a cycle error was reported in
  the call, and any other one is reported behind it. -/
  defaulted : ∀ {depth request default value after},
    program.run depth (.evaluateOrDefault program.display request default) session =
      (.success value, after) →
    program.evaluate depth request session = (.success value, after) ∨
    (value = default ∧ ∃ error middle,
      program.evaluate depth request session = (.failed (.computation error), middle) ∧
      after = middle.reported
        [.ofTemplate .unknown .requestFailed [program.display request, error.full]]) ∨
    (value = default ∧ ∃ error,
      program.evaluate depth request session = (.failed (.cycle error), after) ∧
      Originates program session request error after)

/-- An evaluation with a default goes on after its evaluation has ended. -/
theorem run_evaluateOrDefault {depth : Nat} {default value : Value request}
    (runs : program.run depth (.evaluateOrDefault program.display request default) session =
      (.success value, after)) :
    program.evaluate depth request session = (.success value, after) ∨
    (value = default ∧ ∃ error middle,
      program.evaluate depth request session = (.failed (.computation error), middle) ∧
      after = middle.reported
        [.ofTemplate .unknown .requestFailed [program.display request, error.full]]) ∨
    (value = default ∧ ∃ error,
      program.evaluate depth request session = (.failed (.cycle error), after)) := by
  unfold run Computation.evaluateOrDefault at runs
  rw [Computation.run] at runs
  rcases evaluates : program.evaluate depth request session with ⟨outcome, middle⟩
  rw [evaluates] at runs
  cases outcome with
  | success found =>
      cases runs
      exact .inl rfl
  | aborted message => cases runs
  | tooDeep => cases runs
  | failed failure =>
      cases failure with
      | computation error =>
          cases runs
          exact .inr (.inl ⟨rfl, error, middle, rfl, rfl⟩)
      | cycle error =>
          cases runs
          exact .inr (.inr ⟨rfl, error, rfl⟩)

section Call

variable {permitted : World → World → Prop} {past : List (Event Request Value World)}

private theorem narrated_of_run (reached : Reached program permitted past session)
    {earlier later : List (Event Request Value World)} {culprit : Request}
    {diagnostics : List Diagnostic} {ended : Option (Outcome (Value request))}
    (runs : Run program (Computation.evaluate request) session
      (earlier ++ .received culprit (.rejected error diagnostics) :: later) ended final) :
    ∃ moment next, Run program (Computation.evaluate request) session earlier none moment ∧
      Step program moment (.received culprit (.rejected error diagnostics)) next ∧
      Steps program next later final ∧
      Narrated program moment culprit error diagnostics next := by
  obtain ⟨moment, reaches, behind⟩ := runs.moment rfl
  cases behind with
  | @cons _ next _ _ _ step rest =>
      have distinct := reaches.steps.nodup_active reached.nodup_active
      exact ⟨moment, next, reaches, step, rest, narrated_of_rejected step distinct⟩

private theorem originates (reached : Reached program permitted past session)
    (allHandOn : ∀ request, (program.compute request).HandsOn fun _ => False) {depth : Nat}
    (evaluates : program.evaluate depth request session = (.failed (.cycle error), after)) :
    Originates program session request error after := by
  obtain ⟨call, runs⟩ :=
    exists_run_of_run ((run_evaluate program depth request session).trans evaluates) (by simp)
  have noneHanded : (Computation.evaluate request : Computation Request Value World _).HandsOn
      fun _ => False := Computation.handsOn_evaluate request
  obtain ⟨culprit, diagnostics, happened⟩ :=
    (runs.handed_or_builds rfl allHandOn noneHanded).resolve_left id
  obtain ⟨earlier, later, rfl⟩ := List.append_of_mem happened
  obtain ⟨moment, next, reaches, rejects, rest, narrated⟩ := narrated_of_run reached runs
  exact .intro runs reaches rejects narrated reaches.steps.diagnostics_eq rest.diagnostics_eq

/-- Cycle errors are genuine and reported in every session that an evaluator
reaches, as long as computations get them from their requests only. -/
theorem Reached.cyclesNarrated (reached : Reached program permitted past session)
    (allHandOn : ∀ request, (program.compute request).HandsOn fun _ => False) :
    CyclesNarrated program session where
  rejected := narrated_of_run reached
  returned := originates reached allHandOn
  defaulted := by
    intro depth request default value after runs
    rcases run_evaluateOrDefault runs with evaluates | failed | ⟨isDefault, error, evaluates⟩
    · exact .inl evaluates
    · exact .inr (.inl failed)
    · exact .inr (.inr ⟨isDefault, error, evaluates, originates reached allHandOn evaluates⟩)

end Call

end Program

/-! ### The sample requests -/

namespace Fixtures

private theorem handsOn_raiseAbove {handed : CycleError → Prop} {depth : UInt32}
    {children : List Nat} : (raiseAbove depth children).HandsOn handed := by
  induction children generalizing depth with
  | nil => exact trivial
  | cons child rest inductionHypothesis =>
      refine (Computation.handsOn_evaluate _).bind fun below => ?_
      split
      · exact inductionHypothesis
      · exact trivial

private theorem handsOn_fibonacci {handed : CycleError → Prop} (index : UInt32) :
    (fibonacci index).HandsOn handed := by
  unfold fibonacci
  split
  · exact trivial
  · refine (Computation.handsOn_evaluate _).bind fun previous => ?_
    refine (Computation.handsOn_evaluate _).bind fun beforeThat => ?_
    unfold addNumbers
    split <;> exact trivial

private theorem handsOn_counting {α : Type} {handed : CycleError → Prop}
    (counter : FixtureCounter) {next : UInt32 → FixtureComputation α}
    (goesOn : ∀ calls, (next calls).HandsOn handed) : (counting counter next).HandsOn handed := by
  intro state
  show (ite _ _ _ : FixtureComputation α).HandsOn handed
  split
  · exact goesOn _
  · exact trivial

/-- The samples hand on what they are handed, and make up no cycle errors. -/
theorem handsOn (forest : List TreeNode) (request : FixtureRequest) :
    ((program forest).compute request).HandsOn fun _ => False := by
  show (compute forest request).HandsOn _
  cases request <;> unfold compute
  case square => exact handsOn_counting .square fun _ => trivial
  case squareUncached => exact handsOn_counting .squareUncached fun _ => trivial
  case fibonacci index => exact handsOn_counting .fibonacci fun _ => handsOn_fibonacci index
  case cycleA => exact Computation.handsOn_evaluate _
  case cycleB => exact Computation.handsOn_evaluate _
  case selfCycle => exact Computation.handsOn_evaluate _
  case failing => exact handsOn_counting .failing fun _ error isCycle => nomatch isCycle
  case flaky =>
    apply handsOn_counting .flaky
    intro calls
    split
    · exact fun error isCycle => nomatch isCycle
    · exact trivial
  case nodeDepth => exact handsOn_counting .nodeDepth fun _ => handsOn_raiseAbove

end Fixtures

/-- Two samples that ask for each other. -/
theorem Program.cyclesNarrated_cycleA :
    let program := Fixtures.program []
    let created : Session FixtureRequest FixtureValue FixtureState :=
      { evaluator := .fresh {} false, world := {} }
    ∃ error after, program.evaluate 3 (.cycleA 7) created = (.failed (.cycle error), after) ∧
      error.chain = ["CycleA(7)", "CycleB(7)", "CycleA(7)"] ∧
      CyclesNarrated program created := by
  intro program created
  have reached : Reached program (fun _ _ => True) [] created := .created rfl
  exact ⟨_, _, rfl, by decide, reached.cyclesNarrated (Fixtures.handsOn [])⟩

end RequestEngine
