import RequestEngine.Proofs.Reception

/-!
Contract: runs, the executions of computations with everything that happens in them.

Owns:
- events, the observable moments of a run;
- runs of a computation, either to their end or up to any moment before it;
- agreement of runs with evaluation;
- determinism of runs.

A run says nothing about depth. A computation that evaluation answers has a run
to the same answer, and a run to an answer is what evaluation yields at every
depth that is large enough. Runs that are cut short describe the states in the
middle of a computation, also of one that never ends.

Does not own: what all runs have in common.
-/

namespace RequestEngine

/-- What happens during a run. -/
inductive Event (Request : Type) (Value : Request → Type) (World : Type) where
  /-- A request was taken up. -/
  | received (request : Request) (reception : Reception (Value request))
  /-- The computation of a request was answered, and left the stack. -/
  | finished (request : Request) (answer : Except Failure (Value request))
  /-- The computation of a request ended abruptly. -/
  | abandoned (request : Request)
  /-- A computation reported a diagnostic. -/
  | reported (diagnostic : Diagnostic)
  /-- A computation changed the state of the program. -/
  | updated (change : World → World)

namespace Reception

variable {α : Type}

/-- A request is settled at once, ends everything, or has to be computed. -/
theorem settled_or_computing (reception : Reception α) :
    (∃ answer, reception.answer? = some answer) ∨
      (∃ message, reception.refusal? = some message) ∨ reception = .computing := by
  cases reception with
  | conflicting conflict => exact .inr (.inl ⟨_, rfl⟩)
  | refused clash => exact .inr (.inl ⟨_, rfl⟩)
  | held value => exact .inl ⟨_, rfl⟩
  | rejected error diagnostics => exact .inl ⟨_, rfl⟩
  | computing => exact .inr (.inr rfl)

end Reception

namespace Program

variable {Request : Type} [DecidableEq Request] {Value : Request → Type} {World : Type}

/-- The runs of a computation. A run leads from a session to a session with a
history of events. It has an outcome when the computation has ended, and none
while the computation is still under way. -/
inductive Run (program : Program Request Value World) :
    {α : Type} → Computation Request Value World α → Session Request Value World →
      List (Event Request Value World) → Option (Outcome α) → Session Request Value World → Prop
    where
  | underWay {α : Type} {computation : Computation Request Value World α}
      {session : Session Request Value World} :
      Run program computation session [] none session
  /-- The computation has ended, and nobody has noticed yet. -/
  | unnoticed {α : Type} {computation : Computation Request Value World α}
      {session final : Session Request Value World} {history : List (Event Request Value World)}
      {outcome : Outcome α}
      (ends : Run program computation session history (some outcome) final) :
      Run program computation session history none final
  | done {α : Type} {value : α} {session : Session Request Value World} :
      Run program (.done value) session [] (some (.success value)) session
  | fail {α : Type} {failure : Failure} {session : Session Request Value World} :
      Run program (.fail failure : Computation Request Value World α) session []
        (some (.failed failure)) session
  | abort {α : Type} {message : String} {session : Session Request Value World} :
      Run program (.abort message : Computation Request Value World α) session []
        (some (.aborted message)) session
  /-- The request is settled at once. -/
  | answered {α : Type} {request : Request}
      {resume : Except Failure (Value request) → Computation Request Value World α}
      {session after final : Session Request Value World} {reception : Reception (Value request)}
      {answer : Except Failure (Value request)} {history : List (Event Request Value World)}
      {ended : Option (Outcome α)}
      (receives : session.receive program request = (reception, after))
      (answers : reception.answer? = some answer)
      (resumes : Run program (resume answer) after history ended final) :
      Run program (.ask request resume) session (.received request reception :: history) ended final
  /-- The request cannot be taken up. -/
  | refused {α : Type} {request : Request}
      {resume : Except Failure (Value request) → Computation Request Value World α}
      {session after : Session Request Value World} {reception : Reception (Value request)}
      {message : String}
      (receives : session.receive program request = (reception, after))
      (refuses : reception.refusal? = some message) :
      Run program (.ask request resume) session [.received request reception]
        (some (.aborted message)) after
  /-- The computation of the request is under way. -/
  | within {α : Type} {request : Request}
      {resume : Except Failure (Value request) → Computation Request Value World α}
      {session entered moment : Session Request Value World}
      {inner : List (Event Request Value World)}
      (receives : session.receive program request = (.computing, entered))
      (computes : Run program (program.compute request) entered inner none moment) :
      Run program (.ask request resume) session (.received request .computing :: inner) none moment
  /-- The computation of the request was answered, and its answer handed on. -/
  | returned {α : Type} {request : Request}
      {resume : Except Failure (Value request) → Computation Request Value World α}
      {session entered computed left final : Session Request Value World}
      {answer : Except Failure (Value request)} {inner history : List (Event Request Value World)}
      {ended : Option (Outcome α)}
      (receives : session.receive program request = (.computing, entered))
      (computes : Run program (program.compute request) entered inner (some (.ofAnswer answer))
        computed)
      (concludes : computed.concluded program request (.ofAnswer answer) = (.ofAnswer answer, left))
      (resumes : Run program (resume answer) left history ended final) :
      Run program (.ask request resume) session
        (.received request .computing :: (inner ++ .finished request answer :: history)) ended final
  /-- The computation of the request was answered, but the answer could not be kept. -/
  | unkept {α : Type} {request : Request}
      {resume : Except Failure (Value request) → Computation Request Value World α}
      {session entered computed left : Session Request Value World}
      {answer : Except Failure (Value request)} {inner : List (Event Request Value World)}
      {message : String}
      (receives : session.receive program request = (.computing, entered))
      (computes : Run program (program.compute request) entered inner (some (.ofAnswer answer))
        computed)
      (concludes : computed.concluded program request (.ofAnswer answer) =
        (.aborted message, left)) :
      Run program (.ask request resume) session
        (.received request .computing :: (inner ++ [.finished request answer]))
        (some (.aborted message)) left
  /-- The computation of the request ended abruptly. -/
  | abandoned {α : Type} {request : Request}
      {resume : Except Failure (Value request) → Computation Request Value World α}
      {session entered computed : Session Request Value World}
      {inner : List (Event Request Value World)} {message : String}
      (receives : session.receive program request = (.computing, entered))
      (computes : Run program (program.compute request) entered inner (some (.aborted message))
        computed) :
      Run program (.ask request resume) session
        (.received request .computing :: (inner ++ [.abandoned request]))
        (some (.aborted message)) (computed.notifyFinished (program.kind request).name)
  | activeRequests {α : Type} {resume : List String → Computation Request Value World α}
      {session final : Session Request Value World} {history : List (Event Request Value World)}
      {ended : Option (Outcome α)}
      (resumes : Run program (resume (session.evaluator.active.map program.display)) session
        history ended final) :
      Run program (.activeRequests resume) session history ended final
  | isActive {α : Type} {request : Request} {resume : Bool → Computation Request Value World α}
      {session final : Session Request Value World} {history : List (Event Request Value World)}
      {ended : Option (Outcome α)}
      (resumes : Run program (resume (request ∈ session.evaluator.active)) session history ended
        final) :
      Run program (.isActive request resume) session history ended final
  | isCached {α : Type} {request : Request} {resume : Bool → Computation Request Value World α}
      {session final : Session Request Value World} {holds : Bool}
      {history : List (Event Request Value World)} {ended : Option (Outcome α)}
      (contains : session.evaluator.cache.contains program.kind request = .ok holds)
      (resumes : Run program (resume holds) session history ended final) :
      Run program (.isCached request resume) session history ended final
  | isCachedRefused {α : Type} {request : Request}
      {resume : Bool → Computation Request Value World α} {session : Session Request Value World}
      {clash : IdentityClash}
      (contains : session.evaluator.cache.contains program.kind request = .error clash) :
      Run program (.isCached request resume) session [] (some (.aborted clash.message)) session
  | report {α : Type} {diagnostic : Diagnostic} {next : Computation Request Value World α}
      {session final : Session Request Value World} {history : List (Event Request Value World)}
      {ended : Option (Outcome α)}
      (resumes : Run program next (session.reported [diagnostic]) history ended final) :
      Run program (.report diagnostic next) session (.reported diagnostic :: history) ended final
  | read {α : Type} {resume : World → Computation Request Value World α}
      {session final : Session Request Value World} {history : List (Event Request Value World)}
      {ended : Option (Outcome α)}
      (resumes : Run program (resume session.world) session history ended final) :
      Run program (.read resume) session history ended final
  | update {α : Type} {change : World → World} {next : Computation Request Value World α}
      {session final : Session Request Value World} {history : List (Event Request Value World)}
      {ended : Option (Outcome α)}
      (resumes : Run program next { session with world := change session.world } history ended
        final) :
      Run program (.update change next) session (.updated change :: history) ended final

/-! ### Evaluation by receptions -/

section Evaluate

variable {program : Program Request Value World} {request : Request} {depth : Nat}
variable {session after : Session Request Value World} {reception : Reception (Value request)}

/-- Evaluation takes the request up, and computes it when nothing else settles it. -/
theorem evaluate_succ (program : Program Request Value World) (depth : Nat) (request : Request)
    (session : Session Request Value World) :
    program.evaluate (depth + 1) request session =
      match session.receive program request with
      | (.conflicting conflict, after) => (.aborted conflict.message, after)
      | (.refused clash, after) => (.aborted clash.message, after)
      | (.held value, after) => (.success value, after)
      | (.rejected error _, after) => (.failed (.cycle error), after)
      | (.computing, entered) =>
          let (outcome, computed) := program.run depth (program.compute request) entered
          computed.concluded program request outcome := by
  unfold evaluate Session.receive
  rcases session.meetZone (program.kind request).zone with ⟨conflict, met⟩
  cases conflict with
  | some conflict => rfl
  | none =>
      simp only
      cases (met.recorded request).consult program request with
      | held value => rfl
      | refused clash => rfl
      | missing =>
          simp only
          by_cases isActive : request ∈ (met.recorded request).evaluator.active
          · rw [if_pos isActive, if_pos isActive]
          · rw [if_neg isActive, if_neg isActive]
            rfl

/-- A request that is settled at once is answered without a computation. -/
theorem evaluate_of_answer {answer : Except Failure (Value request)}
    (receives : session.receive program request = (reception, after))
    (answers : reception.answer? = some answer) :
    program.evaluate (depth + 1) request session = (.ofAnswer answer, after) := by
  rw [evaluate_succ, receives]
  cases reception <;> cases answers <;> rfl

theorem evaluate_of_refusal {message : String}
    (receives : session.receive program request = (reception, after))
    (refuses : reception.refusal? = some message) :
    program.evaluate (depth + 1) request session = (.aborted message, after) := by
  rw [evaluate_succ, receives]
  cases reception <;> cases refuses <;> rfl

/-- A request that nothing settles is computed. -/
theorem evaluate_of_computing {entered computed : Session Request Value World}
    {outcome : Outcome (Value request)}
    (receives : session.receive program request = (.computing, entered))
    (computes : program.run depth (program.compute request) entered = (outcome, computed)) :
    program.evaluate (depth + 1) request session = computed.concluded program request outcome := by
  rw [evaluate_succ, receives]
  simp only [computes]

theorem run_ask_of_answer {α : Type} {answer : Except Failure (Value request)}
    {resume : Except Failure (Value request) → Computation Request Value World α}
    (evaluates : program.evaluate depth request session = (.ofAnswer answer, after)) :
    program.run depth (.ask request resume) session = program.run depth (resume answer) after := by
  unfold run
  rw [Computation.run, evaluates]
  cases answer <;> rfl

theorem run_ask_of_abort {α : Type} {message : String}
    {resume : Except Failure (Value request) → Computation Request Value World α}
    (evaluates : program.evaluate depth request session = (.aborted message, after)) :
    program.run depth (.ask request resume) session = (.aborted message, after) := by
  unfold run
  rw [Computation.run, evaluates]

/-- A computation that has a value runs on with what follows it. -/
theorem run_bind_of_success {α β : Type} {computation : Computation Request Value World α}
    {next : α → Computation Request Value World β} {value : α}
    (runs : program.run depth computation session = (.success value, after)) :
    program.run depth (computation.bind next) session = program.run depth (next value) after := by
  induction computation generalizing session with
  | done other =>
      cases runs
      rfl
  | fail failure => cases runs
  | abort message => cases runs
  | ask request resume inductionHypothesis =>
      change program.run depth (.ask request fun answer => (resume answer).bind next) session = _
      rcases evaluates : program.evaluate depth request session with ⟨outcome, middle⟩
      rcases outcome.answered_or_aborted_or_tooDeep with ⟨answer, rfl⟩ | ⟨message, rfl⟩ | rfl
      · rw [run_ask_of_answer evaluates] at runs ⊢
        exact inductionHypothesis answer runs
      · rw [run_ask_of_abort evaluates] at runs
        cases runs
      · rw [run, Computation.run, evaluates] at runs
        cases runs
  | activeRequests resume inductionHypothesis => exact inductionHypothesis _ runs
  | isActive request resume inductionHypothesis => exact inductionHypothesis _ runs
  | isCached request resume inductionHypothesis =>
      change program.run depth (.isCached request fun holds => (resume holds).bind next) session = _
      rw [run, Computation.run] at runs ⊢
      cases contains : session.evaluator.cache.contains program.kind request with
      | error clash =>
          rw [contains] at runs
          cases runs
      | ok holds =>
          rw [contains] at runs
          exact inductionHypothesis holds runs
  | report diagnostic rest inductionHypothesis => exact inductionHypothesis runs
  | read resume inductionHypothesis => exact inductionHypothesis _ runs
  | update change rest inductionHypothesis => exact inductionHypothesis runs

end Evaluate

/-! ### Agreement of runs with evaluation -/

section Agreement

variable {program : Program Request Value World} {α : Type}
variable {session final : Session Request Value World}

private theorem exists_run_ask {depth : Nat} {request : Request} {outcome : Outcome α}
    {resume : Except Failure (Value request) → Computation Request Value World α}
    (nested : ∀ {entered computed : Session Request Value World}
      {outcome : Outcome (Value request)},
      program.run depth (program.compute request) entered = (outcome, computed) →
        outcome ≠ .tooDeep →
        ∃ history, Run program (program.compute request) entered history (some outcome) computed)
    (later : ∀ {answer : Except Failure (Value request)} {after : Session Request Value World},
      program.run (depth + 1) (resume answer) after = (outcome, final) →
        ∃ history, Run program (resume answer) after history (some outcome) final)
    (runs : program.run (depth + 1) (.ask request resume) session = (outcome, final))
    (decided : outcome ≠ .tooDeep) :
    ∃ history, Run program (.ask request resume) session history (some outcome) final := by
  rcases receives : session.receive program request with ⟨reception, after⟩
  rcases reception.settled_or_computing with ⟨answer, answers⟩ | ⟨message, refuses⟩ | rfl
  · rw [run_ask_of_answer (evaluate_of_answer receives answers)] at runs
    obtain ⟨history, resumes⟩ := later runs
    exact ⟨_, .answered receives answers resumes⟩
  · rw [run_ask_of_abort (evaluate_of_refusal receives refuses)] at runs
    cases runs
    exact ⟨_, .refused receives refuses⟩
  · rcases computes : program.run depth (program.compute request) after with ⟨inside, computed⟩
    have evaluates := evaluate_of_computing receives computes
    rcases inside.answered_or_aborted_or_tooDeep with ⟨answer, rfl⟩ | ⟨message, rfl⟩ | rfl
    · obtain ⟨inner, innerRuns⟩ := nested computes (by simp)
      rcases Session.concluded_answer program request answer computed with
        ⟨left, concludes⟩ | ⟨message, left, concludes⟩
      · rw [run_ask_of_answer (evaluates.trans concludes)] at runs
        obtain ⟨history, resumes⟩ := later runs
        exact ⟨_, .returned receives innerRuns concludes resumes⟩
      · rw [run_ask_of_abort (evaluates.trans concludes)] at runs
        cases runs
        exact ⟨_, .unkept receives innerRuns concludes⟩
    · obtain ⟨inner, innerRuns⟩ := nested computes (by simp)
      rw [run_ask_of_abort evaluates] at runs
      cases runs
      exact ⟨_, .abandoned receives innerRuns⟩
    · unfold run at runs
      rw [Computation.run, evaluates] at runs
      cases runs
      exact absurd rfl decided

/-- Apart from what it asks for, a computation runs as evaluation conducts it. -/
private theorem exists_run_of_asks {depth : Nat} {computation : Computation Request Value World α}
    {outcome : Outcome α}
    (asks : ∀ {request : Request} {session : Session Request Value World}
      {resume : Except Failure (Value request) → Computation Request Value World α},
      (∀ {answer : Except Failure (Value request)} {after : Session Request Value World},
        program.run depth (resume answer) after = (outcome, final) →
          ∃ history, Run program (resume answer) after history (some outcome) final) →
        program.run depth (.ask request resume) session = (outcome, final) →
        ∃ history, Run program (.ask request resume) session history (some outcome) final)
    (runs : program.run depth computation session = (outcome, final)) :
    ∃ history, Run program computation session history (some outcome) final := by
  induction computation generalizing session with
  | done value =>
      cases runs
      exact ⟨[], .done⟩
  | fail failure =>
      cases runs
      exact ⟨[], .fail⟩
  | abort message =>
      cases runs
      exact ⟨[], .abort⟩
  | ask request resume later =>
      exact asks (fun runs => later _ runs) runs
  | activeRequests resume later =>
      obtain ⟨history, resumes⟩ := later _ runs
      exact ⟨history, .activeRequests resumes⟩
  | isActive request resume later =>
      obtain ⟨history, resumes⟩ := later _ runs
      exact ⟨history, .isActive resumes⟩
  | isCached request resume later =>
      rw [run, Computation.run] at runs
      cases contains : session.evaluator.cache.contains program.kind request with
      | ok holds =>
          rw [contains] at runs
          obtain ⟨history, resumes⟩ := later _ runs
          exact ⟨history, .isCached contains resumes⟩
      | error clash =>
          rw [contains] at runs
          cases runs
          exact ⟨[], .isCachedRefused contains⟩
  | report diagnostic next later =>
      obtain ⟨history, resumes⟩ := later runs
      exact ⟨_, .report resumes⟩
  | read resume later =>
      obtain ⟨history, resumes⟩ := later _ runs
      exact ⟨history, .read resumes⟩
  | update change next later =>
      obtain ⟨history, resumes⟩ := later runs
      exact ⟨_, .update resumes⟩

/-- What evaluation decides, a run reaches. -/
theorem exists_run_of_run {depth : Nat} {computation : Computation Request Value World α}
    {outcome : Outcome α} (runs : program.run depth computation session = (outcome, final))
    (decided : outcome ≠ .tooDeep) :
    ∃ history, Run program computation session history (some outcome) final := by
  induction depth generalizing α session final with
  | zero =>
      refine exists_run_of_asks (fun _ runs => ?_) runs
      cases runs
      exact absurd rfl decided
  | succ depth deeper =>
      exact exists_run_of_asks (fun later runs => exists_run_ask deeper later runs decided) runs

/-- What a run reaches, evaluation decides at every depth that is large enough. -/
theorem Run.decided {computation : Computation Request Value World α}
    {history : List (Event Request Value World)} {ended : Option (Outcome α)}
    {outcome : Outcome α} (runs : Run program computation session history ended final)
    (ends : ended = some outcome) :
    ∃ depth, ∀ deeper, depth ≤ deeper →
      program.run deeper computation session = (outcome, final) := by
  induction runs with
  | underWay => cases ends
  | unnoticed _ _ => cases ends
  | done =>
      cases ends
      exact ⟨0, fun _ _ => rfl⟩
  | fail =>
      cases ends
      exact ⟨0, fun _ _ => rfl⟩
  | abort =>
      cases ends
      exact ⟨0, fun _ _ => rfl⟩
  | answered receives answers _ later =>
      obtain ⟨depth, decides⟩ := later ends
      refine ⟨depth + 1, fun deeper enough => ?_⟩
      obtain ⟨below, rfl⟩ := Nat.exists_eq_add_of_le' (Nat.le_of_add_left_le enough)
      rw [run_ask_of_answer (evaluate_of_answer receives answers)]
      exact decides _ (Nat.le_of_add_right_le enough)
  | refused receives refuses =>
      cases ends
      refine ⟨1, fun deeper enough => ?_⟩
      obtain ⟨below, rfl⟩ := Nat.exists_eq_add_of_le' enough
      exact run_ask_of_abort (evaluate_of_refusal receives refuses)
  | within _ _ _ => cases ends
  | returned receives _ concludes _ inside later =>
      -- One more level than the computation, and as many as the rest.
      obtain ⟨inner, computes⟩ := inside rfl
      obtain ⟨outer, decides⟩ := later ends
      refine ⟨max inner outer + 1, fun deeper enough => ?_⟩
      obtain ⟨below, rfl⟩ := Nat.exists_eq_add_of_le' (Nat.le_of_add_left_le enough)
      have evaluates := evaluate_of_computing receives (computes below (by omega))
      rw [run_ask_of_answer (evaluates.trans concludes)]
      exact decides _ (by omega)
  | unkept receives _ concludes inside =>
      cases ends
      obtain ⟨inner, computes⟩ := inside rfl
      refine ⟨inner + 1, fun deeper enough => ?_⟩
      obtain ⟨below, rfl⟩ := Nat.exists_eq_add_of_le' (Nat.le_of_add_left_le enough)
      have evaluates := evaluate_of_computing receives (computes below (by omega))
      exact run_ask_of_abort (evaluates.trans concludes)
  | abandoned receives _ inside =>
      cases ends
      obtain ⟨inner, computes⟩ := inside rfl
      refine ⟨inner + 1, fun deeper enough => ?_⟩
      obtain ⟨below, rfl⟩ := Nat.exists_eq_add_of_le' (Nat.le_of_add_left_le enough)
      exact run_ask_of_abort (evaluate_of_computing receives (computes below (by omega)))
  | activeRequests _ later =>
      obtain ⟨depth, decides⟩ := later ends
      exact ⟨depth, decides⟩
  | isActive _ later =>
      obtain ⟨depth, decides⟩ := later ends
      exact ⟨depth, decides⟩
  | isCached contains _ later =>
      obtain ⟨depth, decides⟩ := later ends
      refine ⟨depth, fun deeper enough => ?_⟩
      rw [run, Computation.run, contains]
      exact decides deeper enough
  | isCachedRefused contains =>
      cases ends
      refine ⟨0, fun deeper _ => ?_⟩
      rw [run, Computation.run, contains]
  | report _ later =>
      obtain ⟨depth, decides⟩ := later ends
      exact ⟨depth, decides⟩
  | read _ later =>
      obtain ⟨depth, decides⟩ := later ends
      exact ⟨depth, decides⟩
  | update _ later =>
      obtain ⟨depth, decides⟩ := later ends
      exact ⟨depth, decides⟩

end Agreement

/-! ### Runs are deterministic -/

section Unique

variable {program : Program Request Value World} {α : Type} {request : Request}
variable {resume : Except Failure (Value request) → Computation Request Value World α}
variable {session after final : Session Request Value World}
variable {history : List (Event Request Value World)} {outcome : Outcome α}

omit [DecidableEq Request] in
private theorem not_answered_and_refused {reception : Reception (Value request)}
    {answer : Except Failure (Value request)} {message : String}
    (answers : reception.answer? = some answer) : reception.refusal? ≠ some message := by
  cases reception with
  | held value => simp [Reception.refusal?]
  | rejected error diagnostics => simp [Reception.refusal?]
  | conflicting conflict => cases answers
  | refused clash => cases answers
  | computing => cases answers

private theorem Run.ask_answered {ended : Option (Outcome α)}
    {reception : Reception (Value request)} {answer : Except Failure (Value request)}
    (runs : Run program (.ask request resume) session history ended final)
    (ends : ended = some outcome)
    (receives : session.receive program request = (reception, after))
    (answers : reception.answer? = some answer) :
    ∃ rest, history = .received request reception :: rest ∧
      Run program (resume answer) after rest ended final := by
  have notComputing := Reception.ne_computing_of_answer answers
  cases runs with
  | underWay => cases ends
  | unnoticed _ => cases ends
  | answered otherReceives otherAnswers resumes =>
      cases receives.symm.trans otherReceives
      cases answers.symm.trans otherAnswers
      exact ⟨_, rfl, resumes⟩
  | refused otherReceives refuses =>
      cases receives.symm.trans otherReceives
      exact absurd refuses (not_answered_and_refused answers)
  | within otherReceives _ =>
      cases receives.symm.trans otherReceives
      exact absurd rfl notComputing
  | returned otherReceives _ _ _ =>
      cases receives.symm.trans otherReceives
      exact absurd rfl notComputing
  | unkept otherReceives _ _ =>
      cases receives.symm.trans otherReceives
      exact absurd rfl notComputing
  | abandoned otherReceives _ =>
      cases receives.symm.trans otherReceives
      exact absurd rfl notComputing

private theorem Run.ask_refused {ended : Option (Outcome α)} {reception : Reception (Value request)}
    {message : String}
    (runs : Run program (.ask request resume) session history ended final)
    (ends : ended = some outcome)
    (receives : session.receive program request = (reception, after))
    (refuses : reception.refusal? = some message) :
    history = [.received request reception] ∧ outcome = .aborted message ∧ final = after := by
  have notComputing := Reception.ne_computing_of_refusal refuses
  cases runs with
  | underWay => cases ends
  | unnoticed _ => cases ends
  | answered otherReceives answers _ =>
      cases receives.symm.trans otherReceives
      exact absurd refuses (not_answered_and_refused answers)
  | refused otherReceives otherRefuses =>
      cases receives.symm.trans otherReceives
      cases refuses.symm.trans otherRefuses
      exact ⟨rfl, (Option.some.inj ends).symm, rfl⟩
  | within otherReceives _ =>
      cases receives.symm.trans otherReceives
      exact absurd rfl notComputing
  | returned otherReceives _ _ _ =>
      cases receives.symm.trans otherReceives
      exact absurd rfl notComputing
  | unkept otherReceives _ _ =>
      cases receives.symm.trans otherReceives
      exact absurd rfl notComputing
  | abandoned otherReceives _ =>
      cases receives.symm.trans otherReceives
      exact absurd rfl notComputing

/-- A computation that begins ends, and its end decides how the run goes on. -/
private theorem Run.ask_computed {ended : Option (Outcome α)}
    (runs : Run program (.ask request resume) session history ended final)
    (ends : ended = some outcome)
    (receives : session.receive program request = (.computing, after)) :
    ∃ inside computed inner,
      Run program (program.compute request) after inner (some inside) computed ∧
      ((∃ answer left rest, inside = .ofAnswer answer ∧
          computed.concluded program request inside = (inside, left) ∧
          history = .received request .computing :: (inner ++ .finished request answer :: rest) ∧
          Run program (resume answer) left rest ended final) ∨
        (∃ answer message, inside = .ofAnswer answer ∧
          computed.concluded program request inside = (.aborted message, final) ∧
          history = .received request .computing :: (inner ++ [.finished request answer]) ∧
          outcome = .aborted message) ∨
        (∃ message, inside = .aborted message ∧
          history = .received request .computing :: (inner ++ [.abandoned request]) ∧
          outcome = .aborted message ∧
          final = computed.notifyFinished (program.kind request).name)) := by
  cases runs with
  | underWay => cases ends
  | unnoticed _ => cases ends
  | within _ _ => cases ends
  | answered otherReceives answers _ =>
      cases receives.symm.trans otherReceives
      cases answers
  | refused otherReceives refuses =>
      cases receives.symm.trans otherReceives
      cases refuses
  | returned otherReceives computes concludes resumes =>
      cases receives.symm.trans otherReceives
      exact ⟨_, _, _, computes, .inl ⟨_, _, _, rfl, concludes, rfl, resumes⟩⟩
  | unkept otherReceives computes concludes =>
      cases receives.symm.trans otherReceives
      exact ⟨_, _, _, computes,
        .inr (.inl ⟨_, _, rfl, concludes, rfl, (Option.some.inj ends).symm⟩)⟩
  | abandoned otherReceives computes =>
      cases receives.symm.trans otherReceives
      exact ⟨_, _, _, computes, .inr (.inr ⟨_, rfl, rfl, (Option.some.inj ends).symm, rfl⟩)⟩

/-- A computation has one run to its end at most. -/
theorem Run.unique {computation : Computation Request Value World α} {ended : Option (Outcome α)}
    (runs : Run program computation session history ended final) (ends : ended = some outcome)
    {otherHistory : List (Event Request Value World)} {otherOutcome : Outcome α}
    {otherFinal : Session Request Value World}
    (other : Run program computation session otherHistory (some otherOutcome) otherFinal) :
    history = otherHistory ∧ outcome = otherOutcome ∧ final = otherFinal := by
  induction runs generalizing otherHistory otherFinal with
  | underWay => cases ends
  | unnoticed _ _ => cases ends
  | within _ _ _ => cases ends
  | done =>
      cases ends
      cases other
      exact ⟨rfl, rfl, rfl⟩
  | fail =>
      cases ends
      cases other
      exact ⟨rfl, rfl, rfl⟩
  | abort =>
      cases ends
      cases other
      exact ⟨rfl, rfl, rfl⟩
  | answered receives answers _ later =>
      obtain ⟨rest, rfl, resumes⟩ := other.ask_answered rfl receives answers
      obtain ⟨rfl, sameOutcome, sameFinal⟩ := later ends resumes
      exact ⟨rfl, sameOutcome, sameFinal⟩
  | refused receives refuses =>
      cases ends
      obtain ⟨rfl, rfl, rfl⟩ := other.ask_refused rfl receives refuses
      exact ⟨rfl, rfl, rfl⟩
  | returned receives _ concludes _ inside later =>
      obtain ⟨_, _, _, computes, alternatives⟩ := other.ask_computed rfl receives
      obtain ⟨rfl, rfl, rfl⟩ := inside rfl computes
      rcases alternatives with
        ⟨_, _, _, same, otherConcludes, rfl, resumes⟩ | ⟨_, _, _, otherConcludes, _⟩ |
        ⟨_, same, _⟩
      · cases Outcome.ofAnswer_inj.mp same
        cases concludes.symm.trans otherConcludes
        obtain ⟨rfl, sameOutcome, sameFinal⟩ := later ends resumes
        exact ⟨rfl, sameOutcome, sameFinal⟩
      · have same := congrArg Prod.fst (concludes.symm.trans otherConcludes)
        exact absurd same (Outcome.ofAnswer_ne_aborted _ _)
      · exact absurd same (Outcome.ofAnswer_ne_aborted _ _)
  | unkept receives _ concludes inside =>
      cases ends
      obtain ⟨_, _, _, computes, alternatives⟩ := other.ask_computed rfl receives
      obtain ⟨rfl, rfl, rfl⟩ := inside rfl computes
      rcases alternatives with
        ⟨_, _, _, _, otherConcludes, _⟩ | ⟨_, _, same, otherConcludes, rfl, rfl⟩ | ⟨_, same, _⟩
      · have same := congrArg Prod.fst (otherConcludes.symm.trans concludes)
        exact absurd same (Outcome.ofAnswer_ne_aborted _ _)
      · cases Outcome.ofAnswer_inj.mp same
        cases concludes.symm.trans otherConcludes
        exact ⟨rfl, rfl, rfl⟩
      · exact absurd same (Outcome.ofAnswer_ne_aborted _ _)
  | abandoned receives _ inside =>
      cases ends
      obtain ⟨_, _, _, computes, alternatives⟩ := other.ask_computed rfl receives
      obtain ⟨rfl, rfl, rfl⟩ := inside rfl computes
      rcases alternatives with
        ⟨_, _, _, same, _⟩ | ⟨_, _, same, _⟩ | ⟨_, same, rfl, rfl, rfl⟩
      · exact absurd same.symm (Outcome.ofAnswer_ne_aborted _ _)
      · exact absurd same.symm (Outcome.ofAnswer_ne_aborted _ _)
      · cases same
        exact ⟨rfl, rfl, rfl⟩
  | activeRequests _ later =>
      cases other with
      | activeRequests resumes => exact later ends resumes
  | isActive _ later =>
      cases other with
      | isActive resumes => exact later ends resumes
  | isCached contains _ later =>
      cases other with
      | isCached otherContains resumes =>
          cases contains.symm.trans otherContains
          exact later ends resumes
      | isCachedRefused otherContains => cases contains.symm.trans otherContains
  | isCachedRefused contains =>
      cases ends
      cases other with
      | isCached otherContains resumes => cases contains.symm.trans otherContains
      | isCachedRefused otherContains =>
          cases contains.symm.trans otherContains
          exact ⟨rfl, rfl, rfl⟩
  | report _ later =>
      cases other with
      | report resumes =>
          obtain ⟨rfl, sameOutcome, sameFinal⟩ := later ends resumes
          exact ⟨rfl, sameOutcome, sameFinal⟩
  | read _ later =>
      cases other with
      | read resumes => exact later ends resumes
  | update _ later =>
      cases other with
      | update resumes =>
          obtain ⟨rfl, sameOutcome, sameFinal⟩ := later ends resumes
          exact ⟨rfl, sameOutcome, sameFinal⟩

end Unique

/-! ### Runs of a single evaluation -/

section Single

variable {program : Program Request Value World} {request : Request}
variable {session final : Session Request Value World} {answer : Except Failure (Value request)}
variable {history : List (Event Request Value World)}

private theorem run_handOn {outcome : Outcome (Value request)}
    (runs : Run program
      ((fun | .ok value => .done value | .error failure => .fail failure :
        Except Failure (Value request) → Computation Request Value World (Value request)) answer)
      session history (some outcome) final) :
    history = [] ∧ final = session ∧ outcome = .ofAnswer answer := by
  cases answer <;> cases runs <;> exact ⟨rfl, rfl, rfl⟩

/-- An evaluation is answered at once, or by a computation. -/
theorem Run.evaluate_cases
    (runs : Run program (Computation.evaluate request) session history
      (some (.ofAnswer answer)) final) :
    (∃ reception, session.receive program request = (reception, final) ∧
      reception.answer? = some answer ∧ history = [.received request reception]) ∨
    ∃ entered computed inner, session.receive program request = (.computing, entered) ∧
      Run program (program.compute request) entered inner (some (.ofAnswer answer)) computed ∧
      computed.concluded program request (.ofAnswer answer) = (.ofAnswer answer, final) ∧
      history = .received request .computing :: (inner ++ [.finished request answer]) := by
  generalize ends : some (Outcome.ofAnswer answer) = ended at runs
  cases runs with
  | underWay => cases ends
  | unnoticed _ => cases ends
  | within _ _ => cases ends
  | refused _ _ => exact absurd ends.symm Outcome.aborted_not_answered
  | unkept _ _ _ => exact absurd ends.symm Outcome.aborted_not_answered
  | abandoned _ _ => exact absurd ends.symm Outcome.aborted_not_answered
  | answered receives answers resumes =>
      subst ends
      obtain ⟨rfl, rfl, same⟩ := run_handOn resumes
      obtain rfl := Outcome.ofAnswer_inj.mp same
      exact .inl ⟨_, receives, answers, rfl⟩
  | returned receives computes concludes resumes =>
      subst ends
      obtain ⟨rfl, rfl, same⟩ := run_handOn resumes
      obtain rfl := Outcome.ofAnswer_inj.mp same
      exact .inr ⟨_, _, _, receives, computes, concludes, rfl⟩

private theorem handOn (answer : Except Failure (Value request)) :
    Run program
      ((fun | .ok value => .done value | .error failure => .fail failure :
        Except Failure (Value request) → Computation Request Value World (Value request)) answer)
      session [] (some (.ofAnswer answer)) session := by
  cases answer with
  | ok value => exact .done
  | error failure => exact .fail

theorem Run.evaluate_of_answer {reception : Reception (Value request)}
    (receives : session.receive program request = (reception, final))
    (answers : reception.answer? = some answer) :
    Run program (Computation.evaluate request) session [.received request reception]
      (some (.ofAnswer answer)) final :=
  .answered receives answers (handOn answer)

theorem Run.evaluate_of_computed {entered computed : Session Request Value World}
    (receives : session.receive program request = (.computing, entered))
    (computes : Run program (program.compute request) entered history (some (.ofAnswer answer))
      computed)
    (concludes : computed.concluded program request (.ofAnswer answer) =
      (.ofAnswer answer, final)) :
    Run program (Computation.evaluate request) session
      (.received request .computing :: (history ++ [.finished request answer]))
      (some (.ofAnswer answer)) final :=
  .returned receives computes concludes (handOn answer)

/-- A computation that asks for a request goes on where its evaluation has ended. -/
theorem Run.ask_of_evaluate
    (runs : Run program (Computation.evaluate request) session history
      (some (.ofAnswer answer)) final)
    {α : Type} {resume : Except Failure (Value request) → Computation Request Value World α}
    {further : List (Event Request Value World)} {ended : Option (Outcome α)}
    {last : Session Request Value World}
    (resumes : Run program (resume answer) final further ended last) :
    Run program (.ask request resume) session (history ++ further) ended last := by
  rcases runs.evaluate_cases with
    ⟨reception, receives, answers, rfl⟩ |
    ⟨entered, computed, inner, receives, computes, concludes, rfl⟩
  · exact .answered receives answers resumes
  · have returned := Run.returned receives computes concludes resumes
    simpa using returned

end Single

end Program

end RequestEngine
