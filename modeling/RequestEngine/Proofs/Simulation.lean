import RequestEngine.Proofs.Trust
import RequestEngine.Proofs.Uncached

/-!
Contract: evaluations with caches behave like evaluations without.

Owns:
- the simulation of every answered run by a run without caches;
- that an answered run keeps the caches trusted, and that its answer is the
  settled one wherever there is one.

Does not own: evaluations that end abruptly, or sequences of evaluations.
-/

namespace RequestEngine

variable {Request : Type} [DecidableEq Request] {Value : Request → Type} {World : Type} {α : Type}

namespace Program

variable {program : Program Request Value World}
variable {session final : Session Request Value World}
variable {computation : Computation Request Value World α}
variable {history : List (Event Request Value World)} {answer : Except Failure α}

variable {active : List Request} {request : Request} {larger : Registry}

/-! ### The simulation -/

/-- What is true of every answered run with caches. -/
structure Simulated (program : Program Request Value World)
    (computation : Computation Request Value World α) (session : Session Request Value World)
    (history : List (Event Request Value World)) (answer : Except Failure α)
    (final : Session Request Value World) : Prop where
  /-- The caches can be trusted afterwards. -/
  trusted : Trusted program final
  /-- No zone is lost. -/
  below : session.registry.Below final.registry
  /-- If the computation settles, it is answered as it settles. -/
  determined : ∀ settledAnswer, Settles program computation settledAnswer →
    answer = settledAnswer
  /-- If the answer is no cycle error, the computation settles on it, and every
  zone below is registered. -/
  settles : (∀ error, answer ≠ .error (.cycle error)) → Settles program computation answer ∧
    ∀ needed, Asks program computation needed → ∀ other, DependsOn program needed other →
      final.registry.Holds (program.kind other).zone
  /-- Without caches there is a run to the same answer, with the same cycles. -/
  shadowed : ∀ shadow, Fits session.evaluator.active session.registry shadow →
    ∃ shadowHistory shadowFinal,
      Run program.uncached computation shadow shadowHistory (some (.ofAnswer answer))
        shadowFinal ∧
      Fits session.evaluator.active final.registry shadowFinal ∧
      reportedCycles shadowHistory = reportedCycles history

namespace Simulated

theorem done {value : α} (trusted : Trusted program session) :
    Simulated program (.done value) session [] (.ok value) session where
  trusted := trusted
  below := .refl _
  determined := by
    intro settledAnswer settles
    cases settles
    rfl
  settles := fun _ => ⟨.done, fun _ asks => by cases asks⟩
  shadowed := fun shadow fits => ⟨[], shadow, .done, fits, rfl⟩

theorem fail {failure : Failure} (trusted : Trusted program session) :
    Simulated program (.fail failure : Computation Request Value World α) session []
      (.error failure) session where
  trusted := trusted
  below := .refl _
  determined := by
    intro settledAnswer settles
    cases settles
    rfl
  settles := by
    intro noCycle
    cases failure with
    | cycle error => exact absurd rfl (noCycle error)
    | computation error => exact ⟨.fail, fun _ asks => by cases asks⟩
  shadowed := fun shadow fits => ⟨[], shadow, .fail, fits, rfl⟩

theorem report {diagnostic : Diagnostic}
    (next : Simulated program computation (session.reported [diagnostic]) history answer final) :
    Simulated program (.report diagnostic computation) session (.reported diagnostic :: history)
      answer final where
  trusted := next.trusted
  below := next.below
  determined := by
    intro settledAnswer settles
    cases settles with
    | report settles => exact next.determined _ settles
  settles := by
    intro noCycle
    obtain ⟨settles, zones⟩ := next.settles noCycle
    refine ⟨.report settles, fun needed asks => ?_⟩
    cases asks with
    | report asks => exact zones needed asks
  shadowed := by
    intro shadow fits
    obtain ⟨shadowHistory, shadowFinal, runs, shadowFits, sameCycles⟩ :=
      next.shadowed (shadow.reported [diagnostic]) ⟨fits.active_eq, fits.below⟩
    exact ⟨_, shadowFinal, .report runs, shadowFits, sameCycles⟩

theorem update {change : World → World}
    (next : Simulated program computation { session with world := change session.world } history
      answer final) :
    Simulated program (.update change computation) session (.updated change :: history) answer
      final where
  trusted := next.trusted
  below := next.below
  determined := by
    intro settledAnswer settles
    cases settles with
    | update settles => exact next.determined _ settles
  settles := by
    intro noCycle
    obtain ⟨settles, zones⟩ := next.settles noCycle
    refine ⟨.update settles, fun needed asks => ?_⟩
    cases asks with
    | update asks => exact zones needed asks
  shadowed := by
    intro shadow fits
    obtain ⟨shadowHistory, shadowFinal, runs, shadowFits, sameCycles⟩ :=
      next.shadowed { shadow with world := change shadow.world } ⟨fits.active_eq, fits.below⟩
    exact ⟨_, shadowFinal, .update runs, shadowFits, sameCycles⟩

/-- A computation that asks for a request is simulated when the evaluation of
the request and the rest of the computation are. -/
theorem ask {resume : Except Failure (Value request) → Computation Request Value World α}
    {nested : Except Failure (Value request)} {middle : Session Request Value World}
    {rest : List (Event Request Value World)}
    (next : Simulated program (resume nested) middle rest answer final)
    (first : List (Event Request Value World))
    (below : session.registry.Below middle.registry)
    (sameActive : middle.evaluator.active = session.evaluator.active)
    (determined : ∀ settledAnswer, Settles program (program.compute request) settledAnswer →
      nested = settledAnswer)
    (settles : (∀ error, nested ≠ .error (.cycle error)) →
      Settles program (program.compute request) nested ∧
        ∀ other, DependsOn program request other →
          middle.registry.Holds (program.kind other).zone)
    (passes : ∀ error, nested = .error (.cycle error) → answer = .error (.cycle error))
    (shadowed : ∀ shadow, Fits session.evaluator.active session.registry shadow →
      ∃ past shadowMiddle,
        Run program.uncached (Computation.evaluate request) shadow past
          (some (.ofAnswer nested)) shadowMiddle ∧
        Fits session.evaluator.active middle.registry shadowMiddle ∧
        reportedCycles past = reportedCycles first) :
    Simulated program (.ask request resume) session (first ++ rest) answer final where
  trusted := next.trusted
  below := below.trans next.below
  determined := by
    intro settledAnswer settlesAsk
    cases settlesAsk with
    | ask computes resumes =>
        obtain rfl := determined _ computes
        exact next.determined _ resumes
  settles := by
    intro noCycle
    obtain ⟨computes, zones⟩ := settles fun error isCycle =>
      noCycle error (passes error isCycle)
    obtain ⟨resumes, zonesRest⟩ := next.settles noCycle
    refine ⟨.ask computes resumes, fun needed asks other depends => ?_⟩
    cases asks with
    | now => exact (zones other depends).mono next.below
    | later otherComputes asks =>
        obtain rfl := computes.unique otherComputes
        exact zonesRest needed asks other depends
  shadowed := by
    intro shadow fits
    obtain ⟨past, shadowMiddle, evaluates, middleFits, samePast⟩ := shadowed shadow fits
    rw [← sameActive] at middleFits ⊢
    obtain ⟨shadowHistory, shadowFinal, runs, shadowFits, sameRest⟩ :=
      next.shadowed shadowMiddle middleFits
    refine ⟨_, shadowFinal, evaluates.ask_of_evaluate runs, shadowFits, ?_⟩
    rw [reportedCycles_append, reportedCycles_append, samePast, sameRest]

end Simulated

section Ask

variable {after : Session Request Value World}
variable {resume : Except Failure (Value request) → Computation Request Value World α}

/-- An answer that is known at once is the settled one, if there is one. -/
theorem determined_of_answered {reception : Reception (Value request)}
    {nested : Except Failure (Value request)} (trusted : Trusted program session)
    (asked : ∀ owner ∈ session.evaluator.active.getLast?,
      Settled program owner → Needs program owner request)
    (receives : session.receive program request = (reception, after))
    (answers : reception.answer? = some nested) (settledAnswer : Except Failure (Value request))
    (settles : Settles program (program.compute request) settledAnswer) :
    nested = settledAnswer := by
  cases Session.receive_eq_iff.mp receives with
  | conflicting _ => cases answers
  | refused _ _ => cases answers
  | computing _ _ _ _ => cases answers
  | held _ _ holds =>
      cases answers
      exact (trusted.backed request _ holds).settles.unique settles
  | rejected _ _ _ isActive =>
      have notActive := not_active_of_dependsOn trusted.chain asked ⟨_, settles⟩ .refl
      exact absurd isActive notActive

/-- A request that a cache answers is computed without caches. -/
private theorem shadowed_of_backed {value : Value request} (trusted : Trusted program session)
    (asked : ∀ owner ∈ session.evaluator.active.getLast?,
      Settled program owner → Needs program owner request)
    (backed : Backed program larger request value) {shadow : Session Request Value World}
    (fits : Fits session.evaluator.active larger shadow) :
    ∃ past shadowMiddle,
      Run program.uncached (Computation.evaluate request) shadow past
        (some (.ofAnswer (.ok value))) shadowMiddle ∧
      Fits session.evaluator.active larger shadowMiddle ∧ reportedCycles past = [] := by
  have settled : Settled program request := ⟨_, backed.settles⟩
  -- Without caches the value has to be computed again, under another stack than before.
  have notActive : ∀ other, DependsOn program request other →
      other ∉ session.evaluator.active :=
    fun other depends => not_active_of_dependsOn trusted.chain asked settled depends
  obtain ⟨entered, receives, enteredFits⟩ :=
    fits.computing (backed.zones request .refl) (notActive request .refl)
  obtain ⟨inner, computed, runs, computedFits, silent⟩ := backed.settles.exists_run enteredFits
    (fun _ needs _ depends => settled.free_below notActive needs depends)
    (fun needed needs other depends => backed.zones other (.head needs depends))
  obtain ⟨left, concludes, leftFits⟩ := computedFits.concluded program (.ok value)
  refine ⟨_, left, .evaluate_of_computed receives runs concludes, leftFits, ?_⟩
  rw [reportedCycles_cons, reportedCycles_append, silent]
  rfl

private theorem Simulated.held {value : Value request} (trusted : Trusted program session)
    (declared : program.ZonesDeclared)
    (asked : ∀ owner ∈ session.evaluator.active.getLast?,
      Settled program owner → Needs program owner request)
    (receives : session.receive program request = (.held value, after))
    (next : Simulated program (resume (.ok value)) after history answer final) :
    Simulated program (.ask request resume) session (.received request (.held value) :: history)
      answer final := by
  obtain ⟨below, _, _⟩ := zones_of_receive trusted declared receives (by simp)
  have sameActive := Session.active_of_settled receives (by simp)
  have backed : Backed program after.registry request value := by
    cases Session.receive_eq_iff.mp receives with
    | held _ _ holds => exact (trusted.backed request value holds).mono below
  refine next.ask [_] below sameActive (determined_of_answered trusted asked receives rfl)
    ?_ ?_ ?_
  · exact fun _ => ⟨backed.settles, backed.zones⟩
  · exact fun error isCycle => by cases isCycle
  · intro shadow fits
    obtain ⟨past, middle, evaluates, middleFits, silent⟩ :=
      shadowed_of_backed trusted asked backed (fits.mono below)
    exact ⟨past, middle, evaluates, middleFits, silent⟩

private theorem Simulated.rejected {error : CycleError} {diagnostics : List Diagnostic}
    (trusted : Trusted program session) (declared : program.ZonesDeclared)
    (asked : ∀ owner ∈ session.evaluator.active.getLast?,
      Settled program owner → Needs program owner request)
    (receives : session.receive program request = (.rejected error diagnostics, after))
    (passes : answer = .error (.cycle error))
    (next : Simulated program (resume (.error (.cycle error))) after history answer final) :
    Simulated program (.ask request resume) session
      (.received request (.rejected error diagnostics) :: history) answer final := by
  obtain ⟨below, holds, _⟩ := zones_of_receive trusted declared receives (by simp)
  have sameActive := Session.active_of_settled receives (by simp)
  have determined := determined_of_answered trusted asked receives rfl
  cases Session.receive_eq_iff.mp receives with
  | rejected _ _ _ isActive =>
      refine next.ask [_] below sameActive determined ?_ ?_ ?_
      · exact fun noCycle => absurd rfl (noCycle _)
      · rintro _ ⟨⟩
        exact passes
      · intro shadow fits
        obtain ⟨middle, shadowReceives, middleFits⟩ := (fits.mono below).rejected holds isActive
        rw [Session.cycleError_eq_of_active fits.active_eq] at shadowReceives
        exact ⟨_, middle, .evaluate_of_answer shadowReceives rfl, middleFits, rfl⟩

/-- A computation that met no cycle backs its answer. -/
theorem Simulated.backs {entered computed : Session Request Value World}
    {nested : Except Failure (Value request)} {inner : List (Event Request Value World)}
    (inside : Simulated program (program.compute request) entered inner nested computed)
    (holds : entered.registry.Holds (program.kind request).zone)
    (noCycle : ∀ error, nested ≠ .error (.cycle error)) :
    Settles program (program.compute request) nested ∧
      ∀ other, DependsOn program request other →
        computed.registry.Holds (program.kind other).zone := by
  obtain ⟨settles, zones⟩ := inside.settles noCycle
  refine ⟨settles, fun other depends => ?_⟩
  rcases depends.cases_head with rfl | ⟨needed, needs, dependsRest⟩
  · exact holds.mono inside.below
  · exact zones needed needs other dependsRest

/-- The caches can be trusted after the computation of a request, because a value
is kept only if its computation met no cycle, and then it is settled. -/
theorem Simulated.left {entered computed left : Session Request Value World}
    {nested : Except Failure (Value request)} {inner : List (Event Request Value World)}
    (inside : Simulated program (program.compute request) entered inner nested computed)
    (trusted : Trusted program session) (honest : program.HonestStorage)
    (declared : program.ZonesDeclared)
    (receives : session.receive program request = (.computing, entered))
    (onTop : computed.evaluator.active = session.evaluator.active ++ [request])
    (concludes : computed.concluded program request (.ofAnswer nested) =
      (.ofAnswer nested, left)) :
    Trusted program left ∧ left.evaluator.active = session.evaluator.active ∧
      left.registry = computed.registry := by
  obtain ⟨_, holds, _⟩ := zones_of_receive trusted declared receives (by simp)
  have backed : ∀ value, nested = .ok value →
      Backed program computed.registry request value := by
    rintro value rfl
    obtain ⟨settles, zones⟩ := inside.backs holds (by simp)
    exact ⟨settles, zones⟩
  exact inside.trusted.left honest trusted.chain onTop concludes backed

private theorem Simulated.returned {entered computed left : Session Request Value World}
    {nested : Except Failure (Value request)} {inner : List (Event Request Value World)}
    (trusted : Trusted program session) (declared : program.ZonesDeclared)
    (receives : session.receive program request = (.computing, entered))
    (inside : Simulated program (program.compute request) entered inner nested computed)
    (leftActive : left.evaluator.active = session.evaluator.active)
    (leftRegistry : left.registry = computed.registry)
    (passes : ∀ error, nested = .error (.cycle error) → answer = .error (.cycle error))
    (next : Simulated program (resume nested) left history answer final) :
    Simulated program (.ask request resume) session
      (.received request .computing :: (inner ++ .finished request nested :: history))
      answer final := by
  obtain ⟨below, holds, _⟩ := zones_of_receive trusted declared receives (by simp)
  have enteredActive := Session.active_of_computing receives
  have parts : (.received request .computing :: (inner ++ .finished request nested :: history) :
      List (Event Request Value World)) =
      (.received request .computing :: (inner ++ [.finished request nested])) ++ history := by
    simp
  rw [parts]
  refine next.ask _ ?_ leftActive inside.determined ?_ passes ?_
  · rw [leftRegistry]
    exact below.trans inside.below
  · rw [leftRegistry]
    exact inside.backs holds
  · intro shadow fits
    rw [leftRegistry]
    obtain ⟨shadowEntered, shadowReceives, enteredFits⟩ :=
      (fits.mono below).computing holds (Session.not_active_of_computing receives)
    rw [← enteredActive] at enteredFits
    obtain ⟨shadowInner, shadowComputed, runs, computedFits, sameInner⟩ :=
      inside.shadowed shadowEntered enteredFits
    rw [enteredActive] at computedFits
    obtain ⟨shadowLeft, concludes, leftFits⟩ := computedFits.concluded program nested
    refine ⟨_, shadowLeft, .evaluate_of_computed shadowReceives runs concludes, leftFits, ?_⟩
    simp only [reportedCycles_cons, reportedCycles_append, sameInner]

end Ask

/-- Every answered run with caches is simulated without caches. -/
theorem Run.simulated {ended : Option (Outcome α)}
    (runs : Run program computation session history ended final)
    (allOblivious : ∀ request, (program.compute request).Oblivious program)
    (honest : program.HonestStorage) (declared : program.ZonesDeclared)
    (ends : ended = some (.ofAnswer answer)) (oblivious : computation.Oblivious program)
    (follows : Follows program session.evaluator.active computation)
    (trusted : Trusted program session) :
    Simulated program computation session history answer final := by
  induction runs with
  | underWay => cases ends
  | unnoticed _ _ => cases ends
  | within _ _ _ => cases ends
  | abort => exact absurd ends Outcome.aborted_not_answered
  | refused _ _ => exact absurd ends Outcome.aborted_not_answered
  | unkept _ _ _ _ => exact absurd ends Outcome.aborted_not_answered
  | abandoned _ _ _ => exact absurd ends Outcome.aborted_not_answered
  | activeRequests _ _ => exact oblivious.elim
  | isActive _ _ => exact oblivious.elim
  | isCached _ _ _ => exact oblivious.elim
  | isCachedRefused _ => exact oblivious.elim
  | read _ _ => exact oblivious.elim
  | @done _ value _ =>
      have same : some (Outcome.ofAnswer (.ok value)) = some (.ofAnswer answer) := ends
      obtain rfl := Outcome.ofAnswer_inj.mp (Option.some.inj same)
      exact .done trusted
  | @fail _ failure _ =>
      have same : some (Outcome.ofAnswer (.error failure)) = some (.ofAnswer answer) := ends
      obtain rfl := Outcome.ofAnswer_inj.mp (Option.some.inj same)
      exact .fail trusted
  | @report _ diagnostic _ session _ _ _ _ inductionHypothesis =>
      have stillTrusted := trusted.reported diagnostic
      exact .report (inductionHypothesis ends oblivious follows.reported stillTrusted)
  | @update _ change _ session _ _ _ _ inductionHypothesis =>
      have stillTrusted := trusted.updated (oblivious.1 session.world)
      exact .update (inductionHypothesis ends oblivious.2 follows.updated stillTrusted)
  | @answered _ request _ session after _ reception _ _ _ receives answers resumes
      inductionHypothesis =>
      have admitted := Reception.ne_conflicting_of_answer answers
      have settledAtOnce := Reception.ne_computing_of_answer answers
      have next := inductionHypothesis ends (oblivious.1 _)
        (follows.settled receives settledAtOnce
          (determined_of_answered trusted follows.asked receives answers))
        (trusted.settled declared receives admitted settledAtOnce)
      cases reception with
      | conflicting _ => cases answers
      | refused _ => cases answers
      | computing => cases answers
      | held value =>
          cases answers
          exact .held trusted declared follows.asked receives next
      | rejected error diagnostics =>
          cases answers
          exact .rejected trusted declared follows.asked receives
            (resumes.passes ends (oblivious.2 error)) next
  | @returned _ request _ session entered computed left _ nested _ _ _ receives computes concludes
      resumes inside inductionHypothesis =>
      have simulatedInside := inside rfl (allOblivious request) (.entered receives)
        (trusted.entered declared receives follows.asked)
      obtain ⟨leftTrusted, leftActive, leftRegistry⟩ :=
        simulatedInside.left trusted honest declared receives (active_of_computed receives computes)
          concludes
      have stillFollows := follows.resumed simulatedInside.determined
      rw [← leftActive] at stillFollows
      refine .returned trusted declared receives simulatedInside leftActive leftRegistry ?_
        (inductionHypothesis ends (oblivious.1 _) stillFollows leftTrusted)
      rintro error rfl
      exact resumes.passes ends (oblivious.2 error)

theorem Run.simulated_evaluate {after : Session Request Value World}
    {answer : Except Failure (Value request)}
    (runs : Run program (Computation.evaluate request) session history (some (.ofAnswer answer))
      after)
    (allOblivious : ∀ request, (program.compute request).Oblivious program)
    (honest : program.HonestStorage) (declared : program.ZonesDeclared)
    (idle : session.evaluator.active = []) (trusted : Trusted program session) :
    Simulated program (Computation.evaluate request) session history answer after := by
  refine runs.simulated allOblivious honest declared rfl (oblivious_evaluate program request) ?_
    trusted
  intro owner isLast
  rw [idle] at isLast
  cases isLast

end Program

end RequestEngine
