import RequestEngine.Dependencies.Graphviz
import RequestEngine.Dependencies.Tree
import RequestEngine.Proofs.CachingUnobservable
import RequestEngine.Proofs.RecordedCones
import RequestEngine.Proofs.StackDiscipline

/-!
Contract: the recorded graph does not depend on caching, as long as cycle errors
are passed on.

Owns:
- the invariant that everything below a held value is recorded;
- the simulation of every answered run by a run without caches that records the
  same graph, in the same order;
- the graphs of evaluators that answer the same sequence of requests.

With caches, a request that is held is recorded once. Without, it is computed
again, and everything below it is asked for again. That changes nothing, because
the request got into the caches by a computation that asked for all of it.

Does not own: evaluations that end abruptly.
-/

namespace RequestEngine

variable {Request : Type} [DecidableEq Request] {Value : Request → Type} {World : Type} {α : Type}

namespace Program

variable {program : Program Request Value World}
variable {session entered computed left after final : Session Request Value World}
variable {computation : Computation Request Value World α}
variable {history : List (Event Request Value World)} {answer : Except Failure α}
variable {recorder before between larger : Recorder Request} {request : Request}

/-! ### Everything below a held value is recorded -/

/-- A session has recorded a graph, and in it everything below every value that
its caches hold. -/
structure Charted (program : Program Request Value World) (session : Session Request Value World)
    (recorder : Recorder Request) : Prop where
  recorded : session.evaluator.recorder = some recorder
  documented : ∀ request value, session.core.held? program request = some value →
    Documents program recorder request

namespace Charted

theorem moved (charted : Charted program session recorder)
    (recorded : after.evaluator.recorder = some larger) (extended : recorder.ExtendedBy larger)
    (held : ∀ request value, after.core.held? program request = some value →
      session.core.held? program request = some value ∨ Documents program larger request) :
    Charted program after larger where
  recorded := recorded
  documented := by
    intro request value holds
    rcases held request value holds with before | documents
    · exact (charted.documented request value before).mono extended
    · exact documents

theorem reported (charted : Charted program session recorder) (diagnostic : Diagnostic) :
    Charted program (session.reported [diagnostic]) recorder :=
  charted.moved charted.recorded (.refl _) fun _ _ => .inl

theorem updated {world : World} (charted : Charted program session recorder)
    (forgets : program.Forgets session.world world) :
    Charted program { session with world := world } recorder :=
  charted.moved charted.recorded (.refl _) fun _ _ holds =>
    .inl (Core.held?_of_forgets forgets holds)

/-- Taking a request up records it, and keeps no value. -/
theorem received {reception : Reception (Value request)}
    (charted : Charted program session recorder)
    (receives : session.receive program request = (reception, after))
    (admitted : ∀ conflict, reception ≠ .conflicting conflict) :
    Charted program after (recorder.record session.evaluator.active.getLast? request) := by
  refine charted.moved (Session.recorder_of_receive receives admitted charted.recorded)
    Recorder.extendedBy_record fun other value holds => .inl ?_
  by_cases settled : reception = .computing
  · rw [settled] at receives
    rwa [Session.core_of_computing receives] at holds
  · rwa [Session.core_of_settled receives settled] at holds

/-- Finishing a computation keeps its value, and records nothing. -/
theorem concluded {answer : Except Failure (Value request)}
    (charted : Charted program computed recorder) (honest : program.HonestStorage)
    (concludes : computed.concluded program request (.ofAnswer answer) = (.ofAnswer answer, left))
    (documents : ∀ value, answer = .ok value → Documents program recorder request) :
    Charted program left recorder := by
  refine charted.moved ((Session.recorder_concluded concludes).trans charted.recorded) (.refl _) ?_
  intro other found holds
  rcases held?_concluded_cases honest concludes holds with before | ⟨value, isAnswer, isNew⟩
  · exact .inl before
  · cases isNew
    exact .inr (documents value isAnswer)

theorem of_fresh {options : Options} {observed : Bool}
    (isFresh : session.evaluator = .fresh options observed)
    (recording : options.recordDependencies = true)
    (nothingStored : ∀ request, program.storedOutside session.world request = none) :
    Charted program session {} where
  recorded := by rw [isFresh, Evaluator.fresh, recording, if_pos rfl]
  documented := by
    intro request value holds
    rw [held?_of_fresh isFresh nothingStored] at holds
    cases holds

end Charted

/-! ### The simulation -/

/-- What is true of the graph after every answered run with caches. -/
structure Retraced (program : Program Request Value World)
    (computation : Computation Request Value World α) (session : Session Request Value World)
    (before : Recorder Request) (answer : Except Failure α) (final : Session Request Value World)
    (after : Recorder Request) : Prop where
  charted : Charted program final after
  extended : before.ExtendedBy after
  /-- Unless the answer is a cycle error, everything that was asked for is recorded. -/
  records : (∀ error, answer ≠ .error (.cycle error)) →
    ∀ needed, Asks program computation needed → Documents program after needed ∧
      ∀ owner ∈ session.evaluator.active.getLast?, after.Edge owner needed
  /-- Without caches there is a run to the same answer that records the same graph. -/
  shadowed : ∀ shadow, Tracks session.evaluator.active session.registry before shadow →
    ∃ shadowHistory shadowFinal,
      Run program.uncached computation shadow shadowHistory (some (.ofAnswer answer))
        shadowFinal ∧
      Tracks session.evaluator.active final.registry after shadowFinal

namespace Retraced

theorem done {value : α} (charted : Charted program session before) :
    Retraced program (.done value) session before (.ok value) session before where
  charted := charted
  extended := .refl _
  records := fun _ _ asks => by cases asks
  shadowed := fun shadow tracks => ⟨[], shadow, .done, tracks⟩

theorem fail {failure : Failure} (charted : Charted program session before) :
    Retraced program (.fail failure : Computation Request Value World α) session before
      (.error failure) session before where
  charted := charted
  extended := .refl _
  records := fun _ _ asks => by cases asks
  shadowed := fun shadow tracks => ⟨[], shadow, .fail, tracks⟩

theorem report {diagnostic : Diagnostic}
    (next : Retraced program computation (session.reported [diagnostic]) before answer final
      larger) :
    Retraced program (.report diagnostic computation) session before answer final larger where
  charted := next.charted
  extended := next.extended
  records := by
    intro noCycle needed asks
    cases asks with
    | report asks => exact next.records noCycle needed asks
  shadowed := by
    intro shadow tracks
    obtain ⟨_, shadowFinal, runs, shadowTracks⟩ := next.shadowed _ (tracks.reported diagnostic)
    exact ⟨_, shadowFinal, .report runs, shadowTracks⟩

theorem update {change : World → World}
    (next : Retraced program computation { session with world := change session.world } before
      answer final larger) :
    Retraced program (.update change computation) session before answer final larger where
  charted := next.charted
  extended := next.extended
  records := by
    intro noCycle needed asks
    cases asks with
    | update asks => exact next.records noCycle needed asks
  shadowed := by
    intro shadow tracks
    obtain ⟨_, shadowFinal, runs, shadowTracks⟩ :=
      next.shadowed _ (tracks.updated (change shadow.world))
    exact ⟨_, shadowFinal, .update runs, shadowTracks⟩

/-- A computation that asks for a request is retraced when the evaluation of the
request and the rest of the computation are. -/
theorem ask {resume : Except Failure (Value request) → Computation Request Value World α}
    {nested : Except Failure (Value request)} {middle : Session Request Value World}
    (next : Retraced program (resume nested) middle between answer final larger)
    (sameActive : middle.evaluator.active = session.evaluator.active)
    (extended : (before.record session.evaluator.active.getLast? request).ExtendedBy between)
    (determined : ∀ settledAnswer, Settles program (program.compute request) settledAnswer →
      nested = settledAnswer)
    (documents : (∀ error, nested ≠ .error (.cycle error)) → Documents program between request)
    (passes : ∀ error, nested = .error (.cycle error) → answer = .error (.cycle error))
    (shadowed : ∀ shadow, Tracks session.evaluator.active session.registry before shadow →
      ∃ past shadowMiddle,
        Run program.uncached (Computation.evaluate request) shadow past
          (some (.ofAnswer nested)) shadowMiddle ∧
        Tracks session.evaluator.active middle.registry between shadowMiddle) :
    Retraced program (.ask request resume) session before answer final larger where
  charted := next.charted
  extended := (Recorder.extendedBy_record.trans extended).trans next.extended
  records := by
    intro noCycle needed asks
    cases asks with
    | now =>
        have nestedNoCycle : ∀ error, nested ≠ .error (.cycle error) :=
          fun error isCycle => noCycle error (passes error isCycle)
        refine ⟨(documents nestedNoCycle).mono next.extended, fun owner isTop => ?_⟩
        exact next.extended _ _ (extended _ _ (Recorder.edge_record.mpr (.inr ⟨isTop, rfl⟩)))
    | later computes asks =>
        obtain rfl := determined _ computes
        rw [← sameActive]
        exact next.records noCycle needed asks
  shadowed := by
    intro shadow tracks
    obtain ⟨past, shadowMiddle, evaluates, middleTracks⟩ := shadowed shadow tracks
    rw [← sameActive] at middleTracks ⊢
    obtain ⟨shadowHistory, shadowFinal, runs, finalTracks⟩ :=
      next.shadowed shadowMiddle middleTracks
    exact ⟨_, shadowFinal, evaluates.ask_of_evaluate runs, finalTracks⟩

variable {resume : Except Failure (Value request) → Computation Request Value World α}

/-- A request that a cache answers is computed without caches, and nothing below
it is new. -/
private theorem held {value : Value request} (trusted : Trusted program session)
    (declared : program.ZonesDeclared)
    (asked : ∀ owner ∈ session.evaluator.active.getLast?,
      Settled program owner → Needs program owner request)
    (charted : Charted program session before)
    (receives : session.receive program request = (.held value, after))
    (next : Retraced program (resume (.ok value)) after
      (before.record session.evaluator.active.getLast? request) answer final larger) :
    Retraced program (.ask request resume) session before answer final larger := by
  obtain ⟨below, _, _⟩ := zones_of_receive trusted declared receives (by simp)
  have sameActive := Session.active_of_settled receives (by simp)
  have holds : session.core.held? program request = some value := by
    cases Session.receive_eq_iff.mp receives with
    | held _ _ holds => exact holds
  have backed := trusted.backed request value holds
  have documents := charted.documented request value holds
  refine next.ask sameActive (.refl _) (determined_of_answered trusted asked receives rfl)
    ?_ ?_ ?_
  · exact fun _ => documents.mono Recorder.extendedBy_record
  · exact fun error isCycle => by cases isCycle
  · intro shadow tracks
    have notActive : ∀ other, DependsOn program request other →
        other ∉ session.evaluator.active :=
      fun other depends => not_active_of_dependsOn trusted.chain asked ⟨_, backed.settles⟩ depends
    exact backed.settles.exists_evaluate documents (tracks.mono below) notActive
      (backed.mono below).zones

private theorem rejected {error : CycleError} {diagnostics : List Diagnostic}
    (trusted : Trusted program session) (declared : program.ZonesDeclared)
    (asked : ∀ owner ∈ session.evaluator.active.getLast?,
      Settled program owner → Needs program owner request)
    (receives : session.receive program request = (.rejected error diagnostics, after))
    (passes : answer = .error (.cycle error))
    (next : Retraced program (resume (.error (.cycle error))) after
      (before.record session.evaluator.active.getLast? request) answer final larger) :
    Retraced program (.ask request resume) session before answer final larger := by
  obtain ⟨below, holds, _⟩ := zones_of_receive trusted declared receives (by simp)
  have sameActive := Session.active_of_settled receives (by simp)
  have determined := determined_of_answered trusted asked receives rfl
  cases Session.receive_eq_iff.mp receives with
  | rejected _ _ _ isActive =>
      refine next.ask sameActive (.refl _) determined ?_ ?_ ?_
      · exact fun noCycle => absurd rfl (noCycle _)
      · rintro _ ⟨⟩
        exact passes
      · intro shadow tracks
        obtain ⟨middle, shadowReceives, middleTracks⟩ := (tracks.mono below).rejected holds isActive
        rw [Session.cycleError_eq_of_active tracks.fits.active_eq] at shadowReceives
        exact ⟨_, middle, .evaluate_of_answer shadowReceives rfl, middleTracks⟩

/-- A computation that met no cycle has recorded everything below its request. -/
private theorem documents {nested : Except Failure (Value request)}
    (receives : session.receive program request = (.computing, entered))
    (inside : Retraced program (program.compute request) entered before nested computed between)
    (noCycle : ∀ error, nested ≠ .error (.cycle error)) : Documents program between request := by
  refine documents_of_needs fun needed needs => ?_
  obtain ⟨documents, edges⟩ := inside.records noCycle needed needs
  refine ⟨edges request ?_, documents⟩
  rw [Session.active_of_computing receives]
  exact List.getLast?_concat

private theorem returned {nested : Except Failure (Value request)}
    (trusted : Trusted program session) (declared : program.ZonesDeclared)
    (receives : session.receive program request = (.computing, entered))
    (inside : Retraced program (program.compute request) entered
      (before.record session.evaluator.active.getLast? request) nested computed between)
    (determined : ∀ settledAnswer, Settles program (program.compute request) settledAnswer →
      nested = settledAnswer)
    (leftActive : left.evaluator.active = session.evaluator.active)
    (leftRegistry : left.registry = computed.registry)
    (passes : ∀ error, nested = .error (.cycle error) → answer = .error (.cycle error))
    (next : Retraced program (resume nested) left between answer final larger) :
    Retraced program (.ask request resume) session before answer final larger := by
  obtain ⟨below, holds, _⟩ := zones_of_receive trusted declared receives (by simp)
  have enteredActive := Session.active_of_computing receives
  refine next.ask leftActive inside.extended determined (inside.documents receives) passes ?_
  intro shadow tracks
  obtain ⟨shadowEntered, shadowReceives, enteredTracks⟩ :=
    (tracks.mono below).computing holds (Session.not_active_of_computing receives)
  rw [← enteredActive] at enteredTracks
  obtain ⟨shadowInner, shadowComputed, runs, computedTracks⟩ :=
    inside.shadowed shadowEntered enteredTracks
  rw [enteredActive] at computedTracks
  obtain ⟨shadowLeft, concludes, leftTracks⟩ := computedTracks.concluded program nested
  rw [leftRegistry]
  exact ⟨_, shadowLeft, .evaluate_of_computed shadowReceives runs concludes, leftTracks⟩

end Retraced

/-- Every answered run with caches is retraced without caches. -/
theorem Run.retraced {ended : Option (Outcome α)}
    (runs : Run program computation session history ended final)
    (allOblivious : ∀ request, (program.compute request).Oblivious program)
    (honest : program.HonestStorage) (declared : program.ZonesDeclared)
    (ends : ended = some (.ofAnswer answer)) (oblivious : computation.Oblivious program)
    (follows : Follows program session.evaluator.active computation)
    (trusted : Trusted program session) (charted : Charted program session before) :
    ∃ after, Retraced program computation session before answer final after := by
  induction runs generalizing before with
  | underWay => cases ends
  | unnoticed _ _ => cases ends
  | within _ _ _ => cases ends
  | abort => exact absurd ends Outcome.aborted_not_answered
  | refused _ _ => exact absurd ends Outcome.aborted_not_answered
  | unkept _ _ _ _ => exact absurd ends Outcome.aborted_not_answered
  | abandoned _ _ _ => exact absurd ends Outcome.aborted_not_answered
  | activeRequests _ _ => exact oblivious.elim
  | isActive _ _ => exact oblivious.elim
  | isCached _ _ _ => exact oblivious.elim
  | isCachedRefused _ => exact oblivious.elim
  | read _ _ => exact oblivious.elim
  | @done _ value _ =>
      have same : some (Outcome.ofAnswer (.ok value)) = some (.ofAnswer answer) := ends
      obtain rfl := Outcome.ofAnswer_inj.mp (Option.some.inj same)
      exact ⟨before, .done charted⟩
  | @fail _ failure _ =>
      have same : some (Outcome.ofAnswer (.error failure)) = some (.ofAnswer answer) := ends
      obtain rfl := Outcome.ofAnswer_inj.mp (Option.some.inj same)
      exact ⟨before, .fail charted⟩
  | @report _ diagnostic _ session _ _ _ _ inductionHypothesis =>
      obtain ⟨after, next⟩ := inductionHypothesis ends oblivious follows.reported
        (trusted.reported diagnostic) (charted.reported diagnostic)
      exact ⟨after, next.report⟩
  | @update _ change _ session _ _ _ _ inductionHypothesis =>
      have forgets := oblivious.1 session.world
      obtain ⟨after, next⟩ := inductionHypothesis ends oblivious.2 follows.updated
        (trusted.updated forgets) (charted.updated forgets)
      exact ⟨after, next.update⟩
  | @answered _ request _ session _ _ reception _ _ _ receives answers resumes
      inductionHypothesis =>
      have admitted := Reception.ne_conflicting_of_answer answers
      have settledAtOnce := Reception.ne_computing_of_answer answers
      obtain ⟨after, next⟩ := inductionHypothesis ends (oblivious.1 _)
        (follows.settled receives settledAtOnce
          (determined_of_answered trusted follows.asked receives answers))
        (trusted.settled declared receives admitted settledAtOnce)
        (charted.received receives admitted)
      cases reception with
      | conflicting _ => cases answers
      | refused _ => cases answers
      | computing => cases answers
      | held value =>
          cases answers
          exact ⟨after, .held trusted declared follows.asked charted receives next⟩
      | rejected error diagnostics =>
          cases answers
          exact ⟨after, .rejected trusted declared follows.asked receives
            (resumes.passes ends (oblivious.2 error)) next⟩
  | @returned _ request _ session entered computed left _ nested _ _ _ receives computes concludes
      resumes inside inductionHypothesis =>
      have enteredTrusted := trusted.entered declared receives follows.asked
      have simulated := computes.simulated allOblivious honest declared rfl (allOblivious request)
        (.entered receives) enteredTrusted
      obtain ⟨between, retraced⟩ := inside rfl (allOblivious request) (.entered receives)
        enteredTrusted (charted.received receives (by simp))
      obtain ⟨leftTrusted, leftActive, leftRegistry⟩ :=
        simulated.left trusted honest declared receives (active_of_computed receives computes)
          concludes
      have leftCharted := retraced.charted.concluded honest concludes fun value isValue =>
        retraced.documents receives (by simp [isValue])
      have stillFollows := follows.resumed simulated.determined
      rw [← leftActive] at stillFollows
      obtain ⟨after, next⟩ :=
        inductionHypothesis ends (oblivious.1 _) stillFollows leftTrusted leftCharted
      refine ⟨after, .returned trusted declared receives retraced simulated.determined leftActive
        leftRegistry ?_ next⟩
      rintro error rfl
      exact resumes.passes ends (oblivious.2 error)

/-! ### Sequences of evaluations -/

variable {first blank last : Session Request Value World}
variable {answers others : List ((request : Request) × Except Failure (Value request))}

/-- The requests decide the answers and the session. -/
theorem Answers.unique {other : Session Request Value World}
    (calls : Answers program first answers session)
    (otherCalls : Answers program first others other)
    (sameRequests : others.map (·.1) = answers.map (·.1)) : others = answers ∧ other = session := by
  induction calls generalizing others other with
  | begun begins =>
      obtain rfl := begins
      cases otherCalls with
      | begun begins => exact ⟨rfl, begins⟩
      | elsewhere _ changes => cases changes
      | called _ calls =>
          obtain ⟨_, _, _, _, rfl, _, _⟩ := calls
          simp at sameRequests
  | elsewhere _ changes => cases changes
  | called _ calls inductionHypothesis =>
      obtain ⟨_, request, _, answer, rfl, evaluates, _⟩ := calls
      cases otherCalls with
      | begun _ => simp at sameRequests
      | elsewhere _ changes => cases changes
      | called before otherCalls =>
          obtain ⟨_, otherRequest, _, otherAnswer, rfl, otherEvaluates, _⟩ := otherCalls
          rw [List.map_append, List.map_append] at sameRequests
          obtain ⟨sameBefore, sameLast⟩ := List.append_inj' sameRequests rfl
          obtain rfl : otherRequest = request := List.singleton_inj.mp sameLast
          obtain ⟨rfl, rfl⟩ := inductionHypothesis before sameBefore
          obtain ⟨_, runs⟩ := exists_run_of_run ((run_evaluate ..).trans evaluates) (by simp)
          obtain ⟨_, otherRuns⟩ :=
            exists_run_of_run ((run_evaluate ..).trans otherEvaluates) (by simp)
          obtain ⟨_, sameAnswer, rfl⟩ := runs.unique rfl otherRuns
          obtain rfl := Outcome.ofAnswer_inj.mp sameAnswer
          exact ⟨rfl, rfl⟩

private theorem Answers.retraced (calls : Answers program first answers session)
    (allOblivious : ∀ request, (program.compute request).Oblivious program)
    (honest : program.HonestStorage) (declared : program.ZonesDeclared)
    (trusted : Trusted program first) (idle : first.evaluator.active = [])
    (charted : Charted program first recorder)
    (tracks : Tracks [] first.registry recorder blank) :
    (Trusted program session ∧ session.evaluator.active = []) ∧ ∃ recorder last,
      Charted program session recorder ∧ Answers program.uncached blank answers last ∧
      Tracks [] session.registry recorder last := by
  induction calls with
  | begun begins =>
      obtain rfl := begins
      exact ⟨⟨trusted, idle⟩, recorder, blank, charted, .begun rfl, tracks⟩
  | elsewhere _ changes => cases changes
  | called _ calls inductionHypothesis =>
      obtain ⟨_, _, _, _, rfl, evaluates, _⟩ := calls
      obtain ⟨⟨trusted, idle⟩, recorder, last, charted, shadowCalls, tracks⟩ := inductionHypothesis
      obtain ⟨history, runs⟩ := exists_run_of_run ((run_evaluate ..).trans evaluates) (by simp)
      have stillIdle := active_of_answer ((run_evaluate ..).trans evaluates)
      have simulated := runs.simulated_evaluate allOblivious honest declared idle trusted
      obtain ⟨recorded, next⟩ := runs.retraced allOblivious honest declared rfl
        (oblivious_evaluate program _) (fun owner isTop => by simp [idle] at isTop) trusted charted
      rw [← idle] at tracks
      obtain ⟨_, shadowFinal, shadowRuns, finalTracks⟩ := next.shadowed last tracks
      obtain ⟨_, shadowEvaluates⟩ := shadowRuns.returns.evaluates
      rw [idle] at finalTracks
      exact ⟨⟨simulated.trusted, stillIdle.trans idle⟩, recorded, shadowFinal, next.charted,
        answered shadowCalls shadowEvaluates trivial, finalTracks⟩

/-- Two sessions have recorded the same graph, with caches and without: the same
roots and the same dependencies, in the same order. So they print it alike. -/
structure SameGraph (program : Program Request Value World)
    (session last : Session Request Value World) : Prop where
  recorded : ∃ recorder, session.evaluator.recorder = some recorder ∧
    last.evaluator.recorder = some recorder
  forest : last.evaluator.recorder.map (·.printForest program.uncached.display) =
    session.evaluator.recorder.map (·.printForest program.display)
  graphviz : last.evaluator.recorder.map (·.toGraphviz program.uncached.display) =
    session.evaluator.recorder.map (·.toGraphviz program.display)

/-- Caching is not recorded. Any evaluations of a fresh evaluator that are all
answered have the same answers on an evaluator that keeps no values, and both
record the same graph. -/
theorem Answers.recordedUncached {options blankOptions : Options} {observed blankObserved : Bool}
    (allOblivious : ∀ request, (program.compute request).Oblivious program)
    (honest : program.HonestStorage) (declared : program.ZonesDeclared)
    (isFresh : first.evaluator = .fresh options observed)
    (recording : options.recordDependencies = true)
    (nothingStored : ∀ request, program.storedOutside first.world request = none)
    (isBlank : blank.evaluator = .fresh blankOptions blankObserved)
    (blankRecording : blankOptions.recordDependencies = true)
    (sameRegistry : blank.registry = first.registry)
    (calls : Answers program first answers session) :
    (∃ last, Answers program.uncached blank answers last) ∧
    ∀ others last, Answers program.uncached blank others last →
      others.map (·.1) = answers.map (·.1) → others = answers ∧ SameGraph program session last := by
  have trusted : Trusted program first := .of_fresh isFresh nothingStored
  have charted : Charted program first {} := .of_fresh isFresh recording nothingStored
  have idle : first.evaluator.active = [] := by
    rw [isFresh]
    rfl
  have fits : Fits [] first.registry blank := by
    refine ⟨?_, ?_⟩
    · rw [isBlank]
      rfl
    · rw [sameRegistry]
      exact .refl _
  have tracks : Tracks [] first.registry {} blank :=
    ⟨fits, by rw [isBlank, Evaluator.fresh, blankRecording, if_pos rfl]⟩
  obtain ⟨_, recorder, uncachedLast, sessionCharted, uncachedCalls, lastTracks⟩ :=
    calls.retraced allOblivious honest declared trusted idle charted tracks
  refine ⟨⟨uncachedLast, uncachedCalls⟩, fun others last otherCalls sameRequests => ?_⟩
  obtain ⟨rfl, rfl⟩ := uncachedCalls.unique otherCalls sameRequests
  have sameRecorder := lastTracks.recorded.trans sessionCharted.recorded.symm
  exact ⟨rfl, ⟨recorder, sessionCharted.recorded, lastTracks.recorded⟩,
    congrArg _ sameRecorder, congrArg _ sameRecorder⟩

/-- After the weight of one declaration was kept, another one asks for it and then
meets a cycle. -/
theorem recordedUncached_loop :
    let program := Analysis.program Analysis.loop
    let first : AnalysisSession :=
      { evaluator := .fresh { recordDependencies := true } false, world := [] }
    ∃ answers session last, Answers program first answers session ∧
      answers.map (·.1) = [.totalWeight "c", .totalWeight "a"] ∧
      session.evaluator.metrics =
        { cacheHits := 1, computations := 6, failures := 2, cyclesDetected := 1 } ∧
      Answers program.uncached first answers last ∧ SameGraph program session last := by
  intro program first
  have isFresh : first.evaluator = .fresh { recordDependencies := true } false := rfl
  let afterC := (program.evaluate 3 (.totalWeight "c") first).2
  have evaluatesC : program.evaluate 3 (.totalWeight "c") first = (.ofAnswer (.ok 3), afterC) := rfl
  have isFailure : (match (program.evaluate 6 (.totalWeight "a") afterC).1 with
      | .failed _ => true
      | _ => false) = true := by decide +kernel
  have counted : (program.evaluate 6 (.totalWeight "a") afterC).2.evaluator.metrics =
      { cacheHits := 1, computations := 6, failures := 2, cyclesDetected := 1 } := by decide +kernel
  rcases evaluatesA : program.evaluate 6 (.totalWeight "a") afterC with ⟨outcome, after⟩
  rw [evaluatesA] at isFailure counted
  cases outcome with
  | success value => cases isFailure
  | aborted message => cases isFailure
  | tooDeep => cases isFailure
  | failed failure =>
      have answersA : program.evaluate 6 (.totalWeight "a") afterC =
          (.ofAnswer (.error failure), after) := evaluatesA
      have calls : Answers program first _ after :=
        answered (answered (.begun rfl) evaluatesC trivial) answersA trivial
      obtain ⟨⟨last, uncachedCalls⟩, same⟩ := calls.recordedUncached
        (Analysis.oblivious_compute _) (Analysis.honestStorage _) (Analysis.zonesDeclared _)
        isFresh rfl (Analysis.storedOutside_nil _) isFresh rfl rfl
      exact ⟨_, after, last, calls, rfl, counted, uncachedCalls,
        (same _ last uncachedCalls rfl).2⟩

end Program

end RequestEngine
