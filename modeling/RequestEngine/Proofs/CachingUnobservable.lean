import RequestEngine.Graph.Batch
import RequestEngine.Proofs.AnalysisProgram
import RequestEngine.Proofs.Course
import RequestEngine.Proofs.Simulation

/-!
Contract: caching is unobservable as long as cycle errors are passed on.

Owns:
- sequences of evaluations, all of which are answered;
- the comparison of an evaluation with the same evaluation without caches.

Does not own: the invariant of caches, or evaluations that end abruptly.
-/

namespace RequestEngine

variable {Request : Type} [DecidableEq Request] {Value : Request → Type} {World : Type} {α : Type}

namespace Program

variable {program : Program Request Value World}
variable {session final : Session Request Value World} {request : Request}
variable {history : List (Event Request Value World)}

/-- The sessions after evaluations one after the other, all of which were answered. -/
def Calls (program : Program Request Value World) (first session : Session Request Value World) :
    Prop :=
  ∃ answers, Answers program first answers session

/-- An evaluation is answered, and finds some cycles on the way. The diagnostics
that it adds are those of the cycles and those that computations report. -/
structure Returns (program : Program Request Value World) (session : Session Request Value World)
    (request : Request) (answer : Except Failure (Value request)) (cycles : List Diagnostic)
    (after : Session Request Value World) : Prop where
  evaluates : ∃ depth, program.evaluate depth request session = (.ofAnswer answer, after)
  reports : ∃ history,
    Run program (Computation.evaluate request) session history (some (.ofAnswer answer)) after ∧
    reportedCycles history = cycles ∧
    after.diagnostics = session.diagnostics ++ history.flatMap Event.diagnostics

theorem Run.returns {answer : Except Failure (Value request)}
    (runs : Run program (Computation.evaluate request) session history (some (.ofAnswer answer))
      final) :
    Returns program session request answer (reportedCycles history) final where
  evaluates := by
    obtain ⟨depth, decides⟩ := runs.decided rfl
    refine ⟨depth, ?_⟩
    rw [← run_evaluate]
    exact decides depth le_rfl
  reports := ⟨history, runs, rfl, runs.steps.diagnostics_eq⟩

/-- An evaluation returns one answer, with one list of cycles. -/
theorem Returns.unique {after otherAfter : Session Request Value World}
    {answer otherAnswer : Except Failure (Value request)} {cycles otherCycles : List Diagnostic}
    (returns : Returns program session request answer cycles after)
    (other : Returns program session request otherAnswer otherCycles otherAfter) :
    answer = otherAnswer ∧ cycles = otherCycles ∧ after = otherAfter := by
  obtain ⟨history, runs, rfl, _⟩ := returns.reports
  obtain ⟨otherHistory, otherRuns, rfl, _⟩ := other.reports
  obtain ⟨rfl, sameAnswer, sameAfter⟩ := runs.unique rfl otherRuns
  exact ⟨Outcome.ofAnswer_inj.mp sameAnswer, rfl, sameAfter⟩

private theorem Calls.trusted {first : Session Request Value World}
    (calls : Calls program first session)
    (allOblivious : ∀ request, (program.compute request).Oblivious program)
    (honest : program.HonestStorage) (declared : program.ZonesDeclared)
    {options : Options} {observed : Bool} (isFresh : first.evaluator = .fresh options observed)
    (nothingStored : ∀ request, program.storedOutside first.world request = none) :
    Trusted program session ∧ session.evaluator.active = [] ∧
      first.registry.Below session.registry := by
  obtain ⟨answers, course⟩ := calls
  induction course with
  | begun begins =>
      obtain rfl := begins
      refine ⟨.of_fresh isFresh nothingStored, ?_, .refl _⟩
      rw [isFresh]
      rfl
  | elsewhere _ changes => cases changes
  | called _ calls inductionHypothesis =>
      obtain ⟨_, _, _, _, rfl, evaluates, _⟩ := calls
      obtain ⟨trusted, idle, below⟩ := inductionHypothesis
      have runs := (run_evaluate program _ _ _).trans evaluates
      obtain ⟨history, reaches⟩ := exists_run_of_run runs (by simp)
      obtain ⟨opened, _, active, closed⟩ := reaches.nests
      rw [closed _ rfl, idle] at active
      have simulated := reaches.simulated_evaluate allOblivious honest declared idle trusted
      exact ⟨simulated.trusted, active, below.trans simulated.below⟩

/-- Caching is unobservable. After any evaluations of a fresh evaluator, all of
which were answered, one more evaluation has the answer and the cycles that it
has on an evaluator that keeps no values and has evaluated nothing before. -/
theorem caching_unobservable {first blank after : Session Request Value World}
    {options blankOptions : Options} {observed blankObserved : Bool}
    {answer : Except Failure (Value request)} {cycles : List Diagnostic}
    (allOblivious : ∀ request, (program.compute request).Oblivious program)
    (honest : program.HonestStorage) (declared : program.ZonesDeclared)
    (isFresh : first.evaluator = .fresh options observed)
    (nothingStored : ∀ request, program.storedOutside first.world request = none)
    (isBlank : blank.evaluator = .fresh blankOptions blankObserved)
    (sameRegistry : blank.registry = first.registry)
    (calls : Calls program first session)
    (returns : Returns program session request answer cycles after) :
    ∃ last, Returns program.uncached blank request answer cycles last := by
  obtain ⟨trusted, idle, below⟩ :=
    calls.trusted allOblivious honest declared isFresh nothingStored
  obtain ⟨history, reaches, rfl, _⟩ := returns.reports
  have simulated := reaches.simulated_evaluate allOblivious honest declared idle trusted
  have fits : Fits session.evaluator.active session.registry blank := by
    refine ⟨?_, ?_⟩
    · rw [isBlank, idle]
      rfl
    · rw [sameRegistry]
      exact below
  obtain ⟨shadowHistory, last, runs, _, sameCycles⟩ := simulated.shadowed blank fits
  refine ⟨last, ?_⟩
  rw [← sameCycles]
  exact runs.returns

end Program

namespace Analysis

/-- Two declarations that depend on each other, and one that does not depend on anything. -/
def loop : Graph where
  path := "loop"
  declarations := Graph.numbered [⟨"a", 1, ["c", "b"]⟩, ⟨"b", 2, ["a"]⟩, ⟨"c", 3, []⟩]
  distinct := by decide

end Analysis

namespace Program

/-- After the weight of one declaration was kept, another one still meets the
cycle that it meets without caches. -/
theorem caching_unobservable_loop :
    ∃ (first session last : AnalysisSession) (error : CycleError) (cycles : List Diagnostic),
      Calls (Analysis.program Analysis.loop) first session ∧
      session.evaluator.cache.length = 1 ∧
      Returns (Analysis.program Analysis.loop).uncached first (.totalWeight "a")
        (.error (.cycle error)) cycles last := by
  let program := Analysis.program Analysis.loop
  let first : AnalysisSession := { evaluator := .fresh {} false, world := [] }
  let session := (program.evaluate 3 (.totalWeight "c") first).2
  have evaluates : program.evaluate 3 (.totalWeight "c") first = (.ofAnswer (.ok 3), session) := rfl
  have meetsCycle : (match (program.evaluate 6 (.totalWeight "a") session).1 with
      | .failed failure => failure.isCycle
      | _ => false) = true := by decide +kernel
  rcases rejects : program.evaluate 6 (.totalWeight "a") session with ⟨outcome, after⟩
  rw [rejects] at meetsCycle
  cases outcome with
  | success value => cases meetsCycle
  | aborted message => cases meetsCycle
  | tooDeep => cases meetsCycle
  | failed failure =>
      cases failure with
      | computation error => cases meetsCycle
      | cycle error =>
          obtain ⟨history, runs⟩ := exists_run_of_run ((run_evaluate ..).trans rejects) (by simp)
          have returns : Returns program session (.totalWeight "a") (.error (.cycle error)) _
              after := Run.returns runs
          have calls : Calls program first session :=
            ⟨_, answered (.begun rfl) evaluates trivial⟩
          obtain ⟨last, same⟩ := caching_unobservable (Analysis.oblivious_compute _)
            (Analysis.honestStorage _) (Analysis.zonesDeclared _) rfl
            (Analysis.storedOutside_nil _) rfl rfl calls returns
          exact ⟨first, session, last, error, _, calls, rfl, same⟩

end Program

end RequestEngine
