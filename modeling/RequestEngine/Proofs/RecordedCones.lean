import RequestEngine.Proofs.Recording
import RequestEngine.Proofs.Uncached

/-!
Contract: graphs that record everything below a request.

Owns:
- graphs that record all that a settled request depends on;
- what an evaluator without caches remembers when it records dependencies;
- that computing such a request once more, without caches, records nothing new.

Does not own: how a graph gets to record what is below a request.
-/

namespace RequestEngine

variable {Request : Type} [DecidableEq Request] {Value : Request → Type} {World : Type} {α : Type}

namespace Program

variable {program : Program Request Value World}
variable {session : Session Request Value World} {recorder smaller larger : Recorder Request}
variable {active : List Request} {request needed : Request} {registry largest : Registry}

/-! ### What is recorded below a request -/

/-- A graph records what a request needs, and everything below. -/
def Documents (program : Program Request Value World) (recorder : Recorder Request)
    (request : Request) : Prop :=
  ∀ other, DependsOn program request other → ∀ needed, Needs program other needed →
    recorder.Edge other needed

theorem Documents.mono (documents : Documents program smaller request)
    (extended : smaller.ExtendedBy larger) : Documents program larger request :=
  fun other depends needed needs => extended other needed (documents other depends needed needs)

theorem Documents.below (documents : Documents program recorder request)
    (needs : Needs program request needed) :
    recorder.Edge request needed ∧ Documents program recorder needed :=
  ⟨documents request .refl needed needs, fun other depends => documents other (.head needs depends)⟩

theorem documents_of_needs
    (records : ∀ needed, Needs program request needed →
      recorder.Edge request needed ∧ Documents program recorder needed) :
    Documents program recorder request := by
  intro other depends needed needs
  rcases depends.cases_head with rfl | ⟨first, needsFirst, dependsRest⟩
  · exact (records needed needs).1
  · exact (records first needsFirst).2 other dependsRest needed needs

/-! ### Evaluators without caches -/

/-- What an evaluator without caches remembers, the recorded graph included. -/
structure Tracks (active : List Request) (registry : Registry) (recorder : Recorder Request)
    (session : Session Request Value World) : Prop where
  fits : Fits active registry session
  recorded : session.evaluator.recorder = some recorder

namespace Tracks

omit [DecidableEq Request] in
theorem mono (tracks : Tracks active registry recorder session)
    (below : registry.Below largest) : Tracks active largest recorder session :=
  ⟨tracks.fits.mono below, tracks.recorded⟩

omit [DecidableEq Request] in
theorem reported (tracks : Tracks active registry recorder session) (diagnostic : Diagnostic) :
    Tracks active registry recorder (session.reported [diagnostic]) :=
  ⟨⟨tracks.fits.active_eq, tracks.fits.below⟩, tracks.recorded⟩

omit [DecidableEq Request] in
theorem updated (tracks : Tracks active registry recorder session) (world : World) :
    Tracks active registry recorder { session with world := world } :=
  ⟨⟨tracks.fits.active_eq, tracks.fits.below⟩, tracks.recorded⟩

private theorem recorded_of_receive {after : Session Request Value World}
    {reception : Reception (Value request)} (tracks : Tracks active registry recorder session)
    (receives : session.receive program request = (reception, after))
    (admitted : ∀ conflict, reception ≠ .conflicting conflict) :
    after.evaluator.recorder = some (recorder.record active.getLast? request) := by
  rw [Session.recorder_of_receive receives admitted tracks.recorded, tracks.fits.active_eq]

theorem computing (tracks : Tracks active registry recorder session)
    (holds : registry.Holds (program.kind request).zone) (notActive : request ∉ active) :
    ∃ entered, session.receive program.uncached request = (.computing, entered) ∧
      Tracks (active ++ [request]) registry (recorder.record active.getLast? request) entered := by
  obtain ⟨entered, receives, fits⟩ := tracks.fits.computing holds notActive
  exact ⟨entered, receives, fits, tracks.recorded_of_receive receives (by simp)⟩

theorem rejected (tracks : Tracks active registry recorder session)
    (holds : registry.Holds (program.kind request).zone) (isActive : request ∈ active) :
    ∃ after,
      session.receive program.uncached request =
        (.rejected (session.cycleError program request)
          (Session.cycleReport program request (Session.cycleSteps request active)), after) ∧
      Tracks active registry (recorder.record active.getLast? request) after := by
  obtain ⟨after, receives, fits⟩ := tracks.fits.rejected holds isActive
  exact ⟨after, receives, fits, tracks.recorded_of_receive receives (by simp)⟩

theorem concluded (program : Program Request Value World)
    (tracks : Tracks (active ++ [request]) registry recorder session)
    (answer : Except Failure (Value request)) :
    ∃ left, session.concluded program.uncached request (.ofAnswer answer) =
        (.ofAnswer answer, left) ∧
      Tracks active registry recorder left := by
  obtain ⟨left, concludes, fits⟩ := tracks.fits.concluded program answer
  exact ⟨left, concludes, fits, (Session.recorder_concluded concludes).trans tracks.recorded⟩

end Tracks

/-! ### Computing again -/

/-- A settled computation runs to its answer without caches and records nothing
new, if its owner has asked for everything that it asks for, and everything
below that is recorded. -/
theorem Settles.exists_silent_run {computation : Computation Request Value World α}
    {answer : Except Failure α} (settles : Settles program computation answer) {owner : Request}
    (tracks : Tracks (active ++ [owner]) registry recorder session)
    (free : ∀ needed, Asks program computation needed → ∀ other, DependsOn program needed other →
      other ∉ active ++ [owner])
    (held : ∀ needed, Asks program computation needed → ∀ other, DependsOn program needed other →
      registry.Holds (program.kind other).zone)
    (records : ∀ needed, Asks program computation needed →
      recorder.Edge owner needed ∧ Documents program recorder needed) :
    ∃ history final,
      Run program.uncached computation session history (some (.ofAnswer answer)) final ∧
      Tracks (active ++ [owner]) registry recorder final := by
  induction settles generalizing active owner session with
  | done => exact ⟨[], session, .done, tracks⟩
  | fail => exact ⟨[], session, .fail, tracks⟩
  | @report _ diagnostic _ _ _ inductionHypothesis =>
      obtain ⟨history, final, runs, finalTracks⟩ :=
        inductionHypothesis (tracks.reported diagnostic)
          (fun needed asks => free needed (.report asks))
          (fun needed asks => held needed (.report asks))
          (fun needed asks => records needed (.report asks))
      exact ⟨_, final, .report runs, finalTracks⟩
  | @update _ change _ _ _ inductionHypothesis =>
      obtain ⟨history, final, runs, finalTracks⟩ :=
        inductionHypothesis (tracks.updated (change session.world))
          (fun needed asks => free needed (.update asks))
          (fun needed asks => held needed (.update asks))
          (fun needed asks => records needed (.update asks))
      exact ⟨_, final, .update runs, finalTracks⟩
  | @ask _ request _ nested _ computes resumes nestedHypothesis resumedHypothesis =>
      have settled : Settled program request := ⟨nested, computes⟩
      obtain ⟨edge, documents⟩ := records request .now
      obtain ⟨entered, receives, enteredTracks⟩ := tracks.computing
        (held request .now request .refl) (free request .now request .refl)
      have known : recorder.record (active ++ [owner]).getLast? request = recorder := by
        rw [List.getLast?_concat]
        exact Recorder.record_of_edge edge
      rw [known] at enteredTracks
      obtain ⟨inner, computed, innerRuns, computedTracks⟩ :=
        nestedHypothesis enteredTracks
          (fun _ needs _ depends => settled.free_below (free request .now) needs depends)
          (fun needed needs other depends => held request .now other (.head needs depends))
          (fun needed needs => documents.below needs)
      obtain ⟨left, concludes, leftTracks⟩ := computedTracks.concluded program nested
      obtain ⟨history, final, runs, finalTracks⟩ := resumedHypothesis leftTracks
        (fun needed asks => free needed (.later computes asks))
        (fun needed asks => held needed (.later computes asks))
        (fun needed asks => records needed (.later computes asks))
      exact ⟨_, final, .returned receives innerRuns concludes runs, finalTracks⟩

/-- Without caches, a settled request below which everything is recorded adds
nothing to the graph but itself. -/
theorem Settles.exists_evaluate {answer : Except Failure (Value request)}
    (settles : Settles program (program.compute request) answer)
    (documents : Documents program recorder request)
    (tracks : Tracks active registry recorder session)
    (free : ∀ other, DependsOn program request other → other ∉ active)
    (held : ∀ other, DependsOn program request other → registry.Holds (program.kind other).zone) :
    ∃ history final,
      Run program.uncached (Computation.evaluate request) session history
        (some (.ofAnswer answer)) final ∧
      Tracks active registry (recorder.record active.getLast? request) final := by
  have settled : Settled program request := ⟨answer, settles⟩
  have documentsStill : Documents program (recorder.record active.getLast? request) request :=
    documents.mono Recorder.extendedBy_record
  obtain ⟨entered, receives, enteredTracks⟩ :=
    tracks.computing (held request .refl) (free request .refl)
  obtain ⟨inner, computed, runs, computedTracks⟩ := settles.exists_silent_run enteredTracks
    (fun _ needs _ depends => settled.free_below free needs depends)
    (fun needed needs other depends => held other (.head needs depends))
    (fun needed needs => documentsStill.below needs)
  obtain ⟨left, concludes, leftTracks⟩ := computedTracks.concluded program answer
  exact ⟨_, left, .evaluate_of_computed receives runs concludes, leftTracks⟩

end Program

end RequestEngine
