import RequestEngine.Proofs.Denotation
import RequestEngine.Proofs.Registration
import RequestEngine.Proofs.Steps

/-!
Contract: evaluation without caches.

Owns:
- the program that computes every request anew;
- the diagnostics of a history, and among them those of cycles;
- what an evaluator without caches remembers: its stack and the zones;
- the run of a settled computation without caches.

Does not own: evaluation with caches.
-/

namespace RequestEngine

variable {Request : Type} [DecidableEq Request] {Value : Request → Type} {World : Type} {α : Type}

/-! ### Diagnostics -/

/-- The diagnostics of cycles that were found at an event. -/
def Event.cycleDiagnostics : Event Request Value World → List Diagnostic
  | .received _ (.rejected _ diagnostics) => diagnostics
  | _ => []

/-- All diagnostics of an event. -/
def Event.diagnostics : Event Request Value World → List Diagnostic
  | .received _ (.rejected _ diagnostics) => diagnostics
  | .reported diagnostic => [diagnostic]
  | _ => []

/-- The diagnostics of cycles in a history. -/
def reportedCycles (history : List (Event Request Value World)) : List Diagnostic :=
  history.flatMap Event.cycleDiagnostics

section ReportedCycles

variable (earlier later : List (Event Request Value World)) (event : Event Request Value World)

omit [DecidableEq Request] in
@[simp]
theorem reportedCycles_nil :
    reportedCycles ([] : List (Event Request Value World)) = [] := rfl

omit [DecidableEq Request] in
@[simp]
theorem reportedCycles_cons :
    reportedCycles (event :: later) = event.cycleDiagnostics ++ reportedCycles later := rfl

omit [DecidableEq Request] in
@[simp]
theorem reportedCycles_append :
    reportedCycles (earlier ++ later) = reportedCycles earlier ++ reportedCycles later :=
  List.flatMap_append

end ReportedCycles

namespace Session

variable {program : Program Request Value World} {request : Request}
variable {session met after : Session Request Value World}

omit [DecidableEq Request] in
@[simp]
theorem diagnostics_notifyStarted (kind inputs : String) :
    (session.notifyStarted kind inputs).diagnostics = session.diagnostics := by
  unfold notifyStarted
  split <;> rfl

omit [DecidableEq Request] in
@[simp]
theorem diagnostics_notifyFinished (kind : String) :
    (session.notifyFinished kind).diagnostics = session.diagnostics := by
  unfold notifyFinished
  split <;> rfl

omit [DecidableEq Request] in
@[simp]
theorem diagnostics_meetZone (zone : ZoneDefinition) :
    (session.meetZone zone).2.diagnostics = session.diagnostics := by
  unfold meetZone registerZone
  split
  · rfl
  · split <;> rfl

omit [DecidableEq Request] in
@[simp]
theorem diagnostics_countHit :
    (session.countHit program request).diagnostics = session.diagnostics := by
  unfold countHit
  split <;> rfl

omit [DecidableEq Request] in
@[simp]
theorem diagnostics_entered :
    (session.entered program request).diagnostics = session.diagnostics := by
  unfold entered
  rw [diagnostics_notifyStarted]
  rfl

@[simp]
theorem diagnostics_rejected :
    (session.rejected program request).diagnostics =
      session.diagnostics ++
        cycleReport program request (cycleSteps request session.evaluator.active) := by
  unfold rejected
  split <;> rfl

theorem diagnostics_kept {value : Value request}
    (keeps : session.kept program request value = .ok after) :
    after.diagnostics = session.diagnostics := by
  unfold kept at keeps
  split at keeps
  · cases keeps
    rfl
  · cases inserts : session.evaluator.cache.insert program.kind request value with
    | error clash =>
        rw [inserts] at keeps
        cases keeps
    | ok inserted =>
        rw [inserts] at keeps
        cases keeps
        rfl
  · cases keeps
    rfl

theorem diagnostics_concluded {outcome concluded : Outcome (Value request)}
    (concludes : session.concluded program request outcome = (concluded, after)) :
    after.diagnostics = session.diagnostics := by
  cases outcome with
  | aborted message =>
      cases concludes
      exact diagnostics_notifyFinished _
  | tooDeep =>
      cases concludes
      exact diagnostics_notifyFinished _
  | failed failure =>
      cases concludes
      exact diagnostics_notifyFinished _
  | success value =>
      simp only [Session.concluded] at concludes
      split at concludes
      case h_1 stored keeps =>
        cases concludes
        exact (diagnostics_kept keeps).trans (diagnostics_notifyFinished _)
      case h_2 clash _ =>
        cases concludes
        exact diagnostics_notifyFinished _

/-- Taking a request up reports what its event says. -/
theorem Receives.diagnostics_eq {reception : Reception (Value request)}
    (received : Receives program request session reception after) :
    after.diagnostics = session.diagnostics ++
      (Event.received request reception : Event Request Value World).diagnostics := by
  have metDiagnostics : ∀ {conflict met},
      session.meetZone (program.kind request).zone = (conflict, met) →
        met.diagnostics = session.diagnostics := by
    intro conflict met meets
    have unchanged : (session.meetZone (program.kind request).zone).2.diagnostics =
        session.diagnostics := diagnostics_meetZone _
    rwa [meets] at unchanged
  cases received with
  | conflicting meets => exact (metDiagnostics meets).trans (List.append_nil _).symm
  | refused meets _ => exact (metDiagnostics meets).trans (List.append_nil _).symm
  | held meets _ _ =>
      rw [diagnostics_countHit]
      exact (metDiagnostics meets).trans (List.append_nil _).symm
  | computing meets _ _ _ =>
      rw [diagnostics_entered]
      exact (metDiagnostics meets).trans (List.append_nil _).symm
  | @rejected met meets _ _ _ =>
      have sameCore := core_recorded_of_meets request meets
      rw [diagnostics_rejected]
      show met.diagnostics ++
          cycleReport program request (cycleSteps request (met.recorded request).core.active) =
        session.diagnostics ++ cycleReport program request (cycleSteps request session.core.active)
      rw [metDiagnostics meets, sameCore]

end Session

namespace Program

variable {program : Program Request Value World}
variable {session after final : Session Request Value World}

theorem Step.diagnostics_eq {event : Event Request Value World}
    (step : Step program session event after) :
    after.diagnostics = session.diagnostics ++ event.diagnostics := by
  cases step with
  | received receives => exact (Session.receive_eq_iff.mp receives).diagnostics_eq
  | finished _ concludes =>
      exact (Session.diagnostics_concluded concludes).trans (List.append_nil _).symm
  | abandoned => exact (Session.diagnostics_notifyFinished _).trans (List.append_nil _).symm
  | reported => rfl
  | updated => exact (List.append_nil _).symm

/-- A history accounts for all diagnostics. -/
theorem Steps.diagnostics_eq {history : List (Event Request Value World)}
    (steps : Steps program session history final) :
    final.diagnostics = session.diagnostics ++ history.flatMap Event.diagnostics := by
  induction steps with
  | nil => exact (List.append_nil _).symm
  | cons step _ inductionHypothesis =>
      rw [inductionHypothesis, step.diagnostics_eq, List.append_assoc, List.flatMap_cons]

/-- The program whose values are never kept. -/
def uncached (program : Program Request Value World) : Program Request Value World :=
  { program with kind := fun request => { program.kind request with caching := .uncached } }

/-- What an evaluator without caches remembers: its stack, and zones that a
larger registry holds. -/
structure Fits (active : List Request) (larger : Registry)
    (session : Session Request Value World) : Prop where
  active_eq : session.evaluator.active = active
  below : session.registry.Below larger

variable {active : List Request} {larger : Registry} {request : Request}

omit [DecidableEq Request] in
theorem Fits.mono (fits : Fits active larger session) {largest : Registry}
    (below : larger.Below largest) : Fits active largest session :=
  ⟨fits.active_eq, fits.below.trans below⟩

omit [DecidableEq Request] in
private theorem fits_of_eq {core : Core Request Value World}
    {met : Session Request Value World} (sameCore : after.core = core)
    (sameZones : after.zones = met.zones) (below : met.registry.Below larger) :
    Fits core.active larger after := by
  refine ⟨congrArg Core.active sameCore, ?_⟩
  rw [Session.registry_of_zones_eq sameZones]
  exact below

/-- Without caches, a request that is not active is computed. -/
theorem Fits.computing (fits : Fits active larger session)
    (holds : larger.Holds (program.kind request).zone) (notActive : request ∉ active) :
    ∃ entered, session.receive program.uncached request = (.computing, entered) ∧
      Fits (active ++ [request]) larger entered := by
  obtain ⟨met, meets, below⟩ := Session.meets_of_holds fits.below holds
  rw [← fits.active_eq] at notActive ⊢
  have received : Session.Receives program.uncached request session .computing
      ((met.recorded request).entered program.uncached request) :=
    .computing meets rfl rfl notActive
  exact ⟨_, Session.receive_eq_iff.mpr received,
    fits_of_eq received.core_eq Session.zones_entered below⟩

theorem Fits.rejected (fits : Fits active larger session)
    (holds : larger.Holds (program.kind request).zone) (isActive : request ∈ active) :
    ∃ after,
      session.receive program.uncached request =
        (.rejected (session.cycleError program request)
          (Session.cycleReport program request (Session.cycleSteps request active)), after) ∧
      Fits active larger after := by
  obtain ⟨met, meets, below⟩ := Session.meets_of_holds fits.below holds
  rw [← fits.active_eq] at isActive ⊢
  have received : Session.Receives program.uncached request session
      (.rejected (session.cycleError program request)
        (Session.cycleReport program request
          (Session.cycleSteps request session.evaluator.active)))
      ((met.recorded request).rejected program.uncached request) :=
    .rejected meets rfl rfl isActive
  exact ⟨_, Session.receive_eq_iff.mpr received,
    fits_of_eq received.core_eq Session.zones_rejected below⟩

theorem Fits.concluded (program : Program Request Value World)
    (fits : Fits (active ++ [request]) larger session)
    (answer : Except Failure (Value request)) :
    ∃ left, session.concluded program.uncached request (.ofAnswer answer) =
        (.ofAnswer answer, left) ∧
      Fits active larger left := by
  rcases concludes : session.concluded program.uncached request (.ofAnswer answer) with
    ⟨outcome, left⟩
  have finishes := Session.finishes_of_concluded concludes
  have leftActive : left.evaluator.active = active := by
    rw [finishes.active_eq, fits.active_eq, List.dropLast_concat]
  have leftRegistry := Session.registry_of_zones_eq (Session.zones_concluded concludes)
  have handedOn : outcome = .ofAnswer answer := by
    cases finishes with
    | failed _ => rfl
    | kept _ _ => rfl
    | clashing clashes _ => cases clashes
  refine ⟨left, by rw [handedOn], leftActive, ?_⟩
  rw [leftRegistry]
  exact fits.below

/-- A settled computation runs to its answer without caches and without meeting
a cycle, if nothing that it depends on is active. -/
theorem Settles.exists_run {computation : Computation Request Value World α}
    {answer : Except Failure α} (settles : Settles program computation answer)
    (fits : Fits active larger session)
    (free : ∀ needed, Asks program computation needed → ∀ other, DependsOn program needed other →
      other ∉ active)
    (held : ∀ needed, Asks program computation needed → ∀ other, DependsOn program needed other →
      larger.Holds (program.kind other).zone) :
    ∃ history final,
      Run program.uncached computation session history (some (.ofAnswer answer)) final ∧
      Fits active larger final ∧ reportedCycles history = [] := by
  induction settles generalizing active session with
  | done => exact ⟨[], session, .done, fits, rfl⟩
  | fail => exact ⟨[], session, .fail, fits, rfl⟩
  | @report _ diagnostic _ _ _ inductionHypothesis =>
      have reported : Fits active larger (session.reported [diagnostic]) :=
        ⟨fits.active_eq, fits.below⟩
      obtain ⟨history, final, runs, finalFits, silent⟩ := inductionHypothesis reported
        (fun needed asks => free needed (.report asks))
        (fun needed asks => held needed (.report asks))
      exact ⟨_, final, .report runs, finalFits, silent⟩
  | @update _ change _ _ _ inductionHypothesis =>
      have updated : Fits active larger { session with world := change session.world } :=
        ⟨fits.active_eq, fits.below⟩
      obtain ⟨history, final, runs, finalFits, silent⟩ := inductionHypothesis updated
        (fun needed asks => free needed (.update asks))
        (fun needed asks => held needed (.update asks))
      exact ⟨_, final, .update runs, finalFits, silent⟩
  | @ask _ request _ nested _ computes resumes nestedHypothesis resumedHypothesis =>
      have settled : Settled program request := ⟨nested, computes⟩
      obtain ⟨entered, receives, enteredFits⟩ := fits.computing
        (held request .now request .refl) (free request .now request .refl)
      obtain ⟨inner, computed, innerRuns, computedFits, innerSilent⟩ :=
        nestedHypothesis enteredFits
          (fun _ needs _ depends => settled.free_below (free request .now) needs depends)
          (fun needed needs other depends => held request .now other (.head needs depends))
      obtain ⟨left, concludes, leftFits⟩ := computedFits.concluded program nested
      obtain ⟨history, final, runs, finalFits, silent⟩ := resumedHypothesis leftFits
        (fun needed asks => free needed (.later computes asks))
        (fun needed asks => held needed (.later computes asks))
      refine ⟨_, final, .returned receives innerRuns concludes runs, finalFits, ?_⟩
      rw [reportedCycles_cons, reportedCycles_append, reportedCycles_cons, innerSilent, silent]
      rfl

end Program

end RequestEngine
