import RequestEngine.Proofs.Steps

/-!
Contract: what evaluations record.

Owns:
- the recorded graph as a relation between requests, and how recording extends it;
- which operations of an evaluator record something;
- what the events of a history record.

A request is recorded once its zone is met, before any cache is consulted and
before it is compared with the stack. Nothing else is ever recorded.

Does not own: what the recorded graph says about the stack.
-/

namespace RequestEngine

namespace Recorder

variable {Request : Type} [DecidableEq Request] {recorder : Recorder Request}
variable {asker : Option Request} {request dependent needed root : Request}

/-- One request asked for another one. -/
def Edge (recorder : Recorder Request) (dependent request : Request) : Prop :=
  request ∈ recorder.dependenciesOf dependent

theorem edge_record :
    (recorder.record asker request).Edge dependent needed ↔
      recorder.Edge dependent needed ∨ (asker = some dependent ∧ needed = request) := by
  unfold Edge
  cases asker with
  | none =>
      rw [dependenciesOf_record_none]
      simp
  | some other =>
      by_cases same : other = dependent
      · subst same
        rw [dependenciesOf_record_self, mem_appendNew]
        simp
      · rw [dependenciesOf_record_other recorder same]
        simp [same]

theorem mem_roots_record :
    root ∈ (recorder.record asker request).roots ↔
      root ∈ recorder.roots ∨ (asker = none ∧ root = request) := by
  cases asker with
  | none =>
      rw [record, mem_appendNew]
      simp
  | some dependent => simp [record]

/-- Whatever one graph records, the other one records as well. -/
def ExtendedBy (smaller larger : Recorder Request) : Prop :=
  ∀ dependent needed, smaller.Edge dependent needed → larger.Edge dependent needed

theorem ExtendedBy.refl (recorder : Recorder Request) : recorder.ExtendedBy recorder :=
  fun _ _ edge => edge

theorem ExtendedBy.trans {smaller middle larger : Recorder Request}
    (first : smaller.ExtendedBy middle) (second : middle.ExtendedBy larger) :
    smaller.ExtendedBy larger :=
  fun dependent needed edge => second dependent needed (first dependent needed edge)

/-- Nothing that is recorded is ever taken back. -/
theorem extendedBy_record : recorder.ExtendedBy (recorder.record asker request) :=
  fun _ _ edge => edge_record.mpr (.inl edge)

/-- Recording an edge again changes nothing. -/
theorem record_of_edge (known : recorder.Edge dependent request) :
    recorder.record (some dependent) request = recorder := by
  obtain ⟨roots, edges⟩ := recorder
  have sameEdges : addEdge dependent request edges = edges := by
    unfold Edge dependenciesOf at known
    induction edges with
    | nil => cases known
    | cons entry rest inductionHypothesis =>
        by_cases isDependent : entry.dependent = dependent
        · have listed : request ∈ entry.dependencies := by simpa [isDependent] using known
          rw [addEdge, if_pos isDependent, appendNew, if_pos listed]
        · rw [addEdge, if_neg isDependent, inductionHypothesis]
          simpa [isDependent] using known
  rw [record, sameEdges]

end Recorder

/-! ### Operations -/

namespace Session

variable {Request : Type} {Value : Request → Type} {World : Type}
variable {program : Program Request Value World} {request : Request}
variable {session met after : Session Request Value World}

theorem recorder_of_meets {zone : ZoneDefinition} {conflict : Option ZoneConflict}
    (meets : session.meetZone zone = (conflict, met)) :
    met.evaluator.recorder = session.evaluator.recorder := by
  unfold meetZone at meets
  split at meets
  · cases meets
    rfl
  · unfold registerZone at meets
    split at meets <;> cases meets <;> rfl

@[simp]
theorem recorder_countHit :
    (session.countHit program request).evaluator.recorder = session.evaluator.recorder := by
  unfold countHit
  split <;> rfl

@[simp]
theorem recorder_entered :
    (session.entered program request).evaluator.recorder = session.evaluator.recorder := by
  unfold entered
  rw [evaluator_notifyStarted]
  rfl

variable [DecidableEq Request]

@[simp]
theorem recorder_rejected :
    (session.rejected program request).evaluator.recorder = session.evaluator.recorder := by
  unfold rejected
  split <;> rfl

theorem recorder_kept {value : Value request}
    (keeps : session.kept program request value = .ok after) :
    after.evaluator.recorder = session.evaluator.recorder := by
  unfold kept at keeps
  split at keeps
  · cases keeps
    rfl
  · cases inserts : session.evaluator.cache.insert program.kind request value with
    | error clash =>
        rw [inserts] at keeps
        cases keeps
    | ok inserted =>
        rw [inserts] at keeps
        cases keeps
        rfl
  · cases keeps
    rfl

/-- Finishing a computation records nothing. -/
theorem recorder_concluded {outcome concluded : Outcome (Value request)}
    (concludes : session.concluded program request outcome = (concluded, after)) :
    after.evaluator.recorder = session.evaluator.recorder := by
  have sameRecorder :
      (session.notifyFinished (program.kind request).name).evaluator.recorder =
        session.evaluator.recorder := by
    rw [evaluator_notifyFinished]
  cases outcome with
  | aborted message =>
      cases concludes
      exact sameRecorder
  | tooDeep =>
      cases concludes
      exact sameRecorder
  | failed failure =>
      cases concludes
      exact sameRecorder
  | success value =>
      simp only [Session.concluded] at concludes
      split at concludes
      case h_1 stored keeps =>
        cases concludes
        exact (recorder_kept keeps).trans sameRecorder
      case h_2 clash _ =>
        cases concludes
        exact sameRecorder

end Session

/-! ### Events -/

variable {Request : Type} [DecidableEq Request] {Value : Request → Type} {World : Type}
variable {program : Program Request Value World} {request : Request}
variable {session after : Session Request Value World}

/-- What an event adds to the recorded graph while some requests are active: the
topmost one asks for the request that is taken up, unless its zone conflicts. -/
def Event.recordIn (active : List Request) :
    Event Request Value World → Recorder Request → Recorder Request
  | .received _ (.conflicting _), recorder => recorder
  | .received request _, recorder => recorder.record active.getLast? request
  | .finished _ _, recorder | .abandoned _, recorder | .reported _, recorder
  | .updated _, recorder => recorder

theorem Recorder.extendedBy_recordIn {active : List Request} {recorder : Recorder Request}
    {event : Event Request Value World} : recorder.ExtendedBy (event.recordIn active recorder) := by
  cases event with
  | received request reception =>
      cases reception with
      | conflicting conflict => exact .refl _
      | _ => exact extendedBy_record
  | _ => exact .refl _

/-- A request that is taken up is recorded, however it is settled. -/
theorem Session.Receives.recorder_eq {reception : Reception (Value request)}
    (received : Receives program request session reception after) :
    after.evaluator.recorder = session.evaluator.recorder.map
      ((Event.received request reception : Event Request Value World).recordIn
        session.evaluator.active) := by
  have recorded : ∀ {met},
      session.meetZone (program.kind request).zone = (none, met) →
        (met.recorded request).evaluator.recorder =
          session.evaluator.recorder.map (·.record session.evaluator.active.getLast? request) := by
    intro met meets
    have sameActive : met.evaluator.active = session.evaluator.active :=
      congrArg Core.active (Session.core_recorded_of_meets request meets)
    show met.evaluator.recorder.map _ = _
    rw [Session.recorder_of_meets meets, sameActive]
  cases received with
  | conflicting meets =>
      rw [Session.recorder_of_meets meets]
      exact Option.map_id'.symm
  | refused meets _ => exact recorded meets
  | held meets _ _ =>
      rw [Session.recorder_countHit]
      exact recorded meets
  | rejected meets _ _ _ =>
      rw [Session.recorder_rejected]
      exact recorded meets
  | computing meets _ _ _ =>
      rw [Session.recorder_entered]
      exact recorded meets

theorem Session.recorder_of_receive {recorder : Recorder Request}
    {reception : Reception (Value request)}
    (receives : session.receive program request = (reception, after))
    (admitted : ∀ conflict, reception ≠ .conflicting conflict)
    (recorded : session.evaluator.recorder = some recorder) :
    after.evaluator.recorder =
      some (recorder.record session.evaluator.active.getLast? request) := by
  rw [(receive_eq_iff.mp receives).recorder_eq, recorded, Option.map_some]
  cases reception with
  | conflicting conflict => exact absurd rfl (admitted conflict)
  | _ => rfl

/-- A step extends the recorded graph as its event says. -/
theorem Program.Step.recorder_eq {event : Event Request Value World}
    (step : Step program session event after) :
    after.evaluator.recorder =
      session.evaluator.recorder.map (event.recordIn session.evaluator.active) := by
  have unchanged : session.evaluator.recorder =
      session.evaluator.recorder.map fun recorder => recorder := Option.map_id'.symm
  cases step with
  | received receives => exact (Session.receive_eq_iff.mp receives).recorder_eq
  | finished _ concludes => exact (Session.recorder_concluded concludes).trans unchanged
  | abandoned =>
      rw [Session.evaluator_notifyFinished]
      exact unchanged
  | reported => exact unchanged
  | updated => exact unchanged

end RequestEngine
