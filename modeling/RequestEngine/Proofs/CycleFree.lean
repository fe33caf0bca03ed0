import RequestEngine.Proofs.CycleRecovery
import RequestEngine.Proofs.CycleReports

/-!
Contract: computations that meet no cycle.

Owns:
- counting the cycles of a history;
- caches that hold settled values only;
- that a computation which is answered without meeting a cycle settles, although
  it could have recovered from one, and leaves such caches behind.

Does not own: what happens in a cycle.
-/

namespace RequestEngine

variable {Request : Type} [DecidableEq Request] {Value : Request → Type} {World : Type} {α : Type}

/-! ### Counting cycles -/

/-- At the event a request was rejected, because it takes part in a cycle. -/
def Event.isRejection : Event Request Value World → Bool
  | .received _ (.rejected _ _) => true
  | _ => false

namespace Program

variable {program : Program Request Value World} {larger : Registry}
variable {session after final computed : Session Request Value World}
variable {computation : Computation Request Value World α}
variable {history : List (Event Request Value World)} {answer : Except Failure α}
variable {request : Request}

theorem Step.cyclesDetected_eq {event : Event Request Value World}
    (step : Step program session event after) :
    after.evaluator.metrics.cyclesDetected =
      session.evaluator.metrics.cyclesDetected + [event].countP Event.isRejection := by
  rw [step.metrics_eq]
  cases event with
  | received request reception =>
      cases reception with
      | held value => simp [Event.count, Event.isRejection]
      | _ => rfl
  | finished request answer => cases answer <;> rfl
  | _ => rfl

/-- The metrics count the cycles of a history. -/
theorem Steps.cyclesDetected_eq (steps : Steps program session history final) :
    final.evaluator.metrics.cyclesDetected =
      session.evaluator.metrics.cyclesDetected + history.countP Event.isRejection := by
  induction steps with
  | nil => rfl
  | @cons _ _ _ event later step _ inductionHypothesis =>
      rw [inductionHypothesis, step.cyclesDetected_eq, Nat.add_assoc, ← List.countP_append]
      rfl

/-- No request is rejected while the count of cycles stays the same. -/
theorem Steps.noCycle (steps : Steps program session history final)
    (sameCount : final.evaluator.metrics.cyclesDetected =
      session.evaluator.metrics.cyclesDetected) :
    ∀ event ∈ history, event.isRejection = false := by
  have noneCounted : history.countP Event.isRejection = 0 := by
    have counted := steps.cyclesDetected_eq
    omega
  simpa using List.countP_eq_zero.mp noneCounted

/-! ### Caches of settled values -/

/-- What the caches hold is settled. -/
def Grounded (program : Program Request Value World) (session : Session Request Value World) :
    Prop :=
  ∀ request value, session.core.held? program request = some value →
    Settles program (program.compute request) (.ok value)

theorem Grounded.congr (grounded : Grounded program session)
    (sameHeld : ∀ request, after.core.held? program request = session.core.held? program request) :
    Grounded program after :=
  fun request value holds => grounded request value ((sameHeld request).symm.trans holds)

theorem Grounded.finished {leaves : Session Request Value World}
    {nested : Except Failure (Value request)} (grounded : Grounded program computed)
    (keeps : program.KeepsStored) (vacant : computed.core.held? program request = none)
    (concludes : computed.concluded program request (.ofAnswer nested) =
      (.ofAnswer nested, leaves))
    (settles : Settles program (program.compute request) nested) : Grounded program leaves := by
  intro other value holds
  rcases held?_finished_cases keeps concludes vacant holds with before | ⟨found, rfl, same⟩
  · exact grounded other value before
  · cases same
    exact settles

private theorem settles_of_answered {reception : Reception (Value request)}
    {nested : Except Failure (Value request)}
    (receives : session.receive program request = (reception, after))
    (answers : reception.answer? = some nested)
    (notRejected : (Event.received request reception : Event Request Value World).isRejection =
      false)
    (grounded : Grounded program session) : Settles program (program.compute request) nested := by
  cases Session.receive_eq_iff.mp receives with
  | conflicting _ => cases answers
  | refused _ _ => cases answers
  | computing _ _ _ _ => cases answers
  | rejected _ _ _ _ => cases notRejected
  | @held value _ _ _ holds =>
      cases answers
      exact grounded request value holds

omit [DecidableEq Request] in
/-- A settled answer hands no cycle error on. -/
private theorem Settles.unhanded {nested : Except Failure (Value request)}
    {handed : CycleError → Prop} (settles : Settles program (program.compute request) nested)
    (unhanded : ∀ error, ¬ handed error) (error : CycleError) :
    ¬ (handed error ∨ nested = .error (.cycle error)) := by
  rintro (wasHanded | isCycle)
  · exact unhanded error wasHanded
  · exact settles.ne_cycle error isCycle

/-! ### Computations that meet no cycle -/

/-- A computation that is answered without meeting a cycle settles on its answer,
and so does everything that is kept on the way. -/
theorem Run.settles_of_noCycle {ended : Option (Outcome α)} {handed : CycleError → Prop}
    (recovering : Recovering program larger)
    (runs : Run program computation session history ended final)
    (ends : ended = some (.ofAnswer answer))
    (noCycle : ∀ event ∈ history, event.isRejection = false)
    (allHandOn : ∀ request, (program.compute request).HandsOn fun _ => False)
    (handsOn : computation.HandsOn handed) (unhanded : ∀ error, ¬ handed error)
    (detached : computation.Detached program) (sound : Sound program larger session)
    (follows : Follows program session.evaluator.active computation)
    (grounded : Grounded program session) :
    Settles program computation answer ∧ Grounded program final := by
  induction runs generalizing handed with
  | underWay => cases ends
  | unnoticed _ _ => cases ends
  | within _ _ _ => cases ends
  | activeRequests _ _ => exact detached.elim
  | isActive _ _ => exact detached.elim
  | isCached _ _ _ => exact detached.elim
  | isCachedRefused _ => exact detached.elim
  | read _ _ => exact detached.elim
  | abort => exact absurd ends Outcome.aborted_not_answered
  | refused _ _ => exact absurd ends Outcome.aborted_not_answered
  | unkept _ _ _ _ => exact absurd ends Outcome.aborted_not_answered
  | abandoned _ _ _ => exact absurd ends Outcome.aborted_not_answered
  | @done _ value _ =>
      have same : some (Outcome.ofAnswer (.ok value)) = some (.ofAnswer answer) := ends
      obtain rfl := Outcome.ofAnswer_inj.mp (Option.some.inj same)
      exact ⟨.done, grounded⟩
  | @fail _ failure _ =>
      have same : some (Outcome.ofAnswer (.error failure)) = some (.ofAnswer answer) := ends
      obtain rfl := Outcome.ofAnswer_inj.mp (Option.some.inj same)
      cases failure with
      | cycle error => exact absurd (handsOn error rfl) (unhanded error)
      | computation error => exact ⟨.fail, grounded⟩
  | @report _ diagnostic _ _ _ _ _ _ later =>
      obtain ⟨settles, finalGrounded⟩ := later ends (List.forall_mem_cons.mp noCycle).2 handsOn
        unhanded detached (sound.reported diagnostic) follows.reported (grounded.congr fun _ => rfl)
      exact ⟨.report settles, finalGrounded⟩
  | @update _ change _ session _ _ _ _ later =>
      have sameStorage := detached.1 session.world
      obtain ⟨settles, finalGrounded⟩ := later ends (List.forall_mem_cons.mp noCycle).2 handsOn
        unhanded detached.2 (sound.updated sameStorage) follows.updated
        (grounded.congr fun request => Core.held?_congr rfl (sameStorage request))
      exact ⟨.update settles, finalGrounded⟩
  | @answered _ request _ _ _ _ reception _ _ _ receives answers _ later =>
      obtain ⟨notRejected, quiet⟩ := List.forall_mem_cons.mp noCycle
      have atOnce := Reception.ne_computing_of_answer answers
      have settles := settles_of_answered receives answers notRejected grounded
      have resumed := follows.resumed fun _ others => settles.unique others
      rw [← Session.active_of_settled receives atOnce] at resumed
      obtain ⟨restSettles, finalGrounded⟩ := later ends quiet (handsOn _)
        (settles.unhanded unhanded) (detached _) (sound.settled recovering receives atOnce) resumed
        (grounded.congr fun _ => by rw [Session.core_of_settled receives atOnce])
      exact ⟨.ask settles restSettles, finalGrounded⟩
  | @returned _ request _ _ _ _ _ _ _ _ _ _ receives computes concludes _ inside later =>
      obtain ⟨innerQuiet, quiet⟩ := List.forall_mem_append.mp (List.forall_mem_cons.mp noCycle).2
      have began := sound.began recovering receives follows.asked
      have detachedInside := recovering.detached request
      obtain ⟨settles, computedGrounded⟩ := inside rfl innerQuiet (allHandOn request)
        (fun _ => id) detachedInside began (.entered receives)
        (grounded.congr fun _ => by
          rw [Session.core_of_computing receives]
          rfl)
      have computedSound := computes.sound recovering detachedInside began (.entered receives)
      obtain ⟨leavesSound, leavesActive⟩ := computedSound.finished recovering
        (active_of_computed receives computes) concludes fun _ others => settles.unique others
      have resumed := follows.resumed fun _ others => settles.unique others
      rw [← leavesActive] at resumed
      have vacant :=
        computedSound.vacant (List.mem_of_getLast? (onTop_of_computed receives computes))
      obtain ⟨restSettles, finalGrounded⟩ := later ends (List.forall_mem_cons.mp quiet).2
        (handsOn _) (settles.unhanded unhanded) (detached _) leavesSound resumed
        (computedGrounded.finished recovering.keeps vacant concludes settles)
      exact ⟨.ask settles restSettles, finalGrounded⟩

end Program

end RequestEngine
