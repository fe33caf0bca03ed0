import RequestEngine.Proofs.Memoization
import RequestEngine.Proofs.Termination

/-!
Contract: evaluations of programs that may recover from cycles.

Owns:
- the programs whose evaluations can be compared whatever they do with failures;
- sessions that are sound: what they hold for settled requests is what these
  settle on;
- sessions that are alike: they hold the same for all other requests;
- the run of a settled computation, from any sound session;
- the mirror image of a run in a session that is alike.

A computation that recovers from a cycle has a value that depends on the stack,
and the value is kept all the same. Two evaluators can be compared only as long
as they agree on such values. On settled requests they need not agree, because
these have the same value everywhere.

Does not own: which computations settle, or sequences of evaluations.
-/

namespace RequestEngine

variable {Request : Type} [DecidableEq Request] {Value : Request → Type} {World : Type} {α : Type}

/-- A computation that looks neither at its evaluator nor at the state of the
program, and leaves storage alone. What it does with failures is its own affair. -/
def Computation.Detached (program : Program Request Value World) :
    Computation Request Value World α → Prop
  | .done _ | .fail _ | .abort _ => True
  | .ask _ resume => ∀ answer, (resume answer).Detached program
  | .activeRequests _ | .isActive _ _ | .isCached _ _ | .read _ => False
  | .report _ next => next.Detached program
  | .update change next =>
      (∀ world, program.SameStorage world (change world)) ∧ next.Detached program

omit [DecidableEq Request] in
theorem Computation.Detached.bind {β : Type} {program : Program Request Value World}
    {computation : Computation Request Value World α}
    {next : α → Computation Request Value World β} (detached : computation.Detached program)
    (nextDetached : ∀ value, (next value).Detached program) :
    (computation.bind next).Detached program := by
  induction computation with
  | done value => exact nextDetached value
  | fail failure => exact trivial
  | abort message => exact trivial
  | ask request resume inductionHypothesis =>
      exact fun answer => inductionHypothesis answer (detached answer)
  | activeRequests resume _ => exact detached.elim
  | isActive request resume _ => exact detached.elim
  | isCached request resume _ => exact detached.elim
  | read resume _ => exact detached.elim
  | report diagnostic rest inductionHypothesis => exact inductionHypothesis detached
  | update change rest inductionHypothesis =>
      exact ⟨detached.1, inductionHypothesis detached.2⟩

omit [DecidableEq Request] in
theorem Program.detached_evaluate (program : Program Request Value World) (request : Request) :
    (Computation.evaluate request : Computation Request Value World _).Detached program := by
  intro answer
  cases answer <;> exact trivial

omit [DecidableEq Request] in
theorem Program.detached_evaluateOrDefault (program : Program Request Value World)
    (display : Request → String) (request : Request) (default : Value request) :
    (Computation.evaluateOrDefault display request default :
      Computation Request Value World _).Detached program := by
  intro answer
  cases answer with
  | ok value => exact trivial
  | error failure => cases failure <;> exact trivial

namespace Program

/-- Programs that may recover from failures, on evaluators whose zones and
identities do not clash. -/
structure Recovering (program : Program Request Value World) (larger : Registry) : Prop where
  detached : ∀ request, (program.compute request).Detached program
  identities : program.DistinctIdentities
  keeps : program.KeepsStored
  zones : ∀ request, larger.Holds (program.kind request).zone

/-- Active requests ask for each other, as far as they settle, no active request
has a value, and the value of a settled request is the one that it settles on. -/
structure Sound (program : Program Request Value World) (larger : Registry)
    (session : Session Request Value World) : Prop where
  memoized : ∃ past, Memoized program past session.core
  below : session.registry.Below larger
  chain : session.evaluator.active.IsChain fun lower upper =>
    Settled program lower → Needs program lower upper
  sincere : ∀ request value, session.core.held? program request = some value →
    Settled program request → Settles program (program.compute request) (.ok value)

/-- The same requests are active, and the caches agree on all requests that do
not settle. -/
structure Alike (program : Program Request Value World) (left right : Session Request Value World) :
    Prop where
  sameActive : right.evaluator.active = left.evaluator.active
  unsettled : ∀ request, ¬ Settled program request →
    right.core.held? program request = left.core.held? program request

variable {program : Program Request Value World} {larger : Registry}
variable {session after final computed left right middle : Session Request Value World}
variable {computation : Computation Request Value World α}
variable {history : List (Event Request Value World)} {answer : Except Failure α}
variable {request other : Request}

namespace Alike

theorem of_core_eq (sameCore : right.core = left.core) : Alike program left right where
  sameActive := congrArg Core.active sameCore
  unsettled := fun request _ => by rw [sameCore]

theorem refl (session : Session Request Value World) : Alike program session session :=
  of_core_eq rfl

theorem symm (alike : Alike program left right) : Alike program right left where
  sameActive := alike.sameActive.symm
  unsettled := fun request unsettled => (alike.unsettled request unsettled).symm

theorem trans (first : Alike program left middle) (second : Alike program middle right) :
    Alike program left right where
  sameActive := second.sameActive.trans first.sameActive
  unsettled := fun request unsettled =>
    (second.unsettled request unsettled).trans (first.unsettled request unsettled)

theorem reported (session : Session Request Value World) (diagnostic : Diagnostic) :
    Alike program session (session.reported [diagnostic]) :=
  of_core_eq rfl

/-- A change of the state that leaves storage alone. -/
theorem updated {world : World} (sameStorage : program.SameStorage session.world world) :
    Alike program session { session with world := world } where
  sameActive := rfl
  unsettled := fun request _ => Core.held?_congr rfl (sameStorage request)

end Alike

omit [DecidableEq Request] in
theorem Follows.resumed_unsettled {active : List Request}
    {resume : Except Failure (Value request) → Computation Request Value World α}
    (follows : Follows program active (.ask request resume)) (unsettled : ¬ Settled program request)
    (nested : Except Failure (Value request)) : Follows program active (resume nested) :=
  follows.resumed fun answer settles => absurd ⟨answer, settles⟩ unsettled

/-! ### Finishing a computation -/

section Finished

variable {nested : Except Failure (Value request)}

theorem held?_finished_other (keeps : program.KeepsStored)
    (concludes : computed.concluded program request (.ofAnswer nested) = (.ofAnswer nested, after))
    (differs : other ≠ request) :
    after.core.held? program other = computed.core.held? program other := by
  have finishes := Session.finishes_of_concluded concludes
  generalize outcomeEq : Outcome.ofAnswer nested = outcome at finishes
  cases finishes with
  | failed leaves =>
      rw [leaves]
      rfl
  | clashing _ _ => exact absurd outcomeEq (Outcome.ofAnswer_ne_aborted _ _)
  | kept _ leaves =>
      rw [leaves, Core.held?_kept_other keeps differs]
      rfl

/-- What is held for a request after its computation depends on its policy and
on the answer. -/
theorem held?_finished_self (keeps : program.KeepsStored)
    (concludes : computed.concluded program request (.ofAnswer nested) = (.ofAnswer nested, after))
    (vacant : computed.core.held? program request = none) :
    after.core.held? program request =
      if (program.kind request).caching = .uncached then none else nested.toOption := by
  have vacantPopped : computed.core.popped.held? program request = none := vacant
  have finishes := Session.finishes_of_concluded concludes
  generalize outcomeEq : Outcome.ofAnswer nested = outcome at finishes
  cases finishes with
  | failed leaves =>
      rw [leaves, vacantPopped]
      simp [Except.toOption]
  | clashing _ _ => exact absurd outcomeEq (Outcome.ofAnswer_ne_aborted _ _)
  | @kept value _ _ leaves =>
      rw [leaves]
      by_cases policy : (program.kind request).caching = .uncached
      · rw [if_pos policy]
        unfold Core.held?
        rw [policy]
      · rw [if_neg policy, Core.held?_kept_self _ keeps policy vacantPopped]
        rfl

/-- A value that is held after a computation was held before, or is its answer. -/
theorem held?_finished_cases (keeps : program.KeepsStored)
    (concludes : computed.concluded program request (.ofAnswer nested) = (.ofAnswer nested, after))
    (vacant : computed.core.held? program request = none) {value : Value other}
    (holds : after.core.held? program other = some value) :
    computed.core.held? program other = some value ∨
      ∃ found, nested = .ok found ∧
        (⟨other, value⟩ : (request : Request) × Value request) = ⟨request, found⟩ := by
  by_cases same : other = request
  · subst same
    rw [held?_finished_self keeps concludes vacant] at holds
    split at holds
    case isTrue => cases holds
    case isFalse =>
      cases nested with
      | error failure => cases holds
      | ok found =>
          cases holds
          exact .inr ⟨value, rfl, rfl⟩
  · rw [held?_finished_other keeps concludes same] at holds
    exact .inl holds

theorem exists_finished (identities : program.DistinctIdentities)
    (computed : Session Request Value World) (nested : Except Failure (Value request)) :
    ∃ after, computed.concluded program request (.ofAnswer nested) = (.ofAnswer nested, after) := by
  rcases Session.concluded_answer program request nested computed with
    ⟨after, concludes⟩ | ⟨message, after, concludes⟩
  · exact ⟨after, concludes⟩
  · have finishes := Session.finishes_of_concluded concludes
    generalize outcomeEq : Outcome.aborted message = outcome at finishes
    cases finishes with
    | failed _ => cases outcomeEq
    | kept _ _ => cases outcomeEq
    | clashing clashes _ =>
        rw [Core.clash?_of_distinctIdentities identities] at clashes
        cases clashes

end Finished

/-! ### Sound sessions -/

namespace Sound

theorem moved (sound : Sound program larger session) (sameCore : after.core = session.core)
    (below : after.registry.Below larger) : Sound program larger after where
  memoized := by
    rw [sameCore]
    exact sound.memoized
  below := below
  chain := by
    have sameActive : after.evaluator.active = session.evaluator.active :=
      congrArg Core.active sameCore
    rw [sameActive]
    exact sound.chain
  sincere := by
    rw [sameCore]
    exact sound.sincere

theorem reported (sound : Sound program larger session) (diagnostic : Diagnostic) :
    Sound program larger (session.reported [diagnostic]) :=
  sound.moved rfl sound.below

theorem updated {world : World} (sound : Sound program larger session)
    (sameStorage : program.SameStorage session.world world) :
    Sound program larger { session with world := world } where
  memoized := by
    obtain ⟨past, memoized⟩ := sound.memoized
    exact ⟨past, memoized.changed sameStorage⟩
  below := sound.below
  chain := sound.chain
  sincere := by
    intro request value holds
    have sameHeld : Core.held? program { session.core with world := world } request =
        session.core.held? program request := Core.held?_congr rfl (sameStorage request)
    exact sound.sincere request value (sameHeld.symm.trans holds)

theorem settled {reception : Reception (Value request)} (sound : Sound program larger session)
    (recovering : Recovering program larger)
    (receives : session.receive program request = (reception, after))
    (isSettled : reception ≠ .computing) : Sound program larger after :=
  sound.moved (Session.core_of_settled receives isSettled)
    (Session.below_of_receive recovering.zones sound.below receives).2

theorem admits {reception : Reception (Value request)} (sound : Sound program larger session)
    (recovering : Recovering program larger)
    (receives : session.receive program request = (reception, after)) (message : String) :
    reception.refusal? ≠ some message := by
  have admitted := (Session.below_of_receive recovering.zones sound.below receives).1
  cases Session.receive_eq_iff.mp receives with
  | conflicting _ => exact absurd rfl (admitted _)
  | refused _ clashes =>
      rw [Core.clash?_of_distinctIdentities recovering.identities] at clashes
      cases clashes
  | held _ _ _ => simp [Reception.refusal?]
  | rejected _ _ _ _ => simp [Reception.refusal?]
  | computing _ _ _ _ => simp [Reception.refusal?]

theorem began (sound : Sound program larger session) (recovering : Recovering program larger)
    (receives : session.receive program request = (.computing, after))
    (asked : ∀ owner ∈ session.evaluator.active.getLast?,
      Settled program owner → Needs program owner request) : Sound program larger after where
  memoized := by
    obtain ⟨past, memoized⟩ := sound.memoized
    exact ⟨_, Step.memoized (.received receives) recovering.identities recovering.keeps
      (by simp) memoized⟩
  below := (Session.below_of_receive recovering.zones sound.below receives).2
  chain := by
    rw [Session.active_of_computing receives]
    refine List.isChain_append.mpr ⟨sound.chain, .singleton _, ?_⟩
    intro owner isLast upper isRequest
    obtain rfl : request = upper := by simpa using isRequest
    exact asked owner isLast
  sincere := by
    rw [Session.core_of_computing receives]
    exact sound.sincere

theorem vacant (sound : Sound program larger session)
    (isActive : request ∈ session.evaluator.active) :
    session.core.held? program request = none := by
  obtain ⟨past, memoized⟩ := sound.memoized
  exact memoized.vacant request isActive

/-- A value that is kept for a settled request has to be the settled one. -/
theorem finished {lower : List Request} {nested : Except Failure (Value request)}
    {leaves : Session Request Value World} (sound : Sound program larger computed)
    (recovering : Recovering program larger)
    (onTop : computed.evaluator.active = lower ++ [request])
    (concludes : computed.concluded program request (.ofAnswer nested) =
      (.ofAnswer nested, leaves))
    (determined : ∀ settledAnswer, Settles program (program.compute request) settledAnswer →
      nested = settledAnswer) :
    Sound program larger leaves ∧ leaves.evaluator.active = lower := by
  have isLast : computed.evaluator.active.getLast? = some request := by
    rw [onTop]
    exact List.getLast?_concat
  have leavesActive : leaves.evaluator.active = lower := by
    rw [(Session.finishes_of_concluded concludes).active_eq, onTop, List.dropLast_concat]
  refine ⟨⟨?_, ?_, ?_, ?_⟩, leavesActive⟩
  · obtain ⟨past, memoized⟩ := sound.memoized
    exact ⟨_, Step.memoized (.finished isLast concludes) recovering.identities recovering.keeps
      (by simp) memoized⟩
  · rw [Session.registry_of_zones_eq (Session.zones_concluded concludes)]
    exact sound.below
  · rw [leavesActive]
    have chain := sound.chain
    rw [onTop] at chain
    exact (List.isChain_append.mp chain).1
  · intro other value holds settled
    have vacant := sound.vacant (List.mem_of_getLast? isLast)
    rcases held?_finished_cases recovering.keeps concludes vacant holds with
      before | ⟨found, rfl, same⟩
    · exact sound.sincere other value before settled
    · cases same
      obtain ⟨settledAnswer, settles⟩ := settled
      obtain rfl := determined settledAnswer settles
      exact settles

/-! ### Taking a request up -/

section Receives

variable (sound : Sound program larger session) (recovering : Recovering program larger)
include sound recovering

private theorem meets (request : Request) :
    ∃ met, session.meetZone (program.kind request).zone = (none, met) := by
  obtain ⟨met, meets, _⟩ := Session.meets_of_holds sound.below (recovering.zones request)
  exact ⟨met, meets⟩

theorem receives_held {value : Value request}
    (holds : session.core.held? program request = some value) :
    ∃ after, session.receive program request = (.held value, after) := by
  obtain ⟨met, meets⟩ := sound.meets recovering request
  have noClash := Core.clash?_of_distinctIdentities recovering.identities session.core request
  exact ⟨_, Session.receive_eq_iff.mpr (.held meets noClash holds)⟩

theorem receives_rejected (isActive : request ∈ session.evaluator.active) :
    ∃ after, session.receive program request =
      (.rejected (session.cycleError program request)
        (Session.cycleReport program request
          (Session.cycleSteps request session.evaluator.active)), after) := by
  obtain ⟨met, meets⟩ := sound.meets recovering request
  have noClash := Core.clash?_of_distinctIdentities recovering.identities session.core request
  exact ⟨_, Session.receive_eq_iff.mpr (.rejected meets noClash (sound.vacant isActive) isActive)⟩

theorem receives_computing (vacant : session.core.held? program request = none)
    (notActive : request ∉ session.evaluator.active) :
    ∃ after, session.receive program request = (.computing, after) := by
  obtain ⟨met, meets⟩ := sound.meets recovering request
  have noClash := Core.clash?_of_distinctIdentities recovering.identities session.core request
  exact ⟨_, Session.receive_eq_iff.mpr (.computing meets noClash vacant notActive)⟩

end Receives

end Sound

namespace Alike

/-- Sessions that are alike take an unsettled request up in the same way. -/
theorem receives {leftAfter : Session Request Value World} {reception : Reception (Value request)}
    (alike : Alike program left right) (recovering : Recovering program larger)
    (leftSound : Sound program larger left) (rightSound : Sound program larger right)
    (unsettled : ¬ Settled program request)
    (receives : left.receive program request = (reception, leftAfter)) :
    ∃ rightAfter, right.receive program request = (reception, rightAfter) := by
  have sameHeld := alike.unsettled request unsettled
  cases Session.receive_eq_iff.mp receives with
  | conflicting _ => exact absurd rfl (leftSound.admits recovering receives _)
  | refused _ _ => exact absurd rfl (leftSound.admits recovering receives _)
  | held _ _ holds => exact rightSound.receives_held recovering (sameHeld.trans holds)
  | rejected _ _ _ isActive =>
      rw [← alike.sameActive] at isActive
      obtain ⟨rightAfter, rightReceives⟩ := rightSound.receives_rejected recovering isActive
      rw [Session.cycleError_eq_of_active alike.sameActive, alike.sameActive] at rightReceives
      exact ⟨rightAfter, rightReceives⟩
  | computing _ _ vacant notActive =>
      rw [← alike.sameActive] at notActive
      exact rightSound.receives_computing recovering (sameHeld.trans vacant) notActive

theorem entered {leftEntered rightEntered : Session Request Value World}
    (alike : Alike program left right)
    (leftReceives : left.receive program request = (.computing, leftEntered))
    (rightReceives : right.receive program request = (.computing, rightEntered)) :
    Alike program leftEntered rightEntered where
  sameActive := by
    rw [Session.active_of_computing rightReceives, Session.active_of_computing leftReceives,
      alike.sameActive]
  unsettled := by
    rw [Session.core_of_computing rightReceives, Session.core_of_computing leftReceives]
    exact alike.unsettled

/-- Sessions that are alike stay so when both finish a request, which does not
settle, with the same answer. -/
theorem finished {leftAfter rightAfter : Session Request Value World}
    {nested : Except Failure (Value request)} (alike : Alike program left right)
    (leftSound : Sound program larger left) (rightSound : Sound program larger right)
    (keeps : program.KeepsStored) (isActive : request ∈ left.evaluator.active)
    (leftConcludes : left.concluded program request (.ofAnswer nested) =
      (.ofAnswer nested, leftAfter))
    (rightConcludes : right.concluded program request (.ofAnswer nested) =
      (.ofAnswer nested, rightAfter)) :
    Alike program leftAfter rightAfter where
  sameActive := by
    rw [(Session.finishes_of_concluded rightConcludes).active_eq, alike.sameActive,
      (Session.finishes_of_concluded leftConcludes).active_eq]
  unsettled := by
    intro other unsettled
    by_cases same : other = request
    · subst same
      have rightActive := isActive
      rw [← alike.sameActive] at rightActive
      rw [held?_finished_self keeps rightConcludes (rightSound.vacant rightActive),
        held?_finished_self keeps leftConcludes (leftSound.vacant isActive)]
    · rw [held?_finished_other keeps rightConcludes same,
        held?_finished_other keeps leftConcludes same]
      exact alike.unsettled other unsettled

end Alike

/-! ### Settled computations -/

section Settled

variable (recovering : Recovering program larger)
include recovering

/-- A settled request is answered as it settles when its computation is. -/
private theorem evaluates_of_computes {nested : Except Failure (Value request)}
    (computes : Settles program (program.compute request) nested)
    (inside : ∀ {entered : Session Request Value World}, Sound program larger entered →
      Follows program entered.evaluator.active (program.compute request) →
      ∃ inner computed,
        Run program (program.compute request) entered inner (some (.ofAnswer nested)) computed ∧
        Sound program larger computed ∧ Alike program entered computed)
    (asked : ∀ owner ∈ session.evaluator.active.getLast?,
      Settled program owner → Needs program owner request)
    (sound : Sound program larger session) :
    ∃ past after,
      Run program (Computation.evaluate request) session past (some (.ofAnswer nested)) after ∧
      Sound program larger after ∧ Alike program session after := by
  cases held : session.core.held? program request with
  | some value =>
      obtain ⟨after, receives⟩ := sound.receives_held recovering held
      obtain rfl := (sound.sincere request value held ⟨nested, computes⟩).unique computes
      have sameCore := Session.core_of_settled receives (by simp)
      exact ⟨_, after, .evaluate_of_answer receives rfl,
        sound.settled recovering receives (by simp), .of_core_eq sameCore⟩
  | none =>
      -- Being settled, the request cannot be active: active requests lead up to it.
      have notActive := not_active_of_dependsOn sound.chain asked ⟨nested, computes⟩ .refl
      obtain ⟨entered, receives⟩ := sound.receives_computing recovering held notActive
      have enteredActive := Session.active_of_computing receives
      obtain ⟨inner, computed, runs, computedSound, innerAlike⟩ :=
        inside (sound.began recovering receives asked) (.entered receives)
      obtain ⟨after, concludes⟩ := exists_finished recovering.identities computed nested
      obtain ⟨afterSound, afterActive⟩ := computedSound.finished recovering
        (innerAlike.sameActive.trans enteredActive) concludes
        fun _ settles => computes.unique settles
      refine ⟨_, after, .evaluate_of_computed receives runs concludes, afterSound, afterActive,
        fun other unsettled => ?_⟩
      have differs : other ≠ request := by
        rintro rfl
        exact unsettled ⟨nested, computes⟩
      rw [held?_finished_other recovering.keeps concludes differs,
        innerAlike.unsettled other unsettled, Session.core_of_computing receives]
      rfl

/-- A settled computation runs to its answer from every sound session, and
leaves a session that is alike. -/
theorem Settles.runs (settles : Settles program computation answer)
    (detached : computation.Detached program) (sound : Sound program larger session)
    (follows : Follows program session.evaluator.active computation) :
    ∃ history final,
      Run program computation session history (some (.ofAnswer answer)) final ∧
      Sound program larger final ∧ Alike program session final := by
  induction settles generalizing session with
  | done => exact ⟨[], session, .done, sound, .refl session⟩
  | fail => exact ⟨[], session, .fail, sound, .refl session⟩
  | @report _ diagnostic _ _ _ inductionHypothesis =>
      have reportedSound := sound.reported diagnostic
      obtain ⟨history, final, runs, finalSound, alike⟩ :=
        inductionHypothesis detached reportedSound follows.reported
      exact ⟨_, final, .report runs, finalSound, .trans (.reported session diagnostic) alike⟩
  | @update _ change _ _ _ inductionHypothesis =>
      have sameStorage := detached.1 session.world
      have updatedSound := sound.updated sameStorage
      obtain ⟨history, final, runs, finalSound, alike⟩ :=
        inductionHypothesis detached.2 updatedSound follows.updated
      exact ⟨_, final, .update runs, finalSound, .trans (.updated sameStorage) alike⟩
  | @ask _ request _ nested _ computes _ nestedHypothesis resumedHypothesis =>
      obtain ⟨past, middle, evaluates, middleSound, pastAlike⟩ :=
        evaluates_of_computes recovering computes (nestedHypothesis (recovering.detached request))
          follows.asked sound
      have resumed := follows.resumed fun _ settles => computes.unique settles
      rw [← pastAlike.sameActive] at resumed
      obtain ⟨history, final, runs, finalSound, restAlike⟩ :=
        resumedHypothesis (detached nested) middleSound resumed
      exact ⟨_, final, evaluates.ask_of_evaluate runs, finalSound, pastAlike.trans restAlike⟩

/-- A settled computation ends in no other way. -/
theorem Run.determined {outcome : Outcome α}
    (runs : Run program computation session history (some outcome) final)
    (settles : Settles program computation answer) (detached : computation.Detached program)
    (sound : Sound program larger session)
    (follows : Follows program session.evaluator.active computation) :
    outcome = .ofAnswer answer ∧ Sound program larger final ∧ Alike program session final := by
  obtain ⟨_, otherFinal, otherRuns, otherSound, alike⟩ :=
    settles.runs recovering detached sound follows
  obtain ⟨-, rfl, rfl⟩ := runs.unique rfl otherRuns
  exact ⟨rfl, otherSound, alike⟩

end Settled

/-! ### The mirror image of a run -/

/-- What a run does in a session, it does in every session that is alike: there
it ends in the same way, and if it was answered the two sessions are alike again. -/
def Mirrored (program : Program Request Value World) (larger : Registry)
    (computation : Computation Request Value World α) (left : Session Request Value World)
    (outcome : Outcome α) (leftFinal : Session Request Value World) : Prop :=
  Sound program larger left → Follows program left.evaluator.active computation →
    ∀ right, Sound program larger right → Alike program left right →
      ∃ history rightFinal, Run program computation right history (some outcome) rightFinal ∧
        ∀ answer, outcome = .ofAnswer answer →
          Sound program larger leftFinal ∧ Sound program larger rightFinal ∧
            Alike program leftFinal rightFinal

namespace Mirrored

variable {outcome : Outcome α} {nested : Except Failure (Value request)}
variable {resume : Except Failure (Value request) → Computation Request Value World α}

theorem ended (runs : ∀ right, Run program computation right [] (some outcome) right) :
    Mirrored program larger computation session outcome session :=
  fun leftSound _ right rightSound alike =>
    ⟨[], right, runs right, fun _ _ => ⟨leftSound, rightSound, alike⟩⟩

theorem report {diagnostic : Diagnostic}
    (next : Mirrored program larger computation (left.reported [diagnostic]) outcome final) :
    Mirrored program larger (.report diagnostic computation) left outcome final := by
  intro leftSound follows right rightSound alike
  have stillAlike := (Alike.reported left diagnostic).symm.trans
    (alike.trans (.reported right diagnostic))
  obtain ⟨history, rightFinal, runs, answered⟩ := next (leftSound.reported diagnostic)
    follows.reported _ (rightSound.reported diagnostic) stillAlike
  exact ⟨_, rightFinal, .report runs, answered⟩

theorem update {change : World → World}
    (sameStorage : ∀ world, program.SameStorage world (change world))
    (next : Mirrored program larger computation { left with world := change left.world } outcome
      final) :
    Mirrored program larger (.update change computation) left outcome final := by
  intro leftSound follows right rightSound alike
  have stillAlike := (Alike.updated (sameStorage left.world)).symm.trans
    (alike.trans (.updated (sameStorage right.world)))
  obtain ⟨history, rightFinal, runs, answered⟩ := next (leftSound.updated (sameStorage _))
    follows.updated _ (rightSound.updated (sameStorage _)) stillAlike
  exact ⟨_, rightFinal, .update runs, answered⟩

section Ask

variable (recovering : Recovering program larger)
include recovering

/-- A settled request is answered as it settles on both sides, be it from a
cache or by a computation. -/
theorem ask_settled (settled : Settled program request)
    (evaluates : Run program (Computation.evaluate request) left history
      (some (.ofAnswer nested)) middle)
    (next : Mirrored program larger (resume nested) middle outcome final) :
    Mirrored program larger (.ask request resume) left outcome final := by
  intro leftSound follows right rightSound alike
  obtain ⟨settledAnswer, settles⟩ := settled
  obtain ⟨sameAnswer, middleSound, leftAlike⟩ := evaluates.determined recovering
    (settles_evaluate.mpr settles) (program.detached_evaluate request) leftSound follows.evaluate
  obtain rfl := Outcome.ofAnswer_inj.mp sameAnswer
  have rightFollows := follows.evaluate
  rw [← alike.sameActive] at rightFollows
  obtain ⟨past, rightMiddle, rightEvaluates, rightMiddleSound, rightAlike⟩ :=
    (settles_evaluate.mpr settles).runs recovering (program.detached_evaluate request) rightSound
      rightFollows
  have resumed := follows.resumed fun _ others => settles.unique others
  rw [← leftAlike.sameActive] at resumed
  obtain ⟨rest, rightFinal, runs, answered⟩ := next middleSound resumed rightMiddle
    rightMiddleSound (leftAlike.symm.trans (alike.trans rightAlike))
  exact ⟨_, rightFinal, rightEvaluates.ask_of_evaluate runs, answered⟩

/-- An unsettled request that is answered at once is answered so on both sides. -/
theorem ask_answered (unsettled : ¬ Settled program request)
    {reception : Reception (Value request)}
    (receives : left.receive program request = (reception, middle))
    (answers : reception.answer? = some nested)
    (next : Mirrored program larger (resume nested) middle outcome final) :
    Mirrored program larger (.ask request resume) left outcome final := by
  intro leftSound follows right rightSound alike
  obtain ⟨rightMiddle, rightReceives⟩ :=
    alike.receives recovering leftSound rightSound unsettled receives
  have atOnce := Reception.ne_computing_of_answer answers
  have leftCore := Session.core_of_settled receives atOnce
  have rightCore := Session.core_of_settled rightReceives atOnce
  have stillAlike : Alike program middle rightMiddle :=
    (Alike.of_core_eq leftCore).symm.trans (alike.trans (.of_core_eq rightCore))
  have resumed := follows.resumed_unsettled unsettled nested
  rw [← Session.active_of_settled receives atOnce] at resumed
  obtain ⟨rest, rightFinal, runs, answered⟩ := next (leftSound.settled recovering receives atOnce)
    resumed rightMiddle (rightSound.settled recovering rightReceives atOnce) stillAlike
  exact ⟨_, rightFinal, .answered rightReceives answers runs, answered⟩

/-- The computation of an unsettled request begins on both sides if it does on one. -/
private theorem computes_unsettled {entered : Session Request Value World}
    {inside : Outcome (Value request)} (unsettled : ¬ Settled program request)
    (receives : left.receive program request = (.computing, entered))
    (computes : Mirrored program larger (program.compute request) entered inside computed)
    (leftSound : Sound program larger left)
    (follows : Follows program left.evaluator.active (.ask request resume))
    (rightSound : Sound program larger right) (alike : Alike program left right) :
    ∃ rightEntered inner rightComputed,
      right.receive program request = (.computing, rightEntered) ∧
      Run program (program.compute request) rightEntered inner (some inside) rightComputed ∧
      ∀ answer, inside = .ofAnswer answer → Sound program larger computed ∧
        Sound program larger rightComputed ∧ Alike program computed rightComputed := by
  obtain ⟨rightEntered, rightReceives⟩ :=
    alike.receives recovering leftSound rightSound unsettled receives
  have rightAsked := follows.asked
  rw [← alike.sameActive] at rightAsked
  obtain ⟨inner, rightComputed, runs, answered⟩ :=
    computes (leftSound.began recovering receives follows.asked) (.entered receives) rightEntered
      (rightSound.began recovering rightReceives rightAsked) (alike.entered receives rightReceives)
  exact ⟨rightEntered, inner, rightComputed, rightReceives, runs, answered⟩

theorem ask_returned {entered leaves : Session Request Value World}
    (unsettled : ¬ Settled program request)
    (receives : left.receive program request = (.computing, entered))
    (computes : Mirrored program larger (program.compute request) entered (.ofAnswer nested)
      computed)
    (onTop : computed.evaluator.active = left.evaluator.active ++ [request])
    (concludes : computed.concluded program request (.ofAnswer nested) =
      (.ofAnswer nested, leaves))
    (next : Mirrored program larger (resume nested) leaves outcome final) :
    Mirrored program larger (.ask request resume) left outcome final := by
  intro leftSound follows right rightSound alike
  obtain ⟨rightEntered, inner, rightComputed, rightReceives, runs, answered⟩ :=
    computes_unsettled recovering unsettled receives computes leftSound follows rightSound alike
  obtain ⟨computedSound, rightComputedSound, computedAlike⟩ := answered nested rfl
  have isActive : request ∈ computed.evaluator.active := by simp [onTop]
  obtain ⟨rightLeaves, rightConcludes⟩ := exists_finished recovering.identities rightComputed nested
  have never : ∀ answer, Settles program (program.compute request) answer → nested = answer :=
    fun answer settles => absurd ⟨answer, settles⟩ unsettled
  obtain ⟨leavesSound, leavesActive⟩ :=
    computedSound.finished recovering onTop concludes never
  have rightOnTop := onTop
  rw [← computedAlike.sameActive] at rightOnTop
  obtain ⟨rightLeavesSound, _⟩ :=
    rightComputedSound.finished recovering rightOnTop rightConcludes never
  have leavesAlike := computedAlike.finished computedSound rightComputedSound recovering.keeps
    isActive concludes rightConcludes
  have resumed := follows.resumed_unsettled unsettled nested
  rw [← leavesActive] at resumed
  obtain ⟨rest, rightFinal, restRuns, restAnswered⟩ :=
    next leavesSound resumed rightLeaves rightLeavesSound leavesAlike
  exact ⟨_, rightFinal, .returned rightReceives runs rightConcludes restRuns, restAnswered⟩

theorem ask_abandoned {entered : Session Request Value World} {message : String}
    (unsettled : ¬ Settled program request)
    (receives : left.receive program request = (.computing, entered))
    (computes : Mirrored program larger (program.compute request) entered (.aborted message)
      computed) :
    Mirrored program larger (.ask request resume : Computation Request Value World α) left
      (.aborted message) final := by
  intro leftSound follows right rightSound alike
  obtain ⟨rightEntered, inner, rightComputed, rightReceives, runs, _⟩ :=
    computes_unsettled recovering unsettled receives computes leftSound follows rightSound alike
  refine ⟨_, _, .abandoned rightReceives runs, fun answer same => ?_⟩
  exact absurd same.symm (Outcome.ofAnswer_ne_aborted answer message)

end Ask

end Mirrored

section Recovering

variable (recovering : Recovering program larger)
include recovering

/-- Every run that has ended is mirrored. -/
theorem Run.mirrored {ended : Option (Outcome α)} {outcome : Outcome α}
    (runs : Run program computation session history ended final) (ends : ended = some outcome)
    (detached : computation.Detached program) :
    Mirrored program larger computation session outcome final := by
  induction runs with
  | underWay => cases ends
  | unnoticed _ _ => cases ends
  | within _ _ _ => cases ends
  | activeRequests _ _ => exact detached.elim
  | isActive _ _ => exact detached.elim
  | isCached _ _ _ => exact detached.elim
  | isCachedRefused _ => exact detached.elim
  | read _ _ => exact detached.elim
  | done =>
      cases ends
      exact .ended fun _ => .done
  | fail =>
      cases ends
      exact .ended fun _ => .fail
  | abort =>
      cases ends
      exact .ended fun _ => .abort
  | report _ later => exact .report (later ends detached)
  | update _ later => exact .update detached.1 (later ends detached.2)
  | @answered _ request _ _ _ _ _ _ _ _ receives answers _ later =>
      have next := later ends (detached _)
      -- A settled request may be held on one side only, any other is taken up alike on both.
      by_cases settled : Settled program request
      · exact .ask_settled recovering settled (.evaluate_of_answer receives answers) next
      · exact .ask_answered recovering settled receives answers next
  | @returned _ request _ _ _ _ _ _ _ _ _ _ receives computes concludes _ inside later =>
      have next := later ends (detached _)
      by_cases settled : Settled program request
      · have evaluates := Run.evaluate_of_computed receives computes concludes
        exact .ask_settled recovering settled evaluates next
      · exact .ask_returned recovering settled receives (inside rfl (recovering.detached request))
          (active_of_computed receives computes) concludes next
  | refused receives refuses =>
      intro leftSound
      exact absurd refuses (leftSound.admits recovering receives _)
  | @unkept _ _ _ _ _ computed _ answer _ _ _ _ concludes _ =>
      obtain ⟨left, leaves⟩ := exists_finished recovering.identities computed answer
      have same := congrArg Prod.fst (leaves.symm.trans concludes)
      exact absurd same (Outcome.ofAnswer_ne_aborted _ _)
  | @abandoned _ request _ _ entered _ _ _ receives computes inside =>
      cases ends
      by_cases settled : Settled program request
      · intro leftSound follows
        obtain ⟨settledAnswer, settles⟩ := settled
        have same := (computes.determined recovering settles (recovering.detached request)
          (leftSound.began recovering receives follows.asked) (.entered receives)).1
        exact absurd same.symm (Outcome.ofAnswer_ne_aborted _ _)
      · exact .ask_abandoned recovering settled receives (inside rfl (recovering.detached request))

/-- What was sound before an answer is sound after it. -/
theorem Run.sound (runs : Run program computation session history (some (.ofAnswer answer)) final)
    (detached : computation.Detached program) (sound : Sound program larger session)
    (follows : Follows program session.evaluator.active computation) :
    Sound program larger final := by
  obtain ⟨_, _, _, answered⟩ :=
    runs.mirrored recovering rfl detached sound follows session sound (.refl session)
  exact (answered answer rfl).1

end Recovering

end Program

end RequestEngine
