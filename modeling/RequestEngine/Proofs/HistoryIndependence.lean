import RequestEngine.Proofs.CycleFree
import RequestEngine.Workbench

/-!
Contract: answers that do not depend on what was evaluated before.

Owns:
- unused evaluators, and evaluations that are answered without meeting a cycle;
- the same program under other policies;
- that after such evaluations everything ends as on an unused evaluator, even
  if it then meets cycles and recovers from them;
- that such evaluations have the same answer under all policies;
- scripts that show that nothing of this holds after a cycle.

A computation that recovers from a cycle goes on with a default because of where
it stands on the stack. Its value is kept like any other, and is given to
requests that would have met no cycle, or another one.

Does not own: cycle errors that are passed on; these are never kept.
-/

namespace RequestEngine

variable {Request : Type} [DecidableEq Request] {Value : Request → Type} {World : Type} {α : Type}

namespace Program

variable {program : Program Request Value World} {larger : Registry}
variable {first session after fresh left right : Session Request Value World}
variable {computation : Computation Request Value World α} {request : Request}

/-! ### Unused evaluators -/

/-- Nothing was evaluated yet, and nothing is stored. -/
structure Unused (program : Program Request Value World) (larger : Registry)
    (session : Session Request Value World) : Prop where
  isFresh : ∃ options observed, session.evaluator = .fresh options observed
  nothingStored : ∀ request, program.storedOutside session.world request = none
  below : session.registry.Below larger

namespace Unused

omit [DecidableEq Request] in
theorem idle (unused : Unused program larger session) : session.evaluator.active = [] := by
  obtain ⟨options, observed, isFresh⟩ := unused.isFresh
  rw [isFresh]
  rfl

theorem memoized (unused : Unused program larger session) : Memoized program [] session.core := by
  obtain ⟨options, observed, isFresh⟩ := unused.isFresh
  have emptyCore : session.core = ⟨[], [], session.world⟩ := by
    unfold Session.core
    rw [isFresh]
    rfl
  rw [emptyCore]
  exact .created

theorem vacant (unused : Unused program larger session) (request : Request) :
    session.core.held? program request = none := by
  obtain ⟨options, observed, isFresh⟩ := unused.isFresh
  have emptyCache : session.core.cache = [] := congrArg Evaluator.cache isFresh
  have stored := unused.nothingStored request
  unfold storedOutside at stored
  unfold Core.held?
  split
  case h_1 => rfl
  case h_2 =>
    rw [emptyCache]
    rfl
  case h_3 policy =>
    rw [if_pos policy] at stored
    exact stored

theorem grounded (unused : Unused program larger session) : Grounded program session := by
  intro request value holds
  rw [unused.vacant request] at holds
  cases holds

theorem sound (unused : Unused program larger session) : Sound program larger session where
  memoized := ⟨[], unused.memoized⟩
  below := unused.below
  chain := by
    rw [unused.idle]
    exact .nil
  sincere := fun request value holds _ => unused.grounded request value holds

end Unused

/-- Caches of settled values agree on everything else. -/
theorem Grounded.alike (leftGrounded : Grounded program left)
    (rightGrounded : Grounded program right)
    (sameActive : right.evaluator.active = left.evaluator.active) : Alike program left right where
  sameActive := sameActive
  unsettled := by
    have vacant : ∀ {session}, Grounded program session → ∀ request, ¬ Settled program request →
        session.core.held? program request = none := by
      intro session grounded request unsettled
      cases holds : session.core.held? program request with
      | none => rfl
      | some value => exact absurd ⟨_, grounded request value holds⟩ unsettled
    intro request unsettled
    rw [vacant leftGrounded request unsettled, vacant rightGrounded request unsettled]

/-! ### Evaluations without cycles -/

/-- The sessions after evaluations one after the other, all of which were
answered without meeting a cycle. -/
def AcyclicCalls (program : Program Request Value World)
    (first session : Session Request Value World) : Prop :=
  ∃ answers, Course
    (program.answering first fun before after =>
      after.evaluator.metrics.cyclesDetected = before.evaluator.metrics.cyclesDetected)
    answers session

/-- How an evaluation ends when it may nest deeply enough. -/
def EndsIn (program : Program Request Value World) (session : Session Request Value World)
    (request : Request) (outcome : Outcome (Value request)) : Prop :=
  outcome ≠ .tooDeep ∧ ∃ depth after, program.evaluate depth request session = (outcome, after)

theorem EndsIn.exists_run {outcome : Outcome (Value request)}
    (ends : EndsIn program session request outcome) :
    ∃ history after,
      Run program (Computation.evaluate request) session history (some outcome) after := by
  obtain ⟨decided, depth, after, evaluates⟩ := ends
  obtain ⟨history, runs⟩ :=
    exists_run_of_run ((run_evaluate program depth request session).trans evaluates) decided
  exact ⟨history, after, runs⟩

theorem Run.endsIn {history : List (Event Request Value World)} {outcome : Outcome (Value request)}
    (runs : Run program (Computation.evaluate request) session history (some outcome) after)
    (decided : outcome ≠ .tooDeep) : EndsIn program session request outcome := by
  obtain ⟨depth, decides⟩ := runs.decided rfl
  refine ⟨decided, depth, after, ?_⟩
  rw [← run_evaluate]
  exact decides depth le_rfl

omit [DecidableEq Request] in
theorem follows_of_idle {idle : List Request} (isIdle : idle = []) :
    Follows program idle computation := by
  intro owner isLast
  rw [isIdle] at isLast
  cases isLast

section Acyclic

variable (recovering : Recovering program larger)
variable (allHandOn : ∀ request, (program.compute request).HandsOn fun _ => False)
include recovering allHandOn

/-- An evaluation that is answered without meeting a cycle settles on its answer. -/
private theorem settles_of_acyclic {depth : Nat} {answer : Except Failure (Value request)}
    (idle : session.evaluator.active = []) (sound : Sound program larger session)
    (grounded : Grounded program session)
    (evaluates : program.evaluate depth request session = (.ofAnswer answer, after))
    (noCycle : after.evaluator.metrics.cyclesDetected =
      session.evaluator.metrics.cyclesDetected) :
    Settles program (program.compute request) answer ∧ after.evaluator.active = [] ∧
      Sound program larger after ∧ Grounded program after := by
  have runs := (run_evaluate program depth request session).trans evaluates
  obtain ⟨history, reaches⟩ := exists_run_of_run runs (by simp)
  have detached := program.detached_evaluate request
  obtain ⟨settles, afterGrounded⟩ := reaches.settles_of_noCycle recovering rfl
    (reaches.steps.noCycle noCycle) allHandOn (Computation.handsOn_evaluate request)
    (fun _ => id) detached sound (follows_of_idle idle) grounded
  have afterSound := reaches.sound recovering detached sound (follows_of_idle idle)
  exact ⟨settles_evaluate.mp settles, (active_of_answer runs).trans idle, afterSound, afterGrounded⟩

theorem AcyclicCalls.grounded (calls : AcyclicCalls program first session)
    (unused : Unused program larger first) :
    session.evaluator.active = [] ∧ Sound program larger session ∧ Grounded program session := by
  obtain ⟨answers, course⟩ := calls
  induction course with
  | begun begins =>
      obtain rfl := begins
      exact ⟨unused.idle, unused.sound, unused.grounded⟩
  | elsewhere _ changes => cases changes
  | called _ calls inductionHypothesis =>
      obtain ⟨_, _, _, _, rfl, evaluates, noCycle⟩ := calls
      obtain ⟨idle, sound, grounded⟩ := inductionHypothesis
      exact (settles_of_acyclic recovering allHandOn idle sound grounded evaluates noCycle).2

end Acyclic

/-- Grounded sessions between evaluations end every evaluation in the same way. -/
private theorem EndsIn.elsewhere {outcome : Outcome (Value request)}
    (ends : EndsIn program left request outcome) (recovering : Recovering program larger)
    (leftIdle : left.evaluator.active = []) (rightIdle : right.evaluator.active = [])
    (leftSound : Sound program larger left) (rightSound : Sound program larger right)
    (leftGrounded : Grounded program left) (rightGrounded : Grounded program right) :
    EndsIn program right request outcome := by
  obtain ⟨history, after, runs⟩ := ends.exists_run
  have alike := leftGrounded.alike rightGrounded (rightIdle.trans leftIdle.symm)
  obtain ⟨rightHistory, rightAfter, rightRuns, _⟩ :=
    runs.mirrored recovering rfl (program.detached_evaluate request) leftSound
      (follows_of_idle leftIdle) right rightSound alike
  exact rightRuns.endsIn ends.1

/-! ### Other policies -/

/-- The program with other policies for its kinds. -/
def recached (program : Program Request Value World) (policy : Identity → CachePolicy) :
    Program Request Value World :=
  { program with
    kind := fun request =>
      { program.kind request with caching := policy (program.kind request).identity } }

section Recached

variable {policy : Identity → CachePolicy}

omit [DecidableEq Request] in
theorem Settles.recached {answer : Except Failure α}
    (settles : Settles program computation answer) :
    Settles (program.recached policy) computation answer := by
  induction settles with
  | done => exact .done
  | fail => exact .fail
  | ask _ _ computes resumes => exact .ask computes resumes
  | report _ resumes => exact .report resumes
  | update _ resumes => exact .update resumes

variable (noNewStorage : ∀ request,
  policy (program.kind request).identity = .separatelyCached →
    (program.kind request).caching = .separatelyCached)
include noNewStorage

omit [DecidableEq Request] in
theorem storedOutside_recached {before later : World} (request : Request)
    (same : program.storedOutside later request = program.storedOutside before request) :
    (program.recached policy).storedOutside later request =
      (program.recached policy).storedOutside before request := by
  unfold storedOutside at same ⊢
  split
  case isTrue separately =>
    have wasSeparate := noNewStorage request separately
    rw [if_pos wasSeparate, if_pos wasSeparate] at same
    exact same
  case isFalse => rfl

omit [DecidableEq Request] in
theorem detached_recached (detached : computation.Detached program) :
    computation.Detached (program.recached policy) := by
  induction computation with
  | done value => exact trivial
  | fail failure => exact trivial
  | abort message => exact trivial
  | ask request resume inductionHypothesis =>
      exact fun answer => inductionHypothesis answer (detached answer)
  | activeRequests resume _ => exact detached.elim
  | isActive request resume _ => exact detached.elim
  | isCached request resume _ => exact detached.elim
  | read resume _ => exact detached.elim
  | report diagnostic next inductionHypothesis => exact inductionHypothesis detached
  | update change next inductionHypothesis =>
      have sameStorage : ∀ world,
          (program.recached policy).SameStorage world (change world) :=
        fun world request => storedOutside_recached noNewStorage request (detached.1 world request)
      exact ⟨sameStorage, inductionHypothesis detached.2⟩

omit [DecidableEq Request] in
/-- A program may recover under one policy if it may under another. -/
theorem Recovering.recached (recovering : Recovering program larger) :
    Recovering (program.recached policy) larger where
  detached := fun request => detached_recached noNewStorage (recovering.detached request)
  identities := fun left right sameIdentity =>
    congrArg (fun kind : RequestKind => { kind with caching := policy kind.identity })
      (recovering.identities left right sameIdentity)
  keeps := {
    kept := fun value separately vacant =>
      recovering.keeps.kept value (noNewStorage _ separately) vacant
    untouched := fun value separately differs =>
      storedOutside_recached noNewStorage _
        (recovering.keeps.untouched value (noNewStorage _ separately) differs) }
  zones := recovering.zones

end Recached

/-! ### The comparison -/

/-- What evaluations do whatever was evaluated before. -/
structure HistoryIndependent (program : Program Request Value World) (larger : Registry)
    (session : Session Request Value World) : Prop where
  /-- Every evaluation ends as on an unused evaluator, also one that meets cycles. -/
  sameEnds : ∀ {fresh request outcome}, Unused program larger fresh →
    (EndsIn program session request outcome ↔ EndsIn program fresh request outcome)
  /-- An evaluation that is answered without meeting a cycle is answered in the
  same way under other policies, on an evaluator that has met no cycle either. -/
  samePolicies : ∀ {depth request answer after policy fresh other},
    program.evaluate depth request session = (.ofAnswer answer, after) →
    after.evaluator.metrics.cyclesDetected = session.evaluator.metrics.cyclesDetected →
    (∀ request, policy (program.kind request).identity = .separatelyCached →
      (program.kind request).caching = .separatelyCached) →
    Unused (program.recached policy) larger fresh →
    AcyclicCalls (program.recached policy) fresh other →
    EndsIn (program.recached policy) other request (.ofAnswer answer)

/-- As long as evaluations meet no cycle, later ones do not depend on them, even
if computations recover from cycles. Zones must not conflict, and kinds must
not share identities. -/
theorem AcyclicCalls.historyIndependent (calls : AcyclicCalls program first session)
    (recovering : Recovering program larger)
    (allHandOn : ∀ request, (program.compute request).HandsOn fun _ => False)
    (unused : Unused program larger first) : HistoryIndependent program larger session where
  sameEnds := by
    intro fresh request outcome freshUnused
    obtain ⟨idle, sound, grounded⟩ := calls.grounded recovering allHandOn unused
    constructor
    · intro ends
      exact ends.elsewhere recovering idle freshUnused.idle sound freshUnused.sound grounded
        freshUnused.grounded
    · intro ends
      exact ends.elsewhere recovering freshUnused.idle idle freshUnused.sound sound
        freshUnused.grounded grounded
  samePolicies := by
    intro depth request answer after policy fresh other evaluates noCycle noNewStorage freshUnused
      otherCalls
    obtain ⟨idle, sound, grounded⟩ := calls.grounded recovering allHandOn unused
    have settles :=
      (settles_of_acyclic recovering allHandOn idle sound grounded evaluates noCycle).1
    have otherRecovering := recovering.recached noNewStorage
    obtain ⟨otherIdle, otherSound, _⟩ :=
      otherCalls.grounded otherRecovering allHandOn freshUnused
    obtain ⟨_, _, runs, _⟩ := (settles_evaluate.mpr settles.recached).runs otherRecovering
      (detached_evaluate _ request) otherSound (follows_of_idle otherIdle)
    exact runs.endsIn (Outcome.ofAnswer_ne_tooDeep answer)

end Program

/-! ### Requests that recover -/

namespace RecoverySamples

/-- Two requests that ask for each other and put up with a failure, and one that
asks for nothing. -/
inductive Sample where
  | outer | inner | base
deriving DecidableEq

def zone : ZoneDefinition where
  declaration := 9
  id := 220
  name := "Recovery"
  entries := ["Outer", "Inner", "Base"].map (⟨.type, ·⟩)

def kind : Sample → RequestKind
  | .outer => ⟨"Outer", zone, 0, .cached⟩
  | .inner => ⟨"Inner", zone, 1, .cached⟩
  | .base => ⟨"Base", zone, 2, .cached⟩

def vocabulary : Vocabulary Sample where
  kind := kind
  arguments _ := []

/-- The value of the base and that of another request, or a default. -/
def combine (other : Sample) (default : Nat) : Computation Sample (fun _ => Nat) Unit Nat :=
  (Computation.evaluate .base).bind fun base =>
    (Computation.evaluateOrDefault vocabulary.display other default).bind fun value =>
      .done (base + value)

def program : Program Sample (fun _ => Nat) Unit where
  toVocabulary := vocabulary
  cycleDiagnostics _ := []
  stepDiagnostics _ := []
  stored _ _ := none
  store world _ _ := world
  compute
    | .outer => combine .inner 10
    | .inner => combine .outer 100
    | .base => .done 3

def registry : Registry := Registry.initial.afterRegister zone

theorem detached_compute (request : Sample) : (program.compute request).Detached program := by
  have combined : ∀ other default, (combine other default).Detached program := by
    intro other default
    refine (program.detached_evaluate .base).bind fun base => ?_
    exact (program.detached_evaluateOrDefault _ other default).bind fun value => trivial
  cases request with
  | outer => exact combined .inner 10
  | inner => exact combined .outer 100
  | base => exact trivial

theorem handsOn_compute (request : Sample) : (program.compute request).HandsOn fun _ => False := by
  have combined : ∀ other default, (combine other default).HandsOn fun _ => False := by
    intro other default
    refine .bind (Computation.handsOn_evaluate Sample.base) fun base => ?_
    refine .bind ?_ fun value => trivial
    exact Computation.handsOn_evaluateOrDefault _ other _
  cases request with
  | outer => exact combined .inner 10
  | inner => exact combined .outer 100
  | base => exact trivial

theorem recovering : program.Recovering registry where
  detached := detached_compute
  identities := by
    intro first second sameIdentity
    cases first <;> cases second <;> first | rfl | exact absurd sameIdentity (by decide)
  keeps := {
    kept := by
      intro world request value policy
      cases request <;> cases policy
    untouched := fun value policy differs => rfl }
  zones := by
    intro request
    cases request <;> rfl

end RecoverySamples

namespace Program

/-- After the base was kept, both requests have the values that they have at
first, whatever they put up with. -/
theorem historyIndependent_samples :
    ∃ (first session : Session RecoverySamples.Sample (fun _ => Nat) Unit),
      Unused RecoverySamples.program RecoverySamples.registry first ∧
      AcyclicCalls RecoverySamples.program first session ∧
      session.evaluator.cache.length = 1 ∧
      EndsIn RecoverySamples.program first .inner (.success 16) ∧
      HistoryIndependent RecoverySamples.program RecoverySamples.registry session := by
  let first : Session RecoverySamples.Sample (fun _ => Nat) Unit :=
    { evaluator := .fresh {} false, registry := RecoverySamples.registry, world := () }
  have unused : Unused RecoverySamples.program RecoverySamples.registry first :=
    ⟨⟨_, _, rfl⟩, fun request => by cases request <;> rfl, .refl _⟩
  let session := (RecoverySamples.program.evaluate 1 .base first).2
  have evaluates : RecoverySamples.program.evaluate 1 .base first = (.ofAnswer (.ok 3), session) :=
    rfl
  have calls : AcyclicCalls RecoverySamples.program first session :=
    ⟨_, answered (.begun rfl) evaluates rfl⟩
  exact ⟨first, session, unused, calls, rfl, ⟨by simp, 3, _, rfl⟩,
    calls.historyIndependent RecoverySamples.recovering RecoverySamples.handsOn_compute unused⟩

end Program

/-! ### Scripts that recover -/

namespace Script

/-- The instruction looks at nothing but the values and the failures of requests. -/
def evaluatesOnly : Instruction → Bool
  | .failAtFirst _ _ | .traceActive | .traceIsActive _ | .traceIsCached _ => false
  | .add _ | .addParameter | .call _ | .attempt _ _ | .orDefault _ _ | .withContext _ _
  | .failWith _ | .diagnose _ _ | .descend _ | .rotate _ _ => true

variable {scenario : Scenario} {frame : Frame}

theorem detached_callNumber (request : WorkbenchRequest) :
    (callNumber request).Detached scenario.program :=
  (scenario.program.detached_evaluate request).bind fun _ => trivial

theorem detached_step {instruction : Instruction} (evaluates : evaluatesOnly instruction) :
    (step frame instruction).Detached scenario.program := by
  cases instruction with
  | add _ => exact trivial
  | addParameter => exact trivial
  | failWith _ => exact trivial
  | diagnose _ _ => exact trivial
  | call request => exact detached_callNumber request
  | attempt request otherwise =>
      intro answer
      cases answer <;> exact trivial
  | withContext request message =>
      intro answer
      cases answer <;> exact trivial
  | orDefault request default =>
      exact (scenario.program.detached_evaluateOrDefault _ request default).bind fun _ => trivial
  | descend stepSize =>
      simp only [step]
      split
      · exact detached_callNumber _
      · exact trivial
  | rotate stepSize modulus =>
      simp only [step]
      split
      · exact trivial
      · exact detached_callNumber _
  | failAtFirst _ _ => cases evaluates
  | traceActive => cases evaluates
  | traceIsActive _ => cases evaluates
  | traceIsCached _ => cases evaluates

theorem detached_steps {instructions : List Instruction} (evaluate : instructions.all evaluatesOnly)
    (sum : Int64) : (steps frame sum instructions).Detached scenario.program := by
  induction instructions generalizing sum with
  | nil => exact trivial
  | cons instruction rest inductionHypothesis =>
      obtain ⟨first, further⟩ := Bool.and_eq_true_iff.mp evaluate
      exact (detached_step first).bind fun value => inductionHypothesis further (sum + value)

/-- Counting its runs is all that such a script does to the state. -/
theorem detached_compute {instructions : List Instruction}
    (isScript : scenario.script? frame.name = some instructions)
    (evaluate : instructions.all evaluatesOnly) :
    (compute scenario.script? frame).Detached scenario.program := by
  refine ⟨fun state request => ?_, ?_⟩
  · cases request <;> rfl
  · rw [isScript]
    exact detached_steps evaluate 0

end Script

namespace Program

/-- Two scripts that ask for each other and put up with a failure. -/
def mutualDefaults : Scenario where
  scripts :=
    [⟨"A", [.add 1, .orDefault (.task "B") 10]⟩, ⟨"B", [.add 1, .orDefault (.task "A") 100]⟩]

/-- After an evaluation that met a cycle, a cached value depends on where the
cycle was entered. Both scripts do nothing but evaluate, and without caches the
values are the same again. -/
theorem answers_depend_on_history :
    let program := mutualDefaults.program
    let created : Session WorkbenchRequest WorkbenchValue WorkbenchState :=
      { evaluator := .fresh {} false, world := {} }
    (program.compute (.task "A")).Detached program ∧
    (program.compute (.task "B")).Detached program ∧
    (program.evaluate 3 (.task "B") created).1 = .success 12 ∧
    (program.evaluate 3 (.task "B") (program.evaluate 3 (.task "A") created).2).1 =
      .success 101 ∧
    (program.uncached.evaluate 3 (.task "B")
      (program.uncached.evaluate 3 (.task "A") created).2).1 = .success 12 :=
  ⟨Script.detached_compute rfl rfl, Script.detached_compute rfl rfl, rfl, rfl, rfl⟩

end Program

end RequestEngine
