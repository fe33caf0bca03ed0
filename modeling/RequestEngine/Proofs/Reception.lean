import RequestEngine.Evaluation

/-!
Contract: how an evaluator takes a request up, and how it finishes one.

Owns:
- the core of a session: the stack, the result cache and the state of the
  program, which together with the zones decide every outcome;
- which operations of an evaluator change the core;
- taking a request up as one step, and what can be read off from its result;
- finishing a computation as one step.

Does not own: whole evaluations; `Proofs.Run` strings these steps together.
-/

namespace RequestEngine

/-- What a session remembers that later evaluations depend on, apart from the
zones. -/
structure Core (Request : Type) (Value : Request → Type) (World : Type) where
  active : List Request
  cache : ResultCache Request Value
  world : World

/-- How an evaluator takes a request up. -/
inductive Reception (α : Type) where
  /-- The zone of the request is claimed by another definition. -/
  | conflicting (conflict : ZoneConflict)
  /-- The identity of the request belongs to another kind. -/
  | refused (clash : IdentityClash)
  /-- A cache holds the value. -/
  | held (value : α)
  /-- The request is being computed already; the diagnostics tell about the cycle. -/
  | rejected (error : CycleError) (diagnostics : List Diagnostic)
  /-- The computation of the request begins. -/
  | computing

namespace Reception

variable {α : Type}

/-- The answer that is known at once. -/
def answer? : Reception α → Option (Except Failure α)
  | .held value => some (.ok value)
  | .rejected error _ => some (.error (.cycle error))
  | .conflicting _ | .refused _ | .computing => none

/-- The message with which everything ends at once. -/
def refusal? : Reception α → Option String
  | .conflicting conflict => some conflict.message
  | .refused clash => some clash.message
  | .held _ | .rejected _ _ | .computing => none

theorem ne_computing_of_answer {reception : Reception α} {answer : Except Failure α}
    (answers : reception.answer? = some answer) : reception ≠ .computing := by
  rintro rfl
  cases answers

theorem ne_conflicting_of_answer {reception : Reception α} {answer : Except Failure α}
    (answers : reception.answer? = some answer) (conflict : ZoneConflict) :
    reception ≠ .conflicting conflict := by
  rintro rfl
  cases answers

theorem ne_computing_of_refusal {reception : Reception α} {message : String}
    (refuses : reception.refusal? = some message) : reception ≠ .computing := by
  rintro rfl
  cases refuses

end Reception

/-- The outcome of an evaluation that was answered. -/
def Outcome.ofAnswer {α : Type} : Except Failure α → Outcome α
  | .ok value => .success value
  | .error failure => .failed failure

@[simp]
theorem Outcome.ofAnswer_inj {α : Type} {left right : Except Failure α} :
    Outcome.ofAnswer left = Outcome.ofAnswer right ↔ left = right := by
  cases left <;> cases right <;> simp [Outcome.ofAnswer]

@[simp]
theorem Outcome.ofAnswer_ne_aborted {α : Type} (answer : Except Failure α) (message : String) :
    Outcome.ofAnswer answer ≠ .aborted message := by
  cases answer <;> simp [Outcome.ofAnswer]

theorem Outcome.aborted_not_answered {α : Type} {answer : Except Failure α} {message : String} :
    some (Outcome.aborted message) ≠ some (.ofAnswer answer) := by
  intro same
  exact absurd (Option.some.inj same).symm (Outcome.ofAnswer_ne_aborted answer message)

@[simp]
theorem Outcome.ofAnswer_ne_tooDeep {α : Type} (answer : Except Failure α) :
    Outcome.ofAnswer answer ≠ .tooDeep := by
  cases answer <;> simp [Outcome.ofAnswer]

theorem Outcome.answered_or_aborted_or_tooDeep {α : Type} (outcome : Outcome α) :
    (∃ answer, outcome = .ofAnswer answer) ∨ (∃ message, outcome = .aborted message) ∨
      outcome = .tooDeep := by
  cases outcome with
  | success value => exact .inl ⟨.ok value, rfl⟩
  | failed failure => exact .inl ⟨.error failure, rfl⟩
  | aborted message => exact .inr (.inl ⟨message, rfl⟩)
  | tooDeep => exact .inr (.inr rfl)

/-- Without a clash, inserting keeps the first value of a request. -/
theorem ResultCache.insert_of_noClash {Request : Type} {Value : Request → Type}
    [DecidableEq Request] {kind : Request → RequestKind} {cache : ResultCache Request Value}
    {request : Request} (noClash : cache.clash? kind request = none) (value : Value request) :
    cache.insert kind request value =
      .ok ((find? request cache).isNone,
        if (find? request cache).isSome then cache else cache ++ [⟨request, value⟩]) := by
  unfold insert
  rw [noClash]
  cases find? request cache <;> rfl

/-- The value that a separately cached request has outside the evaluator. -/
def Program.storedOutside {Request : Type} {Value : Request → Type} {World : Type}
    (program : Program Request Value World) (world : World) (request : Request) :
    Option (Value request) :=
  if (program.kind request).caching = .separatelyCached then program.stored world request
  else none

/-- Two kinds that share an identity are one kind. -/
def Vocabulary.DistinctIdentities {Request : Type} (vocabulary : Vocabulary Request) : Prop :=
  ∀ left right, (vocabulary.kind left).identity = (vocabulary.kind right).identity →
    vocabulary.kind left = vocabulary.kind right

namespace Core

variable {Request : Type} {Value : Request → Type} {World : Type}

/-- The value that the caches hold for a request, if clashes do not matter. -/
def held? [DecidableEq Request] (program : Program Request Value World)
    (core : Core Request Value World) (request : Request) : Option (Value request) :=
  match (program.kind request).caching with
  | .uncached => none
  | .cached => ResultCache.find? request core.cache
  | .separatelyCached => program.stored core.world request

/-- The clash that an access to the result cache for a request meets. -/
def clash? (program : Program Request Value World) (core : Core Request Value World)
    (request : Request) : Option IdentityClash :=
  match (program.kind request).caching with
  | .cached => core.cache.clash? program.kind request
  | .uncached | .separatelyCached => none

theorem clash?_of_distinctIdentities {program : Program Request Value World}
    (distinct : program.DistinctIdentities) (core : Core Request Value World) (request : Request) :
    core.clash? program request = none := by
  unfold clash?
  split
  case h_2 => rfl
  case h_3 => rfl
  case h_1 =>
    unfold ResultCache.clash? ResultCache.owner?
    cases owned : List.find?
        (fun entry => (program.kind entry.request).identity = (program.kind request).identity)
        core.cache with
    | none => rfl
    | some entry =>
        have sameIdentity := List.find?_some owned
        have sameKind := distinct _ _ (of_decide_eq_true sameIdentity)
        simp only [Option.map_some, sameKind, ↓reduceIte]

def entered (request : Request) (core : Core Request Value World) : Core Request Value World :=
  { core with active := core.active ++ [request] }

def popped (core : Core Request Value World) : Core Request Value World :=
  { core with active := core.active.dropLast }

/-- The core with a value kept where the policy says. The result cache keeps the
first value of a request. -/
def kept [DecidableEq Request] (program : Program Request Value World) (request : Request)
    (value : Value request) (core : Core Request Value World) : Core Request Value World :=
  match (program.kind request).caching with
  | .uncached => core
  | .cached =>
      if (ResultCache.find? request core.cache).isSome then core
      else { core with cache := core.cache ++ [⟨request, value⟩] }
  | .separatelyCached => { core with world := program.store core.world request value }

@[simp]
theorem active_kept [DecidableEq Request] (program : Program Request Value World)
    (request : Request) (value : Value request) (core : Core Request Value World) :
    (core.kept program request value).active = core.active := by
  unfold kept
  split
  · rfl
  · split <;> rfl
  · rfl

end Core

namespace Session

variable {Request : Type} {Value : Request → Type} {World : Type}
variable {program : Program Request Value World} {session after : Session Request Value World}
variable {request : Request}

def core (session : Session Request Value World) : Core Request Value World :=
  ⟨session.evaluator.active, session.evaluator.cache, session.world⟩

/-! ### Operations that leave the core alone -/

@[simp]
theorem core_logged (level : LogLevel) (target message : String) (fields : List LogField) :
    (session.logged level target message fields).core = session.core := rfl

@[simp]
theorem core_reported (diagnostics : List Diagnostic) :
    (session.reported diagnostics).core = session.core := rfl

@[simp]
theorem core_counted (change : Metrics → Metrics) :
    (session.counted change).core = session.core := rfl

@[simp]
theorem core_notifyStarted (kind inputs : String) :
    (session.notifyStarted kind inputs).core = session.core := by
  unfold notifyStarted
  split <;> rfl

@[simp]
theorem core_notifyFinished (kind : String) :
    (session.notifyFinished kind).core = session.core := by
  unfold notifyFinished
  split <;> rfl

@[simp]
theorem core_recorded [DecidableEq Request] :
    (session.recorded request).core = session.core := rfl

@[simp]
theorem core_registerZone (zone : ZoneDefinition) :
    (session.registerZone zone).2.core = session.core := by
  unfold registerZone
  split <;> rfl

@[simp]
theorem core_meetZone (zone : ZoneDefinition) :
    (session.meetZone zone).2.core = session.core := by
  unfold meetZone
  split
  · rfl
  · exact core_registerZone zone

@[simp]
theorem core_countHit :
    (session.countHit program request).core = session.core := by
  unfold countHit
  split <;> rfl

@[simp]
theorem core_rejected [DecidableEq Request] :
    (session.rejected program request).core = session.core := by
  unfold rejected
  split <;> rfl

@[simp]
theorem core_failedComputation (failure : Failure) :
    (session.failedComputation program request failure).core = session.core := rfl

/-! ### Operations on the stack -/

@[simp]
theorem core_entered :
    (session.entered program request).core = session.core.entered request := by
  unfold entered
  rw [core_notifyStarted]
  rfl

@[simp]
theorem core_popped :
    (session.popped program request).core = session.core.popped := rfl

/-! ### Taking a request up -/

/-- Takes a request up: registers its zone, records it, looks it up, and looks
for a cycle. When none of this settles the request, its computation is entered. -/
def receive [DecidableEq Request] (program : Program Request Value World) (request : Request)
    (session : Session Request Value World) :
    Reception (Value request) × Session Request Value World :=
  match session.meetZone (program.kind request).zone with
  | (some conflict, met) => (.conflicting conflict, met)
  | (none, met) =>
      let asked := met.recorded request
      match asked.consult program request with
      | .refused clash => (.refused clash, asked)
      | .held value => (.held value, asked.countHit program request)
      | .missing =>
          if request ∈ asked.evaluator.active then
            (.rejected (asked.cycleError program request)
                (cycleReport program request (cycleSteps request asked.evaluator.active)),
              asked.rejected program request)
          else (.computing, asked.entered program request)

/-- Consulting the caches finds a clash, or else what they hold. -/
theorem consult_eq [DecidableEq Request] :
    session.consult program request =
      match session.core.clash? program request with
      | some clash => .refused clash
      | none =>
          match session.core.held? program request with
          | some value => .held value
          | none => .missing := by
  unfold consult Core.held? Core.clash?
  cases policy : (program.kind request).caching with
  | uncached => rfl
  | separatelyCached =>
      show (match program.stored session.world request with
        | some value => CacheAnswer.held value
        | none => .missing) = _
      cases stored : program.stored session.world request with
      | some value => simp only [core, stored]
      | none => simp only [core, stored]
  | cached =>
      simp only [core, ResultCache.get]
      cases session.evaluator.cache.clash? program.kind request with
      | some clash => rfl
      | none => cases ResultCache.find? request session.evaluator.cache <;> rfl

/-- The five ways in which a request is taken up. -/
inductive Receives [DecidableEq Request] (program : Program Request Value World)
    (request : Request) (session : Session Request Value World) :
    Reception (Value request) → Session Request Value World → Prop where
  | conflicting {conflict : ZoneConflict} {met : Session Request Value World}
      (meets : session.meetZone (program.kind request).zone = (some conflict, met)) :
      Receives program request session (.conflicting conflict) met
  | refused {clash : IdentityClash} {met : Session Request Value World}
      (meets : session.meetZone (program.kind request).zone = (none, met))
      (clashes : session.core.clash? program request = some clash) :
      Receives program request session (.refused clash) (met.recorded request)
  | held {value : Value request} {met : Session Request Value World}
      (meets : session.meetZone (program.kind request).zone = (none, met))
      (noClash : session.core.clash? program request = none)
      (holds : session.core.held? program request = some value) :
      Receives program request session (.held value)
        ((met.recorded request).countHit program request)
  | rejected {met : Session Request Value World}
      (meets : session.meetZone (program.kind request).zone = (none, met))
      (noClash : session.core.clash? program request = none)
      (vacant : session.core.held? program request = none)
      (isActive : request ∈ session.evaluator.active) :
      Receives program request session
        (.rejected (session.cycleError program request)
          (cycleReport program request (cycleSteps request session.evaluator.active)))
        ((met.recorded request).rejected program request)
  | computing {met : Session Request Value World}
      (meets : session.meetZone (program.kind request).zone = (none, met))
      (noClash : session.core.clash? program request = none)
      (vacant : session.core.held? program request = none)
      (notActive : request ∉ session.evaluator.active) :
      Receives program request session .computing
        ((met.recorded request).entered program request)

theorem core_recorded_of_meets [DecidableEq Request] (request : Request) {zone : ZoneDefinition}
    {conflict : Option ZoneConflict} {met : Session Request Value World}
    (meets : session.meetZone zone = (conflict, met)) :
    (met.recorded request).core = session.core := by
  have metCore : (session.meetZone zone).2.core = session.core := core_meetZone zone
  rw [meets] at metCore
  exact metCore

/-- Once the zone is met, the core alone decides how a request is taken up. -/
theorem receive_of_meets [DecidableEq Request] {met : Session Request Value World}
    (meets : session.meetZone (program.kind request).zone = (none, met)) :
    session.receive program request =
      match session.core.clash? program request with
      | some clash => (.refused clash, met.recorded request)
      | none =>
          match session.core.held? program request with
          | some value => (.held value, (met.recorded request).countHit program request)
          | none =>
              if request ∈ session.evaluator.active then
                (.rejected (session.cycleError program request)
                    (cycleReport program request (cycleSteps request session.evaluator.active)),
                  (met.recorded request).rejected program request)
              else (.computing, (met.recorded request).entered program request) := by
  have sameCore := core_recorded_of_meets request meets
  have sameActive : (met.recorded request).evaluator.active = session.evaluator.active :=
    congrArg Core.active sameCore
  have sameError : (met.recorded request).cycleError program request =
      session.cycleError program request := by
    simp only [cycleError, sameActive]
  simp only [receive, meets, consult_eq, sameCore]
  cases session.core.clash? program request with
  | some clash => rfl
  | none =>
      cases session.core.held? program request with
      | some value => rfl
      | none => simp only [sameActive, sameError]

/-- A request is taken up in one of the five ways exactly when `receive` says so. -/
theorem receive_eq_iff [DecidableEq Request] {reception : Reception (Value request)} :
    session.receive program request = (reception, after) ↔
      Receives program request session reception after := by
  constructor
  · intro receives
    rcases meets : session.meetZone (program.kind request).zone with ⟨conflict, met⟩
    cases conflict with
    | some conflict =>
        simp only [receive, meets] at receives
        cases receives
        exact .conflicting meets
    | none =>
        rw [receive_of_meets meets] at receives
        split at receives
        case h_1 clash clashes =>
          cases receives
          exact .refused meets clashes
        case h_2 noClash =>
          split at receives
          case h_1 value holds =>
            cases receives
            exact .held meets noClash holds
          case h_2 vacant =>
            split at receives
            case isTrue isActive =>
              cases receives
              exact .rejected meets noClash vacant isActive
            case isFalse notActive =>
              cases receives
              exact .computing meets noClash vacant notActive
  · intro received
    cases received with
    | conflicting meets => simp only [receive, meets]
    | refused meets clashes => simp only [receive_of_meets meets, clashes]
    | held meets noClash holds => simp only [receive_of_meets meets, noClash, holds]
    | rejected meets noClash vacant isActive =>
        simp only [receive_of_meets meets, noClash, vacant, if_pos isActive]
    | computing meets noClash vacant notActive =>
        simp only [receive_of_meets meets, noClash, vacant, if_neg notActive]

/-- Taking a request up changes the core only when its computation begins. -/
theorem Receives.core_eq [DecidableEq Request] {reception : Reception (Value request)}
    (received : Receives program request session reception after) :
    after.core =
      match reception with
      | .computing => session.core.entered request
      | _ => session.core := by
  cases received with
  | conflicting meets =>
      have metCore : (session.meetZone (program.kind request).zone).2.core = session.core :=
        core_meetZone _
      rwa [meets] at metCore
  | refused meets _ => exact core_recorded_of_meets request meets
  | held meets _ _ => rw [core_countHit, core_recorded_of_meets request meets]
  | rejected meets _ _ _ => rw [core_rejected, core_recorded_of_meets request meets]
  | computing meets _ _ _ => rw [core_entered, core_recorded_of_meets request meets]

theorem core_of_settled [DecidableEq Request] {reception : Reception (Value request)}
    (receives : session.receive program request = (reception, after))
    (settled : reception ≠ .computing) : after.core = session.core := by
  have sameCore := (receive_eq_iff.mp receives).core_eq
  cases reception with
  | computing => exact absurd rfl settled
  | _ => exact sameCore

theorem core_of_computing [DecidableEq Request]
    (receives : session.receive program request = (.computing, after)) :
    after.core = session.core.entered request :=
  (receive_eq_iff.mp receives).core_eq

theorem active_of_settled [DecidableEq Request] {reception : Reception (Value request)}
    (receives : session.receive program request = (reception, after))
    (settled : reception ≠ .computing) :
    after.evaluator.active = session.evaluator.active :=
  congrArg Core.active (core_of_settled receives settled)

theorem active_of_computing [DecidableEq Request]
    (receives : session.receive program request = (.computing, after)) :
    after.evaluator.active = session.evaluator.active ++ [request] :=
  congrArg Core.active (core_of_computing receives)

theorem not_active_of_computing [DecidableEq Request]
    (receives : session.receive program request = (.computing, after)) :
    request ∉ session.evaluator.active := by
  cases receive_eq_iff.mp receives with
  | computing _ _ _ notActive => exact notActive

/-- The stack decides what a rejected request is told. -/
theorem cycleError_eq_of_active [DecidableEq Request] {other : Session Request Value World}
    (sameActive : other.evaluator.active = session.evaluator.active) :
    other.cycleError program request = session.cycleError program request := by
  unfold cycleError
  rw [sameActive]

/-! ### Finishing a computation -/

/-- Keeping a value meets a clash, or else changes the core by that value. -/
theorem kept_spec [DecidableEq Request] (program : Program Request Value World)
    (session : Session Request Value World) (value : Value request) :
    match session.core.clash? program request with
    | some clash => session.kept program request value = .error clash
    | none =>
        ∃ stored, session.kept program request value = .ok stored ∧
          stored.core = session.core.kept program request value := by
  unfold kept Core.kept Core.clash?
  cases policy : (program.kind request).caching with
  | uncached => exact ⟨session, rfl, rfl⟩
  | separatelyCached => exact ⟨_, rfl, rfl⟩
  | cached =>
      cases clashes : session.evaluator.cache.clash? program.kind request with
      | some clash =>
          simp only [core, ResultCache.insert, clashes]
          rfl
      | none =>
          simp only [core, ResultCache.insert_of_noClash clashes, clashes]
          refine ⟨_, rfl, ?_⟩
          by_cases occupied : (ResultCache.find? request session.evaluator.cache).isSome
          · simp [occupied]
          · simp [occupied]

/-- The three ways in which an answered computation is finished. -/
inductive Finishes [DecidableEq Request] (program : Program Request Value World)
    (request : Request) (session : Session Request Value World) :
    Except Failure (Value request) → Outcome (Value request) →
      Session Request Value World → Prop where
  | failed {failure : Failure} {after : Session Request Value World}
      (leaves : after.core = session.core.popped) :
      Finishes program request session (.error failure) (.failed failure) after
  | kept {value : Value request} {after : Session Request Value World}
      (noClash : session.core.clash? program request = none)
      (leaves : after.core = session.core.popped.kept program request value) :
      Finishes program request session (.ok value) (.success value) after
  | clashing {value : Value request} {clash : IdentityClash}
      {after : Session Request Value World}
      (clashes : session.core.clash? program request = some clash)
      (leaves : after.core = session.core.popped) :
      Finishes program request session (.ok value) (.aborted clash.message) after

/-- An answered computation is finished in one of the three ways. -/
theorem finishes_of_concluded [DecidableEq Request] {answer : Except Failure (Value request)}
    {outcome : Outcome (Value request)}
    (concludes : session.concluded program request (.ofAnswer answer) = (outcome, after)) :
    Finishes program request session answer outcome after := by
  cases answer with
  | error failure =>
      cases concludes
      refine .failed ?_
      rw [core_failedComputation, core_popped, core_notifyFinished]
  | ok value =>
      simp only [concluded, Outcome.ofAnswer] at concludes
      have stores := kept_spec program
        ((session.notifyFinished (program.kind request).name).popped program request) value
      rw [core_popped, core_notifyFinished] at stores
      have sameClash : session.core.popped.clash? program request =
          session.core.clash? program request := rfl
      rw [sameClash] at stores
      split at stores
      case h_1 clash clashes =>
        rw [stores] at concludes
        cases concludes
        refine .clashing clashes ?_
        rw [core_popped, core_notifyFinished]
      case h_2 noClash =>
        obtain ⟨stored, keeps, storedCore⟩ := stores
        rw [keeps] at concludes
        cases concludes
        exact .kept noClash storedCore

/-- Finishing a computation takes it off the stack. -/
theorem Finishes.active_eq [DecidableEq Request] {answer : Except Failure (Value request)}
    {outcome : Outcome (Value request)}
    (finishes : Finishes program request session answer outcome after) :
    after.evaluator.active = session.evaluator.active.dropLast := by
  cases finishes with
  | failed leaves => exact congrArg Core.active leaves
  | clashing _ leaves => exact congrArg Core.active leaves
  | kept _ leaves =>
      have sameActive := congrArg Core.active leaves
      rw [Core.active_kept] at sameActive
      exact sameActive

/-- A computation that was answered hands its answer on, unless it cannot be kept. -/
theorem concluded_answer [DecidableEq Request] (program : Program Request Value World)
    (request : Request) (answer : Except Failure (Value request))
    (session : Session Request Value World) :
    (∃ left, session.concluded program request (.ofAnswer answer) = (.ofAnswer answer, left)) ∨
      ∃ message left,
        session.concluded program request (.ofAnswer answer) = (.aborted message, left) := by
  rcases concludes : session.concluded program request (.ofAnswer answer) with ⟨outcome, left⟩
  cases finishes_of_concluded concludes with
  | failed _ => exact .inl ⟨left, rfl⟩
  | kept _ _ => exact .inl ⟨left, rfl⟩
  | clashing _ _ => exact .inr ⟨_, left, rfl⟩

end Session

end RequestEngine
