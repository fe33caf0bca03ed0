import RequestEngine.Proofs.CycleFree
import RequestEngine.Proofs.ZoneConflicts

/-!
Contract: storage that evaluators share, and that outlives them.

Owns:
- holding settled values only, as a matter of the result cache and of the storage,
  each by itself;
- that runs keep this so, however they end, and whatever was on the stack before;
- that a settled request is computed to its answer from every such state, whichever
  values happen to be held in it;
- that confined computations never end abruptly;
- relations between states that every store and every change respects.

A value is kept in the middle of an evaluation that may fail later on, find a
cycle, or end abruptly. It is settled all the same, because a computation that
meets a cycle passes the error on and has no value. Nothing else is needed: no
assumption about the stack enters, so a stack that an abrupt end has left behind
does no harm to what is held.

Does not own: particular programs.
-/

namespace RequestEngine

variable {Request : Type} [DecidableEq Request] {Value : Request → Type} {World : Type} {α : Type}

/-! ### Changes of the state -/

/-- Every change of the state that a computation makes by itself is permitted. -/
def Computation.Changes (permitted : World → World → Prop) :
    Computation Request Value World α → Prop
  | .done _ | .fail _ | .abort _ => True
  | .ask _ resume => ∀ answer, (resume answer).Changes permitted
  | .activeRequests resume => ∀ displays, (resume displays).Changes permitted
  | .isActive _ resume | .isCached _ resume => ∀ holds, (resume holds).Changes permitted
  | .read resume => ∀ world, (resume world).Changes permitted
  | .report _ next => next.Changes permitted
  | .update change next => (∀ world, permitted world (change world)) ∧ next.Changes permitted

namespace Computation

variable {β : Type} {permitted : World → World → Prop}

omit [DecidableEq Request] in
theorem Changes.bind {computation : Computation Request Value World α}
    {next : α → Computation Request Value World β} (changes : computation.Changes permitted)
    (nextChanges : ∀ value, (next value).Changes permitted) :
    (computation.bind next).Changes permitted := by
  induction computation with
  | done value => exact nextChanges value
  | fail failure => exact trivial
  | abort message => exact trivial
  | ask request resume inductionHypothesis =>
      exact fun answer => inductionHypothesis answer (changes answer)
  | activeRequests resume inductionHypothesis =>
      exact fun displays => inductionHypothesis displays (changes displays)
  | isActive request resume inductionHypothesis =>
      exact fun holds => inductionHypothesis holds (changes holds)
  | isCached request resume inductionHypothesis =>
      exact fun holds => inductionHypothesis holds (changes holds)
  | report diagnostic rest inductionHypothesis => exact inductionHypothesis changes
  | read resume inductionHypothesis => exact fun world => inductionHypothesis world (changes world)
  | update change rest inductionHypothesis => exact ⟨changes.1, inductionHypothesis changes.2⟩

omit [DecidableEq Request] in
theorem changes_evaluate (request : Request) :
    (Computation.evaluate request : Computation Request Value World _).Changes permitted := by
  intro answer
  cases answer <;> exact trivial

end Computation

namespace Session

variable {program : Program Request Value World} {zone : ZoneDefinition}
variable {session met after : Session Request Value World} {request : Request}

/-! ### Zones that are met without a conflict -/

/-- The zone was met before, or no other definition holds its id. -/
def Accepts (session : Session Request Value World) (zone : ZoneDefinition) : Prop :=
  zone.declaration ∈ session.evaluator.knownZones ∨ session.registry.Admits zone

omit [DecidableEq Request] in
theorem Accepts.congr (accepts : session.Accepts zone) (sameZones : after.zones = session.zones) :
    after.Accepts zone := by
  unfold Accepts
  rw [knownZones_of_zones_eq sameZones, registry_of_zones_eq sameZones]
  exact accepts

omit [DecidableEq Request] in
theorem Accepts.exists_met (accepts : session.Accepts zone) :
    ∃ met, session.meetZone zone = (none, met) := by
  rcases accepts with isKnown | admits
  · exact ⟨session, meetZone_of_known isKnown⟩
  · obtain ⟨larger, below, holds⟩ := admits.exists_holds
    obtain ⟨met, meets, _⟩ := meets_of_holds below holds
    exact ⟨met, meets⟩

omit [DecidableEq Request] in
/-- A zone that was met without a conflict was acceptable, and is known from then on. -/
theorem accepts_of_meets (meets : session.meetZone zone = (none, met)) :
    session.Accepts zone ∧ zone.declaration ∈ met.evaluator.knownZones := by
  cases meets_of_meetZone meets with
  | known isKnown => exact ⟨.inl isKnown, isKnown⟩
  | registered below holds known =>
      refine ⟨.inr (below.admits holds), ?_⟩
      rw [known]
      exact List.mem_append_right _ (List.mem_singleton_self _)

/-- A zone was acceptable when a request of it was taken up, and it is from then on. -/
theorem accepts_of_receive {reception : Reception (Value request)}
    (receives : session.receive program request = (reception, after))
    (admitted : ∀ conflict, reception ≠ .conflicting conflict) :
    session.Accepts (program.kind request).zone ∧ after.Accepts (program.kind request).zone := by
  obtain ⟨met, meets, sameZones⟩ := (receive_eq_iff.mp receives).meets admitted
  obtain ⟨accepts, isKnown⟩ := accepts_of_meets meets
  exact ⟨accepts, (show met.Accepts _ from .inl isKnown).congr sameZones⟩

theorem Accepts.admitted {reception : Reception (Value request)}
    (accepts : session.Accepts (program.kind request).zone)
    (receives : session.receive program request = (reception, after)) (conflict : ZoneConflict) :
    reception ≠ .conflicting conflict := by
  rintro rfl
  obtain ⟨met, meets⟩ := accepts.exists_met
  cases receive_eq_iff.mp receives with
  | conflicting refuses =>
      rw [meets] at refuses
      cases refuses

end Session

namespace Program

variable {program : Program Request Value World} {zone : ZoneDefinition} {request : Request}
variable {session after final computed : Session Request Value World}
variable {computation : Computation Request Value World α}
variable {history : List (Event Request Value World)} {answer : Except Failure α}
variable {ended : Option (Outcome α)}

/-- An evaluator with a single zone accepts it for good. -/
theorem Step.accepts {event : Event Request Value World} (step : Step program session event after)
    (oneZone : ∀ request, (program.kind request).zone = zone) (accepts : session.Accepts zone) :
    after.Accepts zone := by
  cases step with
  | @received _ request _ receives =>
      rw [← oneZone request] at accepts ⊢
      exact (Session.accepts_of_receive receives (accepts.admitted receives)).2
  | finished _ concludes => exact accepts.congr (Session.zones_concluded concludes)
  | abandoned => exact accepts.congr (Session.zones_notifyFinished _)
  | reported => exact accepts
  | updated => exact accepts

theorem Steps.accepts (steps : Steps program session history final)
    (oneZone : ∀ request, (program.kind request).zone = zone) (accepts : session.Accepts zone) :
    final.Accepts zone := by
  induction steps with
  | nil => exact accepts
  | cons first _ inductionHypothesis => exact inductionHypothesis (first.accepts oneZone accepts)

/-! ### Settled values in the result cache and in storage -/

/-- What a result cache holds is settled. -/
def CacheGrounded (program : Program Request Value World) (cache : ResultCache Request Value) :
    Prop :=
  ∀ request value, (program.kind request).caching = .cached →
    ResultCache.find? request cache = some value →
    Settles program (program.compute request) (.ok value)

omit [DecidableEq Request] in
/-- What is stored outside the evaluators is settled. -/
def StorageGrounded (program : Program Request Value World) (world : World) : Prop :=
  ∀ request value, program.storedOutside world request = some value →
    Settles program (program.compute request) (.ok value)

theorem grounded_iff :
    Grounded program session ↔
      CacheGrounded program session.evaluator.cache ∧ StorageGrounded program session.world := by
  constructor
  · intro grounded
    constructor
    · intro request value policy isFound
      refine grounded request value ?_
      unfold Core.held?
      rw [policy]
      exact isFound
    · intro request value stored
      unfold storedOutside at stored
      split at stored
      case isTrue policy =>
        refine grounded request value ?_
        unfold Core.held?
        rw [policy]
        exact stored
      case isFalse => cases stored
  · rintro ⟨cacheGrounded, storageGrounded⟩ request value holds
    unfold Core.held? at holds
    split at holds
    case h_1 => cases holds
    case h_2 policy => exact cacheGrounded request value policy holds
    case h_3 policy =>
      refine storageGrounded request value ?_
      rw [storedOutside, if_pos policy]
      exact holds

theorem Grounded.of_core_eq (grounded : Grounded program session)
    (sameCore : after.core = session.core) : Grounded program after :=
  grounded.congr fun _ => by rw [sameCore]

theorem Grounded.entered (grounded : Grounded program session)
    (receives : session.receive program request = (.computing, after)) :
    Grounded program after :=
  grounded.congr fun _ => by
    rw [Session.core_of_computing receives]
    rfl

theorem Grounded.updated {world : World} (grounded : Grounded program session)
    (forgets : program.Forgets session.world world) :
    Grounded program { session with world := world } :=
  fun request value holds => grounded request value (Core.held?_of_forgets forgets holds)

/-- Keeping a settled value keeps what is held settled. -/
theorem Grounded.concluded {nested : Except Failure (Value request)}
    (grounded : Grounded program computed) (honest : program.HonestStorage)
    (concludes : computed.concluded program request (.ofAnswer nested) = (.ofAnswer nested, after))
    (settles : ∀ value, nested = .ok value →
      Settles program (program.compute request) (.ok value)) : Grounded program after := by
  intro other found holds
  rcases held?_concluded_cases honest concludes holds with before | ⟨value, isAnswer, same⟩
  · exact grounded other found before
  · cases same
    exact settles value isAnswer

/-- A computation whose answer cannot be kept leaves no value behind. -/
theorem Grounded.unkept {nested : Except Failure (Value request)} {message : String}
    (grounded : Grounded program computed)
    (concludes : computed.concluded program request (.ofAnswer nested) =
      (.aborted message, after)) : Grounded program after := by
  have finishes := Session.finishes_of_concluded concludes
  generalize outcomeEq : Outcome.aborted message = outcome at finishes
  cases finishes with
  | failed _ => cases outcomeEq
  | kept _ _ => cases outcomeEq
  | clashing _ leaves =>
      refine grounded.congr fun _ => ?_
      rw [leaves]
      rfl

/-- Whatever a run comes to, only settled values are held after it. Its answer is
settled unless it is a cycle error. -/
theorem Run.grounded (runs : Run program computation session history ended final)
    (allOblivious : ∀ request, (program.compute request).Oblivious program)
    (honest : program.HonestStorage) (oblivious : computation.Oblivious program)
    (grounded : Grounded program session) :
    Grounded program final ∧ ∀ answer, ended = some (.ofAnswer answer) →
      (∀ error, answer ≠ .error (.cycle error)) → Settles program computation answer := by
  induction runs with
  | underWay => exact ⟨grounded, nofun⟩
  | unnoticed _ inductionHypothesis => exact ⟨(inductionHypothesis oblivious grounded).1, nofun⟩
  | @done _ value _ =>
      refine ⟨grounded, fun answer ends _ => ?_⟩
      have same : some (Outcome.ofAnswer (.ok value)) = some (.ofAnswer answer) := ends
      obtain rfl := Outcome.ofAnswer_inj.mp (Option.some.inj same)
      exact .done
  | @fail _ failure _ =>
      refine ⟨grounded, fun answer ends noCycle => ?_⟩
      have same : some (Outcome.ofAnswer (.error failure)) = some (.ofAnswer answer) := ends
      obtain rfl := Outcome.ofAnswer_inj.mp (Option.some.inj same)
      cases failure with
      | cycle error => exact absurd rfl (noCycle error)
      | computation error => exact .fail
  | abort => exact ⟨grounded, fun _ ends => absurd ends Outcome.aborted_not_answered⟩
  | activeRequests _ _ => exact oblivious.elim
  | isActive _ _ => exact oblivious.elim
  | isCached _ _ _ => exact oblivious.elim
  | isCachedRefused _ => exact oblivious.elim
  | read _ _ => exact oblivious.elim
  | report _ inductionHypothesis =>
      obtain ⟨finalGrounded, settles⟩ := inductionHypothesis oblivious (grounded.of_core_eq rfl)
      exact ⟨finalGrounded, fun answer ends noCycle => .report (settles answer ends noCycle)⟩
  | update _ inductionHypothesis =>
      obtain ⟨finalGrounded, settles⟩ :=
        inductionHypothesis oblivious.2 (grounded.updated (oblivious.1 _))
      exact ⟨finalGrounded, fun answer ends noCycle => .update (settles answer ends noCycle)⟩
  | @answered _ request _ _ _ _ reception _ _ _ receives answers resumes inductionHypothesis =>
      have atOnce := Reception.ne_computing_of_answer answers
      obtain ⟨finalGrounded, settles⟩ := inductionHypothesis (oblivious.1 _)
        (grounded.of_core_eq (Session.core_of_settled receives atOnce))
      refine ⟨finalGrounded, fun answer ends noCycle => ?_⟩
      cases Session.receive_eq_iff.mp receives with
      | conflicting _ => cases answers
      | refused _ _ => cases answers
      | computing _ _ _ _ => cases answers
      | held _ _ holds =>
          cases answers
          exact .ask (grounded request _ holds) (settles answer ends noCycle)
      | rejected _ _ _ _ =>
          cases answers
          exact absurd (resumes.passes ends (oblivious.2 _)) (noCycle _)
  | refused receives refuses =>
      have atOnce := Reception.ne_computing_of_refusal refuses
      exact ⟨grounded.of_core_eq (Session.core_of_settled receives atOnce),
        fun _ ends => absurd ends Outcome.aborted_not_answered⟩
  | within receives _ inductionHypothesis =>
      exact ⟨(inductionHypothesis (allOblivious _) (grounded.entered receives)).1, nofun⟩
  | @returned _ request _ _ _ _ _ _ nested _ _ _ receives _ concludes resumes inside later =>
      obtain ⟨computedGrounded, settlesInside⟩ :=
        inside (allOblivious _) (grounded.entered receives)
      have leftGrounded := computedGrounded.concluded honest concludes fun value isAnswer => by
        subst isAnswer
        exact settlesInside _ rfl (by simp)
      obtain ⟨finalGrounded, settles⟩ := later (oblivious.1 _) leftGrounded
      refine ⟨finalGrounded, fun answer ends noCycle => ?_⟩
      have nestedNoCycle : ∀ error, nested ≠ .error (.cycle error) := by
        rintro error rfl
        exact noCycle error (resumes.passes ends (oblivious.2 error))
      exact .ask (settlesInside nested rfl nestedNoCycle) (settles answer ends noCycle)
  | unkept receives _ concludes inside =>
      have computedGrounded := (inside (allOblivious _) (grounded.entered receives)).1
      exact ⟨computedGrounded.unkept concludes,
        fun _ ends => absurd ends Outcome.aborted_not_answered⟩
  | abandoned receives _ inside =>
      have computedGrounded := (inside (allOblivious _) (grounded.entered receives)).1
      exact ⟨computedGrounded.of_core_eq (Session.core_notifyFinished _),
        fun _ ends => absurd ends Outcome.aborted_not_answered⟩

/-! ### Computing settled requests -/

section Computed

variable (allOblivious : ∀ request, (program.compute request).Oblivious program)
variable (honest : program.HonestStorage) (identities : program.DistinctIdentities)
variable (oneZone : ∀ request, (program.kind request).zone = zone)

include allOblivious honest identities oneZone

/-- A settled computation runs to its answer from every state that holds settled
values only, as long as nothing that it needs is active. -/
theorem Settles.exists_run_of_grounded (settles : Settles program computation answer)
    (oblivious : computation.Oblivious program) (grounded : Grounded program session)
    (accepts : session.Accepts zone)
    (free : ∀ needed, Asks program computation needed → ∀ other, DependsOn program needed other →
      other ∉ session.evaluator.active) :
    ∃ history final, Run program computation session history (some (.ofAnswer answer)) final := by
  induction settles generalizing session with
  | done => exact ⟨[], session, .done⟩
  | fail => exact ⟨[], session, .fail⟩
  | report _ inductionHypothesis =>
      obtain ⟨history, final, runs⟩ := inductionHypothesis oblivious
        (grounded.of_core_eq (Session.core_reported _)) accepts
        fun needed asks => free needed (.report asks)
      exact ⟨_, final, .report runs⟩
  | update _ inductionHypothesis =>
      obtain ⟨history, final, runs⟩ := inductionHypothesis oblivious.2
        (grounded.updated (oblivious.1 _)) accepts fun needed asks => free needed (.update asks)
      exact ⟨_, final, .update runs⟩
  | @ask _ request resume nested _ computes _ inside later =>
      rcases receives : session.receive program request with ⟨reception, after⟩
      have acceptsAfter := Step.accepts (.received receives) oneZone accepts
      cases Session.receive_eq_iff.mp receives with
      | conflicting _ =>
          rw [← oneZone request] at accepts
          exact absurd rfl (accepts.admitted receives _)
      | refused _ clashes =>
          rw [Core.clash?_of_distinctIdentities identities] at clashes
          cases clashes
      | rejected _ _ _ isActive => exact absurd isActive (free request .now request .refl)
      | held _ _ holds =>
          obtain rfl := computes.unique (grounded request _ holds)
          have sameCore := Session.core_of_settled receives (by simp)
          have sameActive := Session.active_of_settled receives (by simp)
          obtain ⟨history, final, runs⟩ := later (oblivious.1 _) (grounded.of_core_eq sameCore)
            acceptsAfter fun needed asks => by
              rw [sameActive]
              exact free needed (.later computes asks)
          exact ⟨_, final, .answered receives rfl runs⟩
      | computing _ _ _ _ =>
          have settled : Settled program request := ⟨nested, computes⟩
          obtain ⟨inner, computed, innerRuns⟩ := inside (allOblivious request)
            (grounded.entered receives) acceptsAfter fun needed needs other depends => by
              rw [Session.active_of_computing receives]
              exact settled.free_below (free request .now) needs depends
          obtain ⟨left, concludes⟩ := exists_finished identities computed nested
          have leftActive : left.evaluator.active = session.evaluator.active := by
            rw [(Session.finishes_of_concluded concludes).active_eq,
              active_of_computed receives innerRuns, List.dropLast_concat]
          have acceptsComputed := innerRuns.steps.accepts oneZone acceptsAfter
          have computedGrounded :=
            (innerRuns.grounded allOblivious honest (allOblivious request)
              (grounded.entered receives)).1
          have leftGrounded := computedGrounded.concluded honest concludes fun value isAnswer => by
            rw [← isAnswer]
            exact computes
          obtain ⟨history, final, runs⟩ := later (oblivious.1 _) leftGrounded
            (acceptsComputed.congr (Session.zones_concluded concludes)) fun needed asks => by
              rw [leftActive]
              exact free needed (.later computes asks)
          exact ⟨_, final, .returned receives innerRuns concludes runs⟩

end Computed

/-- Every answer can be kept when identities do not clash. -/
theorem concluded_ne_aborted {nested : Except Failure (Value request)} {message : String}
    (identities : program.DistinctIdentities)
    (concludes : computed.concluded program request (.ofAnswer nested) =
      (.aborted message, after)) : False := by
  obtain ⟨left, concludesWell⟩ := exists_finished identities computed nested
  have same := congrArg Prod.fst (concludesWell.symm.trans concludes)
  exact Outcome.ofAnswer_ne_aborted _ _ same

private theorem answered_of_handOn {outcome : Outcome (Value request)}
    {nested : Except Failure (Value request)}
    (runs : Run program
      ((fun | .ok value => .done value | .error failure => .fail failure :
        Except Failure (Value request) → Computation Request Value World (Value request)) nested)
      session history (some outcome) final) :
    ∃ answer, outcome = .ofAnswer answer := by
  cases nested with
  | ok value =>
      cases runs
      exact ⟨.ok value, rfl⟩
  | error failure =>
      cases runs
      exact ⟨.error failure, rfl⟩

/-- A confined computation does not end abruptly when the zone is accepted and
identities do not clash. -/
theorem Run.not_aborted {allowed : Request → Prop}
    (runs : Run program computation session history ended final)
    (allOblivious : ∀ request, (program.compute request).Oblivious program)
    (honest : program.HonestStorage) (identities : program.DistinctIdentities)
    (oneZone : ∀ request, (program.kind request).zone = zone)
    (allConfined : ∀ request, ∃ allowed, (program.compute request).Confined program allowed)
    (oblivious : computation.Oblivious program) (confined : computation.Confined program allowed)
    (grounded : Grounded program session) (accepts : session.Accepts zone) (message : String) :
    ended ≠ some (.aborted message) := by
  induction runs generalizing allowed message with
  | underWay => simp
  | unnoticed _ _ => simp
  | within _ _ _ => simp
  | done => simp
  | fail => simp
  | abort => exact confined.elim
  | activeRequests _ _ => exact confined.elim
  | isActive _ _ => exact confined.elim
  | isCached _ _ _ => exact confined.elim
  | isCachedRefused _ => exact confined.elim
  | read _ _ => exact confined.elim
  | report _ inductionHypothesis =>
      exact inductionHypothesis oblivious confined (grounded.of_core_eq rfl) accepts message
  | update _ inductionHypothesis =>
      exact inductionHypothesis oblivious.2 confined (grounded.updated (oblivious.1 _)) accepts
        message
  | @answered _ request _ _ _ _ _ answer _ _ receives answers _ inductionHypothesis =>
      have atOnce := Reception.ne_computing_of_answer answers
      have settledValue : ∀ value, answer = .ok value →
          Settles program (program.compute request) (.ok value) := by
        rintro value rfl
        cases Session.receive_eq_iff.mp receives with
        | conflicting _ => cases answers
        | refused _ _ => cases answers
        | computing _ _ _ _ => cases answers
        | rejected _ _ _ _ => cases answers
        | held _ _ holds =>
            cases answers
            exact grounded request _ holds
      exact inductionHypothesis (oblivious.1 _) (confined.2 _ settledValue)
        (grounded.of_core_eq (Session.core_of_settled receives atOnce))
        (Step.accepts (.received receives) oneZone accepts) message
  | @refused _ request _ _ _ _ _ receives refuses =>
      cases Session.receive_eq_iff.mp receives with
      | held _ _ _ => cases refuses
      | rejected _ _ _ _ => cases refuses
      | computing _ _ _ _ => cases refuses
      | conflicting _ =>
          rw [← oneZone request] at accepts
          exact absurd rfl (accepts.admitted receives _)
      | refused _ clashes =>
          rw [Core.clash?_of_distinctIdentities identities] at clashes
          cases clashes
  | @returned _ request _ _ _ _ _ _ nested _ _ _ receives computes concludes _ _ later =>
      obtain ⟨computedGrounded, settles⟩ := computes.grounded allOblivious honest
        (allOblivious request) (grounded.entered receives)
      have settledValue : ∀ value, nested = .ok value →
          Settles program (program.compute request) (.ok value) := by
        rintro value rfl
        exact settles _ rfl (by simp)
      have acceptsComputed :=
        computes.steps.accepts oneZone (Step.accepts (.received receives) oneZone accepts)
      exact later (oblivious.1 _) (confined.2 _ settledValue)
        (computedGrounded.concluded honest concludes settledValue)
        (acceptsComputed.congr (Session.zones_concluded concludes)) message
  | unkept _ _ concludes _ => exact (concluded_ne_aborted identities concludes).elim
  | @abandoned _ request _ _ _ _ _ inside receives _ inductionHypothesis =>
      obtain ⟨allowedInside, confinedInside⟩ := allConfined request
      exact absurd rfl (inductionHypothesis (allOblivious request) confinedInside
        (grounded.entered receives) (Step.accepts (.received receives) oneZone accepts) inside)

/-- A call from outside leaves the stack as it found it, also when it is refused
for a conflict of zones. -/
theorem Run.active_of_call {outcome : Outcome (Value request)}
    (runs : Run program (Computation.evaluate request) session history (some outcome) final)
    (allOblivious : ∀ request, (program.compute request).Oblivious program)
    (honest : program.HonestStorage) (identities : program.DistinctIdentities)
    (oneZone : ∀ request, (program.kind request).zone = zone)
    (allConfined : ∀ request, ∃ allowed, (program.compute request).Confined program allowed)
    (grounded : Grounded program session) :
    final.evaluator.active = session.evaluator.active := by
  by_cases isAnswered : ∃ answer, outcome = .ofAnswer answer
  · obtain ⟨answer, rfl⟩ := isAnswered
    obtain ⟨opened, _, active, closed⟩ := runs.nests
    rw [active, closed answer rfl, List.append_nil]
  · cases runs with
    | answered _ _ resumes => exact absurd (answered_of_handOn resumes) isAnswered
    | returned _ _ _ resumes => exact absurd (answered_of_handOn resumes) isAnswered
    | refused receives refuses =>
        exact Session.active_of_settled receives (Reception.ne_computing_of_refusal refuses)
    | unkept _ _ concludes => exact (concluded_ne_aborted identities concludes).elim
    | abandoned receives computes =>
        obtain ⟨allowed, confined⟩ := allConfined request
        have accepts := (Session.accepts_of_receive receives (by simp)).2
        rw [oneZone request] at accepts
        exact absurd rfl (computes.not_aborted allOblivious honest identities oneZone allConfined
          (allOblivious request) confined (grounded.entered receives) accepts _)

/-! ### Relations between states -/

/-- What a run changes by itself is permitted. -/
theorem Run.changes {permitted : World → World → Prop}
    (runs : Run program computation session history ended final)
    (allChange : ∀ request, (program.compute request).Changes permitted)
    (changes : computation.Changes permitted) {change : World → World}
    (happened : .updated change ∈ history) (world : World) : permitted world (change world) := by
  induction runs with
  | underWay => cases happened
  | done => cases happened
  | fail => cases happened
  | abort => cases happened
  | isCachedRefused _ => cases happened
  | unnoticed _ inductionHypothesis => exact inductionHypothesis changes happened
  | activeRequests _ inductionHypothesis => exact inductionHypothesis (changes _) happened
  | isActive _ inductionHypothesis => exact inductionHypothesis (changes _) happened
  | isCached _ _ inductionHypothesis => exact inductionHypothesis (changes _) happened
  | read _ inductionHypothesis => exact inductionHypothesis (changes _) happened
  | report _ inductionHypothesis =>
      exact inductionHypothesis changes (by simpa using happened)
  | update _ inductionHypothesis =>
      rcases List.mem_cons.mp happened with isFirst | later
      · cases isFirst
        exact changes.1 world
      · exact inductionHypothesis changes.2 later
  | answered _ _ _ inductionHypothesis =>
      exact inductionHypothesis (changes _) (by simpa using happened)
  | refused _ _ => simp at happened
  | within _ _ inside => exact inside (allChange _) (by simpa using happened)
  | @returned _ _ _ _ _ _ _ _ _ inner history _ _ _ _ _ inside later =>
      have insideOrLater : .updated change ∈ inner ∨ .updated change ∈ history := by
        simpa using happened
      exact insideOrLater.elim (inside (allChange _)) (later (changes _))
  | unkept _ _ _ inside => exact inside (allChange _) (by simpa using happened)
  | abandoned _ _ inside => exact inside (allChange _) (by simpa using happened)

/-- The state changes by being stored to, or by itself. -/
theorem Step.world_cases {event : Event Request Value World}
    (step : Step program session event after) :
    after.world = session.world ∨
      (∃ request value, after.world = program.store session.world request value) ∨
      ∃ change, event = .updated change ∧ after.world = change session.world := by
  cases step with
  | @received _ request reception receives =>
      by_cases settled : reception = .computing
      · subst settled
        exact .inl (congrArg Core.world (Session.core_of_computing receives))
      · exact .inl (congrArg Core.world (Session.core_of_settled receives settled))
  | finished _ concludes =>
      cases Session.finishes_of_concluded concludes with
      | failed leaves => exact .inl (congrArg Core.world leaves)
      | clashing _ leaves => exact .inl (congrArg Core.world leaves)
      | @kept value _ _ leaves =>
          have sameWorld := congrArg Core.world leaves
          unfold Core.kept at sameWorld
          split at sameWorld
          · exact .inl sameWorld
          · split at sameWorld
            · exact .inl sameWorld
            · exact .inl sameWorld
          · exact .inr (.inl ⟨_, value, sameWorld⟩)
  | abandoned => exact .inl (congrArg Core.world (Session.core_notifyFinished _))
  | reported => exact .inl rfl
  | updated => exact .inr (.inr ⟨_, rfl, rfl⟩)

/-- A preorder that every store and every change respects holds between the
states before and after some steps. -/
theorem Steps.world_related {related : World → World → Prop}
    (steps : Steps program session history final) (refl : ∀ world, related world world)
    (trans : ∀ first second third, related first second → related second third →
      related first third)
    (stores : ∀ world request value, related world (program.store world request value))
    (changes : ∀ change, .updated change ∈ history → ∀ world, related world (change world)) :
    related session.world final.world := by
  induction steps with
  | nil => exact refl _
  | @cons session middle final event later first _ inductionHypothesis =>
      have rest := inductionHypothesis fun change happened =>
        changes change (List.mem_cons_of_mem _ happened)
      refine trans _ _ _ ?_ rest
      rcases first.world_cases with same | ⟨request, value, isStore⟩ | ⟨change, rfl, isChange⟩
      · rw [same]
        exact refl _
      · rw [isStore]
        exact stores _ _ _
      · rw [isChange]
        exact changes change List.mem_cons_self _

end Program

end RequestEngine
