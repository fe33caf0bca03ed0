import RequestEngine.Proofs.Counting
import RequestEngine.Proofs.KeptResults
import RequestEngine.Proofs.SharedStorage

/-!
Contract: what computations do to the standing of an evaluator.

Owns:
- the standing of an evaluator: its stack, its result cache, the state of its
  program and its counters;
- computations that take every evaluator of one standing to one other standing,
  with a rule for every way in which a cached request is answered;
- what every further call leaves as it was.

The rules are those of a program logic. They speak about all sessions of a
standing at once, so that registries, notifications and log events do not
appear in them. A session has to accept the zone of the requests, and still does
so afterwards.

Does not own: particular programs.
-/

namespace RequestEngine

/-- What later evaluations depend on, with the counters of the evaluator. -/
structure Standing (Request : Type) (Value : Request → Type) (World : Type) extends
    Core Request Value World where
  metrics : Metrics

/-- Further cache hits and computations. -/
def Metrics.plus (metrics : Metrics) (hits computations : Nat) : Metrics :=
  { metrics with
    cacheHits := metrics.cacheHits + hits
    computations := metrics.computations + computations }

@[simp]
theorem Metrics.plus_plus (metrics : Metrics) (hits computations moreHits moreComputations : Nat) :
    (metrics.plus hits computations).plus moreHits moreComputations =
      metrics.plus (hits + moreHits) (computations + moreComputations) := by
  simp [plus, Nat.add_assoc]

variable {Request : Type} {Value : Request → Type} {World : Type} {α β : Type}

/-- The standing in which a request is computed. -/
def Standing.entered (standing : Standing Request Value World) (request : Request) :
    Standing Request Value World :=
  ⟨standing.toCore.entered request, standing.metrics.plus 0 1⟩

variable [DecidableEq Request]

namespace Session

variable {program : Program Request Value World} {request : Request}
variable {session after : Session Request Value World}

def standing (session : Session Request Value World) : Standing Request Value World :=
  ⟨session.core, session.evaluator.metrics⟩

/-- A request that is settled at once is counted, and nothing else happens. -/
theorem standing_of_settled {reception : Reception (Value request)}
    (receives : session.receive program request = (reception, after))
    (settled : reception ≠ .computing) :
    after.standing =
      { session.standing with
        metrics := (Event.received request reception : Event Request Value World).count program.kind
          session.evaluator.metrics } := by
  rw [standing, core_of_settled receives settled, (receive_eq_iff.mp receives).metrics_eq]
  rfl

theorem standing_of_computing (receives : session.receive program request = (.computing, after)) :
    after.standing = session.standing.entered request := by
  rw [standing, core_of_computing receives, (receive_eq_iff.mp receives).metrics_eq]
  rfl

omit [DecidableEq Request] in
@[simp]
theorem standing_notifyFinished (kind : String) :
    (session.notifyFinished kind).standing = session.standing := by
  rw [standing, core_notifyFinished, evaluator_notifyFinished]
  rfl

end Session

namespace Program

variable {program : Program Request Value World} {zone : ZoneDefinition} {depth : Nat}
variable {before middle after : Standing Request Value World}

/-- From every session of one standing, the computation has the outcome and
leaves a session of the other standing. -/
def Takes (program : Program Request Value World) (zone : ZoneDefinition) (depth : Nat)
    (computation : Computation Request Value World α) (before : Standing Request Value World)
    (outcome : Outcome α) (after : Standing Request Value World) : Prop :=
  ∀ session : Session Request Value World, session.Accepts zone → session.standing = before →
    ∃ final, program.run depth computation session = (outcome, final) ∧ final.Accepts zone ∧
      final.standing = after

/-! ### Sequences -/

theorem takes_done (value : α) :
    Takes program zone depth (.done value) before (.success value) before :=
  fun session accepts stands => ⟨session, rfl, accepts, stands⟩

theorem takes_abort (message : String) :
    Takes program zone depth (.abort message : Computation Request Value World α) before
      (.aborted message) before :=
  fun session accepts stands => ⟨session, rfl, accepts, stands⟩

theorem Takes.read {resume : World → Computation Request Value World α} {outcome : Outcome α}
    (takes : Takes program zone depth (resume before.world) before outcome after) :
    Takes program zone depth (.read resume) before outcome after := by
  rintro session accepts rfl
  exact takes session accepts rfl

theorem Takes.update {change : World → World} {next : Computation Request Value World α}
    {outcome : Outcome α}
    (takes : Takes program zone depth next { before with world := change before.world } outcome
      after) :
    Takes program zone depth (.update change next) before outcome after := by
  rintro session accepts rfl
  exact takes { session with world := change session.world } accepts rfl

theorem Takes.bind {computation : Computation Request Value World α} {value : α}
    {next : α → Computation Request Value World β} {outcome : Outcome β}
    (first : Takes program zone depth computation before (.success value) middle)
    (second : Takes program zone depth (next value) middle outcome after) :
    Takes program zone depth (computation.bind next) before outcome after := by
  intro session accepts stands
  obtain ⟨between, runs, acceptsBetween, standsBetween⟩ := first session accepts stands
  rw [run_bind_of_success runs]
  exact second between acceptsBetween standsBetween

theorem Takes.evaluate_bind_aborted {request : Request} {message : String}
    {next : Value request → Computation Request Value World β}
    (aborts : Takes program zone depth (Computation.evaluate request) before (.aborted message)
      after) :
    Takes program zone depth ((Computation.evaluate request).bind next) before (.aborted message)
      after := by
  intro session accepts stands
  obtain ⟨final, runs, acceptsFinal, standsFinal⟩ := aborts session accepts stands
  rw [run_evaluate] at runs
  exact ⟨final, run_ask_of_abort runs, acceptsFinal, standsFinal⟩

/-- An evaluation has one end, which it reaches wherever it may nest deeply enough.
From a bound on, every depth is enough. -/
def EndsFrom (program : Program Request Value World) (bound : Nat) (request : Request)
    (session : Session Request Value World) (outcome : Outcome (Value request))
    (after : Session Request Value World) : Prop :=
  ∀ depth, program.evaluate depth request session = (outcome, after) ∨
    depth < bound ∧ (program.evaluate depth request session).1 = .tooDeep

theorem EndsFrom.evaluates {bound : Nat} {request : Request}
    {session final : Session Request Value World} {outcome : Outcome (Value request)}
    (ends : EndsFrom program bound request session outcome final) (deep : bound ≤ depth) :
    program.evaluate depth request session = (outcome, final) :=
  (ends depth).resolve_right fun below => Nat.not_lt_of_le deep below.1

/-- An evaluation that takes a standing to another at all depths from some bound on
has one end. -/
theorem exists_endsFrom {bound : Nat} {request : Request} {session : Session Request Value World}
    {outcome : Outcome (Value request)}
    (takes : ∀ depth, bound ≤ depth →
      Takes program zone depth (Computation.evaluate request) before outcome after)
    (decided : outcome ≠ .tooDeep) (accepts : session.Accepts zone)
    (stands : session.standing = before) :
    ∃ final, EndsFrom program bound request session outcome final ∧ final.standing = after := by
  obtain ⟨final, runs, _, standsFinal⟩ := takes bound (Nat.le_refl bound) session accepts stands
  refine ⟨final, fun depth => ?_, standsFinal⟩
  rcases evaluates : program.evaluate depth request session with ⟨otherOutcome, other⟩
  rw [← run_evaluate] at evaluates
  by_cases tooDeep : otherOutcome = .tooDeep
  · refine .inr ⟨?_, tooDeep⟩
    apply Nat.lt_of_not_le
    intro deep
    obtain ⟨_, runsHere, _, _⟩ := takes depth deep session accepts stands
    cases evaluates.symm.trans runsHere
    exact decided tooDeep
  · obtain ⟨_, reaches⟩ := exists_run_of_run runs decided
    obtain ⟨_, reachesOther⟩ := exists_run_of_run evaluates tooDeep
    obtain ⟨_, rfl, rfl⟩ := reaches.unique rfl reachesOther
    exact .inl rfl

/-! ### Cached requests -/

section Cached

variable {request : Request} {value : Value request}

private theorem held?_of_cached {session : Session Request Value World}
    (policy : (program.kind request).caching = .cached) :
    session.core.held? program request =
      ResultCache.find? request session.standing.cache := by
  unfold Core.held?
  rw [policy]
  rfl

/-- A value that the result cache holds is a cache hit. -/
theorem takes_held (identities : program.DistinctIdentities)
    (inZone : (program.kind request).zone = zone)
    (policy : (program.kind request).caching = .cached)
    (found : ResultCache.find? request before.cache = some value) :
    Takes program zone (depth + 1) (Computation.evaluate request) before (.success value)
      { before with metrics := before.metrics.plus 1 0 } := by
  rintro session accepts rfl
  subst inZone
  obtain ⟨met, meets⟩ := accepts.exists_met
  have noClash := Core.clash?_of_distinctIdentities identities session.core request
  have receives := Session.receive_eq_iff.mpr
    (.held meets noClash ((held?_of_cached policy).trans found))
  refine ⟨_, ?_, (Session.accepts_of_receive receives (by simp)).2, ?_⟩
  · rw [run_evaluate]
    exact evaluate_of_answer receives rfl
  · rw [Session.standing_of_settled receives (by simp), Event.count, policy]
    rfl

/-- A request that is being computed meets a cycle, which the stack describes. -/
theorem takes_rejected (identities : program.DistinctIdentities)
    (inZone : (program.kind request).zone = zone)
    (policy : (program.kind request).caching = .cached)
    (vacant : ResultCache.find? request before.cache = none)
    (isActive : request ∈ before.active) :
    Takes program zone (depth + 1) (Computation.evaluate request) before
      (.failed (.cycle
        { request := program.display request
          chain := (Session.cycleSteps request before.active).map program.display ++
            [program.display request] }))
      { before with
        metrics :=
          { before.metrics with cyclesDetected := before.metrics.cyclesDetected + 1 } } := by
  rintro session accepts rfl
  subst inZone
  obtain ⟨met, meets⟩ := accepts.exists_met
  have noClash := Core.clash?_of_distinctIdentities identities session.core request
  have receives := Session.receive_eq_iff.mpr
    (.rejected meets noClash ((held?_of_cached policy).trans vacant) isActive)
  refine ⟨_, ?_, (Session.accepts_of_receive receives (by simp)).2, ?_⟩
  · rw [run_evaluate]
    exact evaluate_of_answer receives rfl
  · exact Session.standing_of_settled receives (by simp)

private theorem exists_entered {session : Session Request Value World}
    (identities : program.DistinctIdentities)
    (policy : (program.kind request).caching = .cached)
    (accepts : session.Accepts (program.kind request).zone)
    (vacant : ResultCache.find? request session.standing.cache = none)
    (notActive : request ∉ session.standing.active) :
    ∃ entered, session.receive program request = (.computing, entered) ∧
      entered.Accepts (program.kind request).zone ∧
      entered.standing = session.standing.entered request := by
  obtain ⟨met, meets⟩ := accepts.exists_met
  have noClash := Core.clash?_of_distinctIdentities identities session.core request
  have receives := Session.receive_eq_iff.mpr
    (.computing meets noClash ((held?_of_cached policy).trans vacant) notActive)
  exact ⟨_, receives, (Session.accepts_of_receive receives (by simp)).2,
    Session.standing_of_computing receives⟩

/-- The topmost request leaves the stack, and its value is added to the result cache. -/
private theorem exists_kept {computed : Session Request Value World}
    (identities : program.DistinctIdentities)
    (policy : (program.kind request).caching = .cached)
    (vacant : ResultCache.find? request computed.core.cache = none) :
    ∃ left, computed.concluded program request (.ofAnswer (.ok value)) = (.success value, left) ∧
      left.zones = computed.zones ∧
      left.standing =
        ⟨⟨computed.core.active.dropLast, computed.core.cache ++ [⟨request, value⟩], computed.world⟩,
          computed.evaluator.metrics⟩ := by
  rcases concludes : computed.concluded program request (.ofAnswer (.ok value)) with ⟨outcome, left⟩
  have sameMetrics : left.evaluator.metrics = computed.evaluator.metrics :=
    Session.metrics_concluded concludes
  cases Session.finishes_of_concluded concludes with
  | clashing clashes _ =>
      rw [Core.clash?_of_distinctIdentities identities] at clashes
      cases clashes
  | kept _ leaves =>
      have vacantBelow : ResultCache.find? request computed.core.popped.cache = none := vacant
      rw [Core.kept_of_cached policy vacantBelow] at leaves
      refine ⟨left, rfl, Session.zones_concluded concludes, ?_⟩
      rw [Session.standing, leaves, sameMetrics]
      rfl

/-- A computation that has a value leaves the stack, and its value is kept. -/
theorem takes_computed {cache : ResultCache Request Value} {world : World} {metrics : Metrics}
    (identities : program.DistinctIdentities) (inZone : (program.kind request).zone = zone)
    (policy : (program.kind request).caching = .cached)
    (vacant : ResultCache.find? request before.cache = none) (notActive : request ∉ before.active)
    (computes : Takes program zone depth (program.compute request) (before.entered request)
      (.success value) ⟨⟨before.active ++ [request], cache, world⟩, metrics⟩)
    (stillVacant : ResultCache.find? request cache = none) :
    Takes program zone (depth + 1) (Computation.evaluate request) before (.success value)
      ⟨⟨before.active, cache ++ [⟨request, value⟩], world⟩, metrics⟩ := by
  rintro session accepts rfl
  subst inZone
  obtain ⟨entered, receives, acceptsEntered, standsEntered⟩ :=
    exists_entered identities policy accepts vacant notActive
  obtain ⟨computed, runs, acceptsComputed, standsComputed⟩ :=
    computes entered acceptsEntered standsEntered
  have sameCore : computed.core = ⟨session.core.active ++ [request], cache, world⟩ :=
    congrArg Standing.toCore standsComputed
  have sameWorld : computed.world = world := congrArg Core.world sameCore
  have sameMetrics : computed.evaluator.metrics = metrics :=
    congrArg Standing.metrics standsComputed
  have vacantThere : ResultCache.find? request computed.core.cache = none := by
    rw [sameCore]
    exact stillVacant
  obtain ⟨left, concludes, sameZones, standsLeft⟩ := exists_kept identities policy vacantThere
  refine ⟨left, ?_, acceptsComputed.congr sameZones, ?_⟩
  · rw [run_evaluate, evaluate_of_computing receives runs]
    exact concludes
  · rw [standsLeft, sameCore, sameWorld, sameMetrics, List.dropLast_concat]
    rfl

/-- A computation that ends abruptly leaves everything as it is at that moment. -/
theorem takes_abandoned {message : String} (identities : program.DistinctIdentities)
    (inZone : (program.kind request).zone = zone)
    (policy : (program.kind request).caching = .cached)
    (vacant : ResultCache.find? request before.cache = none) (notActive : request ∉ before.active)
    (computes : Takes program zone depth (program.compute request)
      (before.entered request) (.aborted message) after) :
    Takes program zone (depth + 1) (Computation.evaluate request) before (.aborted message)
      after := by
  rintro session accepts rfl
  subst inZone
  obtain ⟨entered, receives, acceptsEntered, standsEntered⟩ :=
    exists_entered identities policy accepts vacant notActive
  obtain ⟨computed, runs, acceptsComputed, standsComputed⟩ :=
    computes entered acceptsEntered standsEntered
  refine ⟨computed.notifyFinished (program.kind request).name, ?_,
    acceptsComputed.congr (Session.zones_notifyFinished _), ?_⟩
  · rw [run_evaluate, evaluate_of_computing receives runs]
    rfl
  · rw [Session.standing_notifyFinished]
    exact standsComputed

end Cached

/-! ### Further calls -/

section Further

variable {first session moved : Session Request Value World} {request : Request}
variable {history : List (Event Request Value World)}

/-- The sessions after further calls, whatever was computed and however it ended. In
between, everything but the evaluator may change. -/
def Later (program : Program Request Value World) (first session : Session Request Value World) :
    Prop :=
  ∃ history, Course
    (program.running (fun session => session = first) (fun _ _ _ _ => True)
      (fun session moved => moved.evaluator = session.evaluator))
    history session

/-- The zone of a request that was taken up is known from then on. -/
private theorem known_of_receive {reception : Reception (Value request)}
    (receives : session.receive program request = (reception, moved))
    (accepts : session.Accepts (program.kind request).zone) :
    (program.kind request).zone.declaration ∈ moved.evaluator.knownZones := by
  obtain ⟨met, meets, sameZones⟩ :=
    (Session.receive_eq_iff.mp receives).meets (accepts.admitted receives)
  rw [Session.knownZones_of_zones_eq sameZones]
  exact (Session.accepts_of_meets meets).2

theorem Step.known {event : Event Request Value World} (step : Step program session event moved)
    (oneZone : ∀ request, (program.kind request).zone = zone)
    (isKnown : zone.declaration ∈ session.evaluator.knownZones) :
    zone.declaration ∈ moved.evaluator.knownZones := by
  cases step with
  | @received _ request _ receives =>
      rw [← oneZone request] at isKnown ⊢
      exact known_of_receive receives (.inl isKnown)
  | finished _ concludes =>
      rwa [Session.knownZones_of_zones_eq (Session.zones_concluded concludes)]
  | abandoned => rwa [Session.evaluator_notifyFinished]
  | reported => exact isKnown
  | updated => exact isKnown

theorem Steps.known (steps : Steps program session history moved)
    (oneZone : ∀ request, (program.kind request).zone = zone)
    (isKnown : zone.declaration ∈ session.evaluator.knownZones) :
    zone.declaration ∈ moved.evaluator.knownZones := by
  induction steps with
  | nil => exact isKnown
  | cons step _ inductionHypothesis => exact inductionHypothesis (step.known oneZone isKnown)

/-- A request is taken up before anything else happens. -/
private theorem exists_received {outcome : Outcome α}
    {resume : Except Failure (Value request) → Computation Request Value World α}
    (runs : Run program (.ask request resume) session history (some outcome) moved) :
    ∃ reception rest, history = .received request reception :: rest := by
  cases runs with
  | answered _ _ _ => exact ⟨_, _, rfl⟩
  | refused _ _ => exact ⟨_, _, rfl⟩
  | returned _ _ _ _ => exact ⟨_, _, rfl⟩
  | unkept _ _ _ => exact ⟨_, _, rfl⟩
  | abandoned _ _ => exact ⟨_, _, rfl⟩

/-- The evaluator knows the only zone of its program, and its stack and its result
cache have grown on top of what they were. -/
structure Extends (program : Program Request Value World) (zone : ZoneDefinition)
    (first session : Session Request Value World) : Prop where
  known : zone.declaration ∈ session.evaluator.knownZones
  separated : Separated program session.core
  active : first.evaluator.active <+: session.evaluator.active
  cache : first.evaluator.cache <+: session.evaluator.cache

/-- Every call leaves what is on the stack and in the result cache. -/
private theorem grows_of_run {computation : Computation Request Value World α}
    {ended : Option (Outcome α)} (identities : program.DistinctIdentities)
    (separated : Separated program session.core)
    (runs : Run program computation session history ended moved) :
    Separated program moved.core ∧ session.evaluator.active <+: moved.evaluator.active ∧
      session.evaluator.cache <+: moved.evaluator.cache := by
  obtain ⟨separatedAfter, added⟩ := runs.steps.separated identities separated
  obtain ⟨opened, _, active, _⟩ := runs.nests
  exact ⟨separatedAfter, ⟨opened, active.symm⟩, ⟨_, added.symm⟩⟩

/-- An evaluation makes the zone known, and the stack and the result cache grow. -/
theorem extends_of_evaluate {outcome : Outcome (Value request)}
    (identities : program.DistinctIdentities)
    (oneZone : ∀ request, (program.kind request).zone = zone) (accepts : session.Accepts zone)
    (separated : Separated program session.core)
    (evaluates : program.evaluate depth request session = (outcome, moved))
    (decided : outcome ≠ .tooDeep) : Extends program zone session moved := by
  obtain ⟨history, runs⟩ := exists_run_of_run ((run_evaluate ..).trans evaluates) decided
  obtain ⟨separatedAfter, active, cache⟩ := grows_of_run identities separated runs
  refine ⟨?_, separatedAfter, active, cache⟩
  obtain ⟨reception, rest, rfl⟩ := exists_received runs
  cases runs.steps with
  | cons step steps =>
      apply steps.known oneZone
      cases step with
      | received receives =>
          rw [← oneZone request] at accepts ⊢
          exact known_of_receive receives accepts

/-- What further calls find, they leave. -/
theorem Later.extends (later : Later program first session)
    (identities : program.DistinctIdentities)
    (oneZone : ∀ request, (program.kind request).zone = zone)
    (isKnown : zone.declaration ∈ first.evaluator.knownZones)
    (separated : Separated program first.core) : Extends program zone first session := by
  obtain ⟨history, course⟩ := later
  induction course with
  | begun isFirst =>
      subst isFirst
      exact ⟨isKnown, separated, List.prefix_refl _, List.prefix_refl _⟩
  | called _ calls inductionHypothesis =>
      obtain ⟨_, _, _, _, runs, _⟩ := calls
      obtain ⟨separatedAfter, active, cache⟩ :=
        grows_of_run identities inductionHypothesis.separated runs
      exact ⟨runs.steps.known oneZone inductionHypothesis.known, separatedAfter,
        inductionHypothesis.active.trans active, inductionHypothesis.cache.trans cache⟩
  | @elsewhere _ session moved _ sameEvaluator inductionHypothesis =>
      have sameEvaluator : moved.evaluator = session.evaluator := sameEvaluator
      have sameCore : moved.core = { session.core with world := moved.world } := by
        rw [Session.core, sameEvaluator]
        rfl
      refine ⟨?_, ?_, ?_, ?_⟩
      · rw [sameEvaluator]
        exact inductionHypothesis.known
      · rw [sameCore]
        exact inductionHypothesis.separated.changed moved.world
      · rw [sameEvaluator]
        exact inductionHypothesis.active
      · rw [sameEvaluator]
        exact inductionHypothesis.cache

end Further

end Program

end RequestEngine
