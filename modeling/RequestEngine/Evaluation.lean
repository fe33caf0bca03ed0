import RequestEngine.Evaluator

/-!
Contract: demand-driven evaluation of requests.

Owns:
- answering a request from a cache, or else by its computation, which may ask
  for further requests;
- rejecting a request that is being computed already, with its diagnostics;
- keeping successful values according to the caching policy;
- running a computation against an evaluator.

The order of events is fixed. The zone of the request is registered, the
dependency is recorded, the caches are consulted, a cycle is looked for, and
only then does the computation start. A failure is never kept.

The first argument of `evaluate` bounds how deeply evaluations nest. Running
out of it is an outcome of its own, which nothing can catch.

Does not own: programs.
-/

namespace RequestEngine

/-- How an evaluation ends. -/
inductive Outcome (α : Type) where
  /-- With a value. -/
  | success (value : α)
  /-- With a failure that the caller may handle. -/
  | failed (failure : Failure)
  /-- Abruptly; no caller can handle this. -/
  | aborted (message : String)
  /-- Without having been decided, because evaluations nested too deeply. -/
  | tooDeep
deriving DecidableEq, Repr

def Outcome.map {α β : Type} (change : α → β) : Outcome α → Outcome β
  | .success value => .success (change value)
  | .failed failure => .failed failure
  | .aborted message => .aborted message
  | .tooDeep => .tooDeep

/-- What the caches say about a request. -/
inductive CacheAnswer (α : Type) where
  | held (value : α)
  | missing
  | refused (clash : IdentityClash)

namespace Session

variable {Request : Type} [DecidableEq Request] {Value : Request → Type} {World : Type}

/-- The field that shows a request in a log event. -/
def requestField (vocabulary : Vocabulary Request) (request : Request) : LogField :=
  ⟨"request", vocabulary.display request⟩

omit [DecidableEq Request] in
/-- Registers a zone, unless its id is claimed by another one. -/
def registerZone (zone : ZoneDefinition) (session : Session Request Value World) :
    Option ZoneConflict × Session Request Value World :=
  match session.registry.register zone with
  | .alreadyHeld => (none, session)
  | .conflict conflict => (some conflict, session)
  | .added registry =>
      (none,
        { session with registry := registry }.logged .debug registryTarget "registered type zone"
          [⟨"zone", Text.quoted zone.name⟩, ⟨"id", toString zone.id.toNat⟩,
            ⟨"entries", toString zone.entries.length⟩])

omit [DecidableEq Request] in
/-- Registers the zone of a request when the evaluator meets it for the first
time. The zone counts as met even when its registration is refused. -/
def meetZone (zone : ZoneDefinition) (session : Session Request Value World) :
    Option ZoneConflict × Session Request Value World :=
  if zone.declaration ∈ session.evaluator.knownZones then (none, session)
  else
    registerZone zone
      { session with
        evaluator := { session.evaluator with
          knownZones := session.evaluator.knownZones ++ [zone.declaration] } }

/-- Records that the request on top of the stack asks for another one. -/
def recorded (request : Request) (session : Session Request Value World) :
    Session Request Value World :=
  { session with
    evaluator := { session.evaluator with
      recorder := session.evaluator.recorder.map
        (·.record session.evaluator.active.getLast? request) } }

/-- Looks a request up in the cache that its policy names. -/
def consult (program : Program Request Value World) (request : Request)
    (session : Session Request Value World) : CacheAnswer (Value request) :=
  match (program.kind request).caching with
  | .uncached => .missing
  | .cached =>
      match session.evaluator.cache.get program.kind request with
      | .error clash => .refused clash
      | .ok (some value) => .held value
      | .ok none => .missing
  | .separatelyCached =>
      match program.stored session.world request with
      | some value => .held value
      | none => .missing

omit [DecidableEq Request] in
def countHit (program : Program Request Value World) (request : Request)
    (session : Session Request Value World) : Session Request Value World :=
  match (program.kind request).caching with
  | .uncached => session
  | .cached =>
      (session.counted fun metrics => { metrics with cacheHits := metrics.cacheHits + 1 }).logged
        .debug evaluatorTarget "cache hit" [requestField program.toVocabulary request]
  | .separatelyCached =>
      (session.counted fun metrics =>
        { metrics with externalCacheHits := metrics.externalCacheHits + 1 }).logged
        .debug evaluatorTarget "external cache hit" [requestField program.toVocabulary request]

/-- The active requests from a given one on, outermost first. -/
def cycleSteps (request : Request) (active : List Request) : List Request :=
  active.dropWhile (· ≠ request)

omit [DecidableEq Request] in
/-- The diagnostics of a cycle: the primary one about the request that the cycle
leads back to, then one for every further step, the rejected request included. -/
def cycleReport (program : Program Request Value World) (request : Request) :
    List Request → List Diagnostic
  | [] => program.stepDiagnostics request
  | first :: further =>
      program.cycleDiagnostics first ++ further.flatMap program.stepDiagnostics ++
        program.stepDiagnostics request

def cycleError (program : Program Request Value World) (request : Request)
    (session : Session Request Value World) : CycleError where
  request := program.display request
  chain := (cycleSteps request session.evaluator.active).map program.display ++
    [program.display request]

/-- Counts and reports a cycle that ends at a rejected request. -/
def rejected (program : Program Request Value World) (request : Request)
    (session : Session Request Value World) : Session Request Value World :=
  let error := session.cycleError program request
  let diagnosed :=
    (session.counted fun metrics =>
      { metrics with cyclesDetected := metrics.cyclesDetected + 1 }).reported
      (cycleReport program request (cycleSteps request session.evaluator.active))
  let fields := [requestField program.toVocabulary request]
  if session.evaluator.options.debugCycles then
    diagnosed.logged .warn evaluatorTarget error.message fields
  else
    diagnosed.logged .debug evaluatorTarget "cycle detected" fields

omit [DecidableEq Request] in
/-- Puts a request on the stack and announces its computation. -/
def entered (program : Program Request Value World) (request : Request)
    (session : Session Request Value World) : Session Request Value World :=
  let active := session.evaluator.active ++ [request]
  let field := requestField program.toVocabulary request
  let pushed :=
    { session with evaluator := { session.evaluator with active := active } }.logged
      .trace evaluatorTarget "push" [⟨"depth", toString active.length⟩, field]
  let started :=
    (pushed.counted fun metrics =>
      { metrics with computations := metrics.computations + 1 }).logged
      .debug evaluatorTarget "computing" [field]
  started.notifyStarted (program.kind request).name (program.displayInputs request)

omit [DecidableEq Request] in
def popped (program : Program Request Value World) (request : Request)
    (session : Session Request Value World) : Session Request Value World :=
  let active := session.evaluator.active.dropLast
  { session with evaluator := { session.evaluator with active := active } }.logged
    .trace evaluatorTarget "pop"
      [⟨"depth", toString active.length⟩, requestField program.toVocabulary request]

def kept (program : Program Request Value World) (request : Request) (value : Value request)
    (session : Session Request Value World) :
    Except IdentityClash (Session Request Value World) :=
  match (program.kind request).caching with
  | .uncached => .ok session
  | .cached =>
      (session.evaluator.cache.insert program.kind request value).map fun inserted =>
        { session with evaluator := { session.evaluator with cache := inserted.2 } }
  | .separatelyCached => .ok { session with world := program.store session.world request value }

omit [DecidableEq Request] in
def failedComputation (program : Program Request Value World) (request : Request)
    (failure : Failure) (session : Session Request Value World) :
    Session Request Value World :=
  (session.counted fun metrics => { metrics with failures := metrics.failures + 1 }).logged
    .debug evaluatorTarget "computation failed"
      [requestField program.toVocabulary request, ⟨"error", failure.message⟩]

/-- Concludes the computation of a request. An abrupt end is noticed by the
observers, but leaves the request on the stack. -/
def concluded (program : Program Request Value World) (request : Request)
    (outcome : Outcome (Value request)) (session : Session Request Value World) :
    Outcome (Value request) × Session Request Value World :=
  let finished := session.notifyFinished (program.kind request).name
  match outcome with
  | .aborted message => (.aborted message, finished)
  | .tooDeep => (.tooDeep, finished)
  | .failed failure =>
      (.failed failure, (finished.popped program request).failedComputation program request failure)
  | .success value =>
      let left := finished.popped program request
      match left.kept program request value with
      | .ok stored => (.success value, stored)
      | .error clash => (.aborted clash.message, left)

end Session

/-- Runs a computation. `answer` decides the requests it asks for. -/
def Computation.run {Request : Type} [DecidableEq Request] {Value : Request → Type}
    {World α : Type} (vocabulary : Vocabulary Request)
    (answer : (request : Request) → Session Request Value World →
      Outcome (Value request) × Session Request Value World) :
    Computation Request Value World α → Session Request Value World →
      Outcome α × Session Request Value World
  | .done value, session => (.success value, session)
  | .fail failure, session => (.failed failure, session)
  | .abort message, session => (.aborted message, session)
  | .ask request resume, session =>
      match answer request session with
      | (.success value, after) => (resume (.ok value)).run vocabulary answer after
      | (.failed failure, after) => (resume (.error failure)).run vocabulary answer after
      | (.aborted message, after) => (.aborted message, after)
      | (.tooDeep, after) => (.tooDeep, after)
  | .activeRequests resume, session =>
      (resume (session.evaluator.active.map vocabulary.display)).run vocabulary answer session
  | .isActive request resume, session =>
      (resume (request ∈ session.evaluator.active)).run vocabulary answer session
  | .isCached request resume, session =>
      match session.evaluator.cache.contains vocabulary.kind request with
      | .ok held => (resume held).run vocabulary answer session
      | .error clash => (.aborted clash.message, session)
  | .report diagnostic next, session =>
      next.run vocabulary answer (session.reported [diagnostic])
  | .read resume, session => (resume session.world).run vocabulary answer session
  | .update change next, session =>
      next.run vocabulary answer { session with world := change session.world }

namespace Program

variable {Request : Type} [DecidableEq Request] {Value : Request → Type} {World : Type}

/-- Evaluates a request; evaluations nest at most as deeply as the first
argument says. -/
def evaluate (program : Program Request Value World) :
    Nat → (request : Request) → Session Request Value World →
      Outcome (Value request) × Session Request Value World
  | 0, _, session => (.tooDeep, session)
  | depth + 1, request, session =>
      match session.meetZone (program.kind request).zone with
      | (some conflict, met) => (.aborted conflict.message, met)
      | (none, met) =>
          let asked := met.recorded request
          match asked.consult program request with
          | .refused clash => (.aborted clash.message, asked)
          | .held value => (.success value, asked.countHit program request)
          | .missing =>
              if request ∈ asked.evaluator.active then
                (.failed (.cycle (asked.cycleError program request)),
                  asked.rejected program request)
              else
                let (outcome, computed) :=
                  (program.compute request).run program.toVocabulary
                    (fun nested => program.evaluate depth nested)
                    (asked.entered program request)
                computed.concluded program request outcome

/-- Runs a computation whose requests the program answers. -/
def run {α : Type} (program : Program Request Value World) (depth : Nat)
    (computation : Computation Request Value World α) (session : Session Request Value World) :
    Outcome α × Session Request Value World :=
  computation.run program.toVocabulary (program.evaluate depth) session

/-- Evaluating a single request is the simplest computation. -/
theorem run_evaluate (program : Program Request Value World) (depth : Nat)
    (request : Request) (session : Session Request Value World) :
    program.run depth (Computation.evaluate request) session =
      program.evaluate depth request session := by
  unfold run Computation.evaluate
  rw [Computation.run]
  split <;> simp_all [Computation.run]

end Program

end RequestEngine
