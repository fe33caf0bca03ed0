import RequestEngine.Proofs.Steps

/-!
Contract: what the counters of an evaluator count.

Owns:
- the counter that every event increments;
- the metrics after a step as a function of its event.

This holds for every step, however the evaluation around it ends.

Does not own: how the counters relate to each other.
-/

namespace RequestEngine

variable {Request : Type} {Value : Request → Type} {World : Type}

/-- The metrics after an answer from the cache of a policy. -/
def Metrics.countHit (metrics : Metrics) : CachePolicy → Metrics
  | .uncached => metrics
  | .cached => { metrics with cacheHits := metrics.cacheHits + 1 }
  | .separatelyCached => { metrics with externalCacheHits := metrics.externalCacheHits + 1 }

namespace Metrics

variable (metrics : Metrics) (policy : CachePolicy)

@[simp]
theorem computations_countHit :
    (metrics.countHit policy).computations = metrics.computations := by
  cases policy <;> rfl

@[simp]
theorem failures_countHit : (metrics.countHit policy).failures = metrics.failures := by
  cases policy <;> rfl

@[simp]
theorem cyclesDetected_countHit :
    (metrics.countHit policy).cyclesDetected = metrics.cyclesDetected := by
  cases policy <;> rfl

/-- An answer from a cache is one hit in one of the two kinds of caches. -/
theorem hits_countHit {policy : CachePolicy} (memoized : policy ≠ .uncached) :
    (metrics.countHit policy).cacheHits + (metrics.countHit policy).externalCacheHits =
      metrics.cacheHits + metrics.externalCacheHits + 1 := by
  cases policy with
  | uncached => exact absurd rfl memoized
  | cached => exact Nat.add_right_comm _ _ _
  | separatelyCached => rfl

end Metrics

/-- The metrics after an event. -/
def Event.count (kind : Request → RequestKind) (metrics : Metrics) :
    Event Request Value World → Metrics
  | .received request (.held _) => metrics.countHit (kind request).caching
  | .received _ (.rejected _ _) => { metrics with cyclesDetected := metrics.cyclesDetected + 1 }
  | .received _ .computing => { metrics with computations := metrics.computations + 1 }
  | .finished _ (.error _) => { metrics with failures := metrics.failures + 1 }
  | .received _ (.conflicting _) | .received _ (.refused _) | .finished _ (.ok _)
  | .abandoned _ | .reported _ | .updated _ => metrics

namespace Session

variable {program : Program Request Value World} {request : Request}
variable {session met after : Session Request Value World}

theorem metrics_of_meets {zone : ZoneDefinition} {conflict : Option ZoneConflict}
    (meets : session.meetZone zone = (conflict, met)) :
    met.evaluator.metrics = session.evaluator.metrics := by
  unfold meetZone at meets
  split at meets
  · cases meets
    rfl
  · unfold registerZone at meets
    split at meets <;> cases meets <;> rfl

theorem metrics_countHit :
    (session.countHit program request).evaluator.metrics =
      session.evaluator.metrics.countHit (program.kind request).caching := by
  unfold countHit
  cases (program.kind request).caching <;> rfl

theorem metrics_entered :
    (session.entered program request).evaluator.metrics =
      { session.evaluator.metrics with
        computations := session.evaluator.metrics.computations + 1 } := by
  unfold entered
  rw [evaluator_notifyStarted]
  rfl

variable [DecidableEq Request]

theorem metrics_rejected :
    (session.rejected program request).evaluator.metrics =
      { session.evaluator.metrics with
        cyclesDetected := session.evaluator.metrics.cyclesDetected + 1 } := by
  unfold rejected
  split <;> rfl

theorem metrics_kept {value : Value request}
    (keeps : session.kept program request value = .ok after) :
    after.evaluator.metrics = session.evaluator.metrics := by
  unfold kept at keeps
  split at keeps
  · cases keeps
    rfl
  · cases inserts : session.evaluator.cache.insert program.kind request value with
    | error clash =>
        rw [inserts] at keeps
        cases keeps
    | ok inserted =>
        rw [inserts] at keeps
        cases keeps
        rfl
  · cases keeps
    rfl

/-- Taking a request up counts the way in which it is settled, or the start of
its computation. -/
theorem Receives.metrics_eq {reception : Reception (Value request)}
    (received : Receives program request session reception after) :
    after.evaluator.metrics =
      (Event.received request reception : Event Request Value World).count program.kind
        session.evaluator.metrics := by
  have sameMetrics : ∀ {conflict met},
      session.meetZone (program.kind request).zone = (conflict, met) →
        (met.recorded request).evaluator.metrics = session.evaluator.metrics := by
    intro conflict met meets
    show met.evaluator.metrics = session.evaluator.metrics
    exact metrics_of_meets meets
  cases received with
  | conflicting meets => exact metrics_of_meets meets
  | refused meets _ => exact sameMetrics meets
  | held meets _ _ =>
      rw [metrics_countHit, sameMetrics meets]
      rfl
  | rejected meets _ _ _ =>
      rw [metrics_rejected, sameMetrics meets]
      rfl
  | computing meets _ _ _ =>
      rw [metrics_entered, sameMetrics meets]
      rfl

/-- Finishing a computation counts its failure. A value counts for nothing,
whether it can be kept or not. -/
theorem metrics_concluded {answer : Except Failure (Value request)}
    {outcome : Outcome (Value request)}
    (concludes : session.concluded program request (.ofAnswer answer) = (outcome, after)) :
    after.evaluator.metrics =
      (Event.finished request answer : Event Request Value World).count program.kind
        session.evaluator.metrics := by
  have sameMetrics :
      (session.notifyFinished (program.kind request).name).evaluator.metrics =
        session.evaluator.metrics := by
    rw [evaluator_notifyFinished]
  cases answer with
  | error failure =>
      cases concludes
      rw [← sameMetrics]
      rfl
  | ok value =>
      simp only [concluded, Outcome.ofAnswer] at concludes
      split at concludes
      case h_1 stored keeps =>
        cases concludes
        rw [metrics_kept keeps]
        exact sameMetrics
      case h_2 clash _ =>
        cases concludes
        exact sameMetrics

end Session

namespace Program

variable [DecidableEq Request] {program : Program Request Value World}
variable {session after final : Session Request Value World}

/-- Every step counts its event. -/
theorem Step.metrics_eq {event : Event Request Value World}
    (step : Step program session event after) :
    after.evaluator.metrics = event.count program.kind session.evaluator.metrics := by
  cases step with
  | received receives => exact (Session.receive_eq_iff.mp receives).metrics_eq
  | finished _ concludes => exact Session.metrics_concluded concludes
  | abandoned =>
      rw [Session.evaluator_notifyFinished]
      rfl
  | reported => rfl
  | updated => rfl

end Program

end RequestEngine
