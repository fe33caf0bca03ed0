import RequestEngine.Cache
import RequestEngine.Dependencies
import RequestEngine.Log
import RequestEngine.Options
import RequestEngine.Program
import RequestEngine.Statistics
import RequestEngine.Zone.Registry

/-!
Contract: the state in which requests are evaluated.

Owns:
- evaluators: options, result cache, stack of active requests, recorded
  dependencies and counters;
- sessions: an evaluator together with everything it shares with others, namely
  the zone registry, the receivers of diagnostics, notifications and log events,
  and the state of the program.

Does not own: how an evaluation changes that state; `Evaluation` does.
-/

namespace RequestEngine

/-- Counters of what an evaluator has done so far. -/
structure Metrics where
  /-- Answers from the result cache. -/
  cacheHits : Nat := 0
  /-- Answers from the storage of a kind. -/
  externalCacheHits : Nat := 0
  /-- Computations started. -/
  computations : Nat := 0
  /-- Computations that ended with a failure, their own or a passed on one. -/
  failures : Nat := 0
  /-- Requests rejected because they were being computed already. -/
  cyclesDetected : Nat := 0
deriving DecidableEq, Repr, Inhabited

def Metrics.toList (metrics : Metrics) : List Nat :=
  [metrics.cacheHits, metrics.externalCacheHits, metrics.computations, metrics.failures,
    metrics.cyclesDetected]

/-- An evaluator. -/
structure Evaluator (Request : Type) (Value : Request → Type) where
  options : Options := {}
  /-- Whether notifications about computations are sent. -/
  observed : Bool := false
  cache : ResultCache Request Value := []
  /-- The requests being computed, outermost first. -/
  active : List Request := []
  /-- The recorded dependencies, when they are recorded. -/
  recorder : Option (Recorder Request) := none
  metrics : Metrics := {}
  /-- The zone definitions that this evaluator has met, by their declarations. -/
  knownZones : List Nat := []

def Evaluator.fresh {Request : Type} {Value : Request → Type} (options : Options)
    (observed : Bool) : Evaluator Request Value where
  options := options
  observed := observed
  recorder := if options.recordDependencies then some {} else none

/-- An evaluator with its surroundings. -/
structure Session (Request : Type) (Value : Request → Type) (World : Type) where
  evaluator : Evaluator Request Value
  registry : Registry := .initial
  /-- The diagnostics reported so far. -/
  diagnostics : Diagnostics := []
  /-- The notifications sent so far. -/
  notifications : List Notification := []
  /-- The times that the next computations to finish will have taken. A missing
  time counts as none. -/
  clock : List Duration := []
  /-- The events logged so far. -/
  log : List LogEvent := []
  world : World

namespace Session

variable {Request : Type} {Value : Request → Type} {World : Type}

def evaluatorTarget : String := "reqeval_core::evaluator"

/-- Where log events of zone registrations come from. -/
def registryTarget : String := "reqeval_core::type_id::registry"

def logged (session : Session Request Value World) (level : LogLevel) (target message : String)
    (fields : List LogField) : Session Request Value World :=
  { session with log := session.log ++ [⟨level, target, message, fields⟩] }

def reported (session : Session Request Value World) (diagnostics : List Diagnostic) :
    Session Request Value World :=
  { session with diagnostics := session.diagnostics ++ diagnostics }

def counted (session : Session Request Value World) (change : Metrics → Metrics) :
    Session Request Value World :=
  { session with
    evaluator := { session.evaluator with metrics := change session.evaluator.metrics } }

/-- Sends the notification that a computation starts. -/
def notifyStarted (session : Session Request Value World) (kind inputs : String) :
    Session Request Value World :=
  if session.evaluator.observed then
    { session with notifications := session.notifications ++ [.started kind inputs] }
  else session

/-- Sends the notification that a computation has ended. -/
def notifyFinished (session : Session Request Value World) (kind : String) :
    Session Request Value World :=
  if session.evaluator.observed then
    { session with
      notifications :=
        session.notifications ++ [.finished kind (session.clock.headD .zero)]
      clock := session.clock.drop 1 }
  else session

@[simp]
theorem evaluator_logged (session : Session Request Value World) (level : LogLevel)
    (target message : String) (fields : List LogField) :
    (session.logged level target message fields).evaluator = session.evaluator := rfl

@[simp]
theorem evaluator_reported (session : Session Request Value World)
    (diagnostics : List Diagnostic) :
    (session.reported diagnostics).evaluator = session.evaluator := rfl

@[simp]
theorem evaluator_notifyStarted (session : Session Request Value World) (kind inputs : String) :
    (session.notifyStarted kind inputs).evaluator = session.evaluator := by
  unfold notifyStarted
  split <;> rfl

@[simp]
theorem evaluator_notifyFinished (session : Session Request Value World) (kind : String) :
    (session.notifyFinished kind).evaluator = session.evaluator := by
  unfold notifyFinished
  split <;> rfl

end Session

end RequestEngine
