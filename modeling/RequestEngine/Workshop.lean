import RequestEngine.Evaluator

/-!
Contract: several evaluators at work on one program.

Owns:
- what evaluators share, namely the registry, the notifications, the state of
  the program, and the handlers that receive diagnostics;
- creating evaluators that report to one common handler or to their own;
- taking one evaluator out into a session and putting it back.

Every evaluator has its own result cache, stack and counters.

Does not own: evaluation.
-/

namespace RequestEngine

/-- An evaluator with the index of the handler that it reports to. -/
structure Workplace (Request : Type) (Value : Request → Type) where
  evaluator : Evaluator Request Value
  handler : Nat

/-- Evaluators and what they share. -/
structure Workshop (Request : Type) (Value : Request → Type) (World : Type) where
  places : List (Workplace Request Value)
  handlers : List Diagnostics
  registry : Registry
  notifications : List Notification := []
  world : World

namespace Workshop

variable {Request : Type} {Value : Request → Type} {World : Type}

/-- Fresh evaluators with the same options. There is a common handler, with index
zero, and one more for every evaluator, which it reports to if `separate` is set. -/
def fresh (options : Options) (observed separate : Bool) (count : Nat) (registry : Registry)
    (world : World) : Workshop Request Value World where
  places := (List.range count).map fun index =>
    ⟨.fresh options observed, if separate then index + 1 else 0⟩
  handlers := List.replicate (count + 1) []
  registry := registry
  world := world

/-- Evaluators that a common configuration sets up: they are observed when it
asks for statistics. -/
def configured (options : Options) (separate : Bool) (count : Nat) (registry : Registry)
    (world : World) : Workshop Request Value World :=
  fresh options options.collectStatistics separate count registry world

def diagnostics (workshop : Workshop Request Value World) (handler : Nat) : Diagnostics :=
  (workshop.handlers[handler]?).getD []

def sharedDiagnostics (workshop : Workshop Request Value World) : Diagnostics :=
  workshop.diagnostics 0

def statistics (workshop : Workshop Request Value World) : Statistics :=
  .ofNotifications workshop.notifications

def session? (workshop : Workshop Request Value World) (index : Nat) :
    Option (Session Request Value World) :=
  (workshop.places[index]?).map fun place =>
    { evaluator := place.evaluator
      registry := workshop.registry
      diagnostics := workshop.diagnostics place.handler
      notifications := workshop.notifications
      world := workshop.world }

/-- The workshop after a session with one of the evaluators. -/
def after (workshop : Workshop Request Value World) (index : Nat)
    (session : Session Request Value World) : Workshop Request Value World :=
  match workshop.places[index]? with
  | none => workshop
  | some place =>
      { places := workshop.places.set index { place with evaluator := session.evaluator }
        handlers := workshop.handlers.set place.handler session.diagnostics
        registry := session.registry
        notifications := session.notifications
        world := session.world }

end Workshop

end RequestEngine
