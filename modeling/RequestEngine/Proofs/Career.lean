import RequestEngine.Proofs.Lifetime
import RequestEngine.Proofs.Registration

/-!
Contract: the career of an evaluator that only its own calls change.

Owns:
- the sessions that such an evaluator visits, between calls and in the middle of
  them;
- the events of a history that grows by one event;
- invariants of a career, from invariants of its steps.

A lifetime tolerates that counters, recorded dependencies and met zones change
between calls. In a career they do not. What the evaluator shares with others
still changes: the registry gains zones, and everything else changes at will.
Calls may end abruptly, and the career goes on.

Does not own: particular invariants.
-/

namespace RequestEngine

/-- After one more event, an event of a history is that one or an earlier one. -/
theorem newest_or_earlier {Request : Type} {Value : Request → Type} {World : Type}
    {newest event : Event Request Value World}
    {past earlier later : List (Event Request Value World)}
    (parts : past ++ [newest] = earlier ++ event :: later) :
    (past = earlier ∧ newest = event) ∨ ∃ further, past = earlier ++ event :: further := by
  rcases List.eq_nil_or_concat later with rfl | ⟨further, last, rfl⟩
  · exact .inl (List.append_singleton_inj.mp parts)
  · rw [List.concat_eq_append, ← List.cons_append, ← List.append_assoc] at parts
    exact .inr ⟨further, (List.append_singleton_inj.mp parts).1⟩

namespace Program

variable {Request : Type} [DecidableEq Request] {Value : Request → Type} {World : Type}

/-- What may happen to an evaluator that was created with some options. -/
def career (program : Program Request Value World) (options : Options) :
    Conduct (Session Request Value World) (Event Request Value World) :=
  program.running (fun session => ∃ observed, session.evaluator = .fresh options observed)
    (fun _ _ _ _ => True)
    (fun session after =>
      after.evaluator = session.evaluator ∧ session.registry.Below after.registry)

/-- The sessions of an evaluator between calls and in the middle of them. -/
def Visits (program : Program Request Value World) (options : Options) :
    List (Event Request Value World) → Session Request Value World → Prop :=
  Visited (program.career options)

variable {program : Program Request Value World} {options : Options}
variable {session : Session Request Value World} {history : List (Event Request Value World)}

theorem Visits.created {observed : Bool}
    (isFresh : session.evaluator = .fresh options observed) : Visits program options [] session :=
  .between (.begun ⟨observed, isFresh⟩)

/-- The session after a first call. -/
theorem Visits.called {observed : Bool} {α : Type} {computation : Computation Request Value World α}
    {outcome : Outcome α} {after : Session Request Value World}
    (isFresh : session.evaluator = .fresh options observed)
    (runs : Run program computation session history (some outcome) after) :
    Visits program options history after :=
  have first : Course (program.career options) [] session := .begun ⟨observed, isFresh⟩
  .between (first.called ⟨α, computation, _, rfl, runs, trivial⟩)

/-- What holds at the beginning and is preserved by every step and by what
happens elsewhere holds in every session that is visited. -/
theorem Visits.preserves
    (invariant : List (Event Request Value World) → Session Request Value World → Prop)
    (visits : Visits program options history session)
    (created : ∀ {session : Session Request Value World} {observed : Bool},
      session.evaluator = .fresh options observed → invariant [] session)
    (step : ∀ {past : List (Event Request Value World)} {event : Event Request Value World}
      {before after : Session Request Value World}, Step program before event after →
      invariant past before → invariant (past ++ [event]) after)
    (elsewhere : ∀ {past : List (Event Request Value World)}
      {before after : Session Request Value World}, after.evaluator = before.evaluator →
      before.registry.Below after.registry → invariant past before → invariant past after) :
    invariant history session := by
  refine Visited.preserves invariant visits ?_ ?_ ?_
  · rintro session ⟨observed, isFresh⟩
    exact created isFresh
  · rintro _ _ history session _ ⟨_, _, _, _, runs, _⟩
    have undisturbed : Undisturbed program (fun _ _ => True) session history :=
      fun _ _ _ _ _ _ => trivial
    exact runs.steps.preserves invariant (fun happens _ => step happens) undisturbed
  · rintro _ _ _ ⟨sameEvaluator, below⟩
    exact elsewhere sameEvaluator below

end Program

end RequestEngine
