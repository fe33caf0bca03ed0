import RequestEngine.Fixtures
import RequestEngine.Proofs.Lifetime

/-!
Contract: the discipline of the stack of active requests.

Owns:
- what every step does to the absence of repetitions on the stack;
- the stack before, during and after evaluations of every kind.

A computation that ends takes the last request off the stack, whichever that
is. It is the right one because every nested evaluation that was answered has
left the stack as it found it.

Does not own: what the caches hold for requests on the stack.
-/

namespace RequestEngine

namespace Program

variable {Request : Type} [DecidableEq Request] {Value : Request → Type} {World : Type}
variable {program : Program Request Value World} {session after : Session Request Value World}

theorem Step.nodup_active {event : Event Request Value World}
    (step : Step program session event after) (distinct : session.evaluator.active.Nodup) :
    after.evaluator.active.Nodup := by
  have tracks := step.track_active
  cases step with
  | @received _ request reception receives =>
      cases Session.receive_eq_iff.mp receives with
      | computing meets noClash vacant notActive =>
          have active := Option.some.inj tracks
          have together := nodup_appendNew distinct request
          rw [appendNew, if_neg notActive] at together
          rwa [← active]
      | _ => exact Option.some.inj tracks ▸ distinct
  | finished onTop concludes =>
      rw [(Session.finishes_of_concluded concludes).active_eq]
      exact distinct.sublist (List.dropLast_sublist _)
  | _ => exact Option.some.inj tracks ▸ distinct

theorem Steps.nodup_active {history : List (Event Request Value World)}
    (steps : Steps program session history after) (distinct : session.evaluator.active.Nodup) :
    after.evaluator.active.Nodup := by
  induction steps with
  | nil => exact distinct
  | cons first _ inductionHypothesis => exact inductionHypothesis (first.nodup_active distinct)

/-- The stack of an evaluator never holds a request twice. -/
theorem Reached.nodup_active {permitted : World → World → Prop}
    {history : List (Event Request Value World)}
    (reached : Reached program permitted history session) : session.evaluator.active.Nodup := by
  refine reached.preserves (fun _ session => session.evaluator.active.Nodup) ?_ ?_ ?_
  · intro session isEmpty _
    rw [isEmpty]
    exact List.nodup_nil
  · intro _ _ before after step _ distinct
    exact step.nodup_active distinct
  · intro _ before after sameActive _ _ distinct
    rwa [sameActive]

/-- A computation that is answered leaves the stack as it found it. -/
theorem active_of_answer {α : Type} {depth : Nat} {computation : Computation Request Value World α}
    {answer : Except Failure α}
    (runs : program.run depth computation session = (.ofAnswer answer, after)) :
    after.evaluator.active = session.evaluator.active := by
  obtain ⟨history, reaches⟩ := exists_run_of_run runs (by simp)
  obtain ⟨opened, _, active, closed⟩ := reaches.nests
  rw [active, closed answer rfl, List.append_nil]

end Program

end RequestEngine
