import RequestEngine.Proofs.Steps

/-!
Contract: calls one after the other.

Owns:
- what may happen to a state, as a condition on its beginning, on calls and on
  what others do between calls;
- the states between calls and in the middle of them, with what the calls leave
  on record;
- evaluators that run computations, and evaluators that answer requests.

Lifetimes, careers and sequences of evaluations are such courses. They differ in
what a call may be and in what others may change.

Does not own: particular conditions.
-/

namespace RequestEngine

/-- How a state begins, what calls do to it, and what others do to it between calls.
A call leaves entries on record. It has ended, or it is still under way. -/
structure Conduct (State Entry : Type) where
  begins : State → Prop
  calls (hasEnded : Bool) : State → List Entry → State → Prop
  others : State → State → Prop

variable {State Entry : Type} {conduct other : Conduct State Entry}
variable {past : List Entry} {state : State}

/-- The states between calls. -/
inductive Course (conduct : Conduct State Entry) : List Entry → State → Prop where
  | begun {state : State} (begins : conduct.begins state) : Course conduct [] state
  | called {past entries : List Entry} {state after : State} (before : Course conduct past state)
      (calls : conduct.calls true state entries after) : Course conduct (past ++ entries) after
  | elsewhere {past : List Entry} {state after : State} (before : Course conduct past state)
      (changes : conduct.others state after) : Course conduct past after

/-- The states between calls and in the middle of them. -/
inductive Visited (conduct : Conduct State Entry) : List Entry → State → Prop where
  | between {past : List Entry} {state : State} (course : Course conduct past state) :
      Visited conduct past state
  | during {past entries : List Entry} {state moment : State} (before : Course conduct past state)
      (calls : conduct.calls false state entries moment) : Visited conduct (past ++ entries) moment

/-- What holds at the beginning and is preserved by calls, ended or not, and by what
others do, holds in every state that is visited. -/
theorem Visited.preserves (invariant : List Entry → State → Prop)
    (visited : Visited conduct past state)
    (begun : ∀ {state}, conduct.begins state → invariant [] state)
    (called : ∀ {hasEnded past entries state after}, conduct.calls hasEnded state entries after →
      invariant past state → invariant (past ++ entries) after)
    (elsewhere : ∀ {past state after}, conduct.others state after → invariant past state →
      invariant past after) :
    invariant past state := by
  have throughout : ∀ {past state}, Course conduct past state → invariant past state := by
    intro past state course
    induction course with
    | begun begins => exact begun begins
    | called _ calls inductionHypothesis => exact called calls inductionHypothesis
    | elsewhere _ changes inductionHypothesis => exact elsewhere changes inductionHypothesis
  cases visited with
  | between course => exact throughout course
  | during before calls => exact called calls (throughout before)

/-- Where more may happen, more is visited. -/
theorem Visited.mono (visited : Visited conduct past state)
    (begun : ∀ {state}, conduct.begins state → other.begins state)
    (called : ∀ {hasEnded state entries after}, conduct.calls hasEnded state entries after →
      other.calls hasEnded state entries after)
    (elsewhere : ∀ {state after}, conduct.others state after → other.others state after) :
    Visited other past state := by
  have throughout : ∀ {past state}, Course conduct past state → Course other past state := by
    intro past state course
    induction course with
    | begun begins => exact .begun (begun begins)
    | called _ calls inductionHypothesis => exact .called inductionHypothesis (called calls)
    | elsewhere _ changes inductionHypothesis =>
        exact .elsewhere inductionHypothesis (elsewhere changes)
  cases visited with
  | between course => exact .between (throughout course)
  | during before calls => exact .during (throughout before) (called calls)

namespace Program

variable {Request : Type} [DecidableEq Request] {Value : Request → Type} {World : Type}

/-- An evaluator that runs computations of any kind, such as one evaluation or
several. Its record are the events. -/
def running (program : Program Request Value World) (begins : Session Request Value World → Prop)
    (allows : {α : Type} → Session Request Value World → List (Event Request Value World) →
      Option (Outcome α) → Session Request Value World → Prop)
    (others : Session Request Value World → Session Request Value World → Prop) :
    Conduct (Session Request Value World) (Event Request Value World) where
  begins := begins
  calls hasEnded session history after :=
    ∃ (α : Type) (computation : Computation Request Value World α) (ended : Option (Outcome α)),
      ended.isSome = hasEnded ∧ Run program computation session history ended after ∧
      allows session history ended after
  others := others

/-- An evaluator that answers requests, without anybody else. Its record are the
requests with their answers. -/
def answering (program : Program Request Value World) (first : Session Request Value World)
    (allows : Session Request Value World → Session Request Value World → Prop) :
    Conduct (Session Request Value World) ((request : Request) × Except Failure (Value request))
    where
  begins session := session = first
  calls hasEnded session answers after :=
    hasEnded = true ∧ ∃ request depth answer, answers = [⟨request, answer⟩] ∧
      program.evaluate depth request session = (.ofAnswer answer, after) ∧ allows session after
  others _ _ := False

variable {program : Program Request Value World} {first session after : Session Request Value World}
variable {answers : List ((request : Request) × Except Failure (Value request))}

/-- The sessions after evaluations one after the other, with the requests that
were evaluated and their answers. -/
def Answers (program : Program Request Value World) (first : Session Request Value World) :
    List ((request : Request) × Except Failure (Value request)) → Session Request Value World →
      Prop :=
  Course (program.answering first fun _ _ => True)

/-- One more evaluation that is answered. -/
theorem answered {allows : Session Request Value World → Session Request Value World → Prop}
    {request : Request} {depth : Nat} {answer : Except Failure (Value request)}
    (before : Course (program.answering first allows) answers session)
    (evaluates : program.evaluate depth request session = (.ofAnswer answer, after))
    (allowed : allows session after) :
    Course (program.answering first allows) (answers ++ [⟨request, answer⟩]) after :=
  before.called ⟨rfl, request, depth, answer, rfl, evaluates, allowed⟩

end Program

end RequestEngine
