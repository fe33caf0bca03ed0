import Mathlib.Logic.Relation
import RequestEngine.Proofs.Lifetime

/-!
Contract: the ways in which computations may go on.

Owns:
- the computations that a computation may go on as, whatever evaluator runs it,
  and the requests that it may ask for on the way;
- that every evaluator stays within them, in all sessions that it reaches.

Possibilities leave open what an evaluator knows and in which order things
happen. They are narrow enough to tell which requests can be reached: a request
is answered as its own computation may end, from storage, or with a cycle error.

Does not own: which of the possibilities come true.
-/

namespace RequestEngine

variable {Request : Type} {Value : Request → Type} {World : Type} {α β : Type}

/-- The computation that ends with an answer at once. -/
def Computation.ofAnswer : Except Failure α → Computation Request Value World α
  | .ok value => .done value
  | .error failure => .fail failure

namespace Program

/-! ### What a computation may ask for -/

mutual

/-- A request may be answered as its computation may end, from storage, or with
a cycle error. -/
inductive MayAnswer (program : Program Request Value World) :
    (request : Request) → Except Failure (Value request) → Prop where
  | computed {request : Request} {answer : Except Failure (Value request)}
      (ends : LeadsTo program (program.compute request) (.ofAnswer answer)) :
      MayAnswer program request answer
  | stored {request : Request} {world : World} {value : Value request}
      (stores : program.storedOutside world request = some value) :
      MayAnswer program request (.ok value)
  | rejected {request : Request} {error : CycleError} :
      MayAnswer program request (.error (.cycle error))

/-- A computation may go on as another one. What it learns from its evaluator
and from the state of the program may be anything. -/
inductive LeadsTo (program : Program Request Value World) :
    {α : Type} → Computation Request Value World α → Computation Request Value World α → Prop
    where
  | refl {α : Type} {computation : Computation Request Value World α} :
      LeadsTo program computation computation
  | ask {α : Type} {request : Request} {answer : Except Failure (Value request)}
      {resume : Except Failure (Value request) → Computation Request Value World α}
      {later : Computation Request Value World α} (answers : MayAnswer program request answer)
      (resumes : LeadsTo program (resume answer) later) :
      LeadsTo program (.ask request resume) later
  | activeRequests {α : Type} {displays : List String}
      {resume : List String → Computation Request Value World α}
      {later : Computation Request Value World α}
      (resumes : LeadsTo program (resume displays) later) :
      LeadsTo program (.activeRequests resume) later
  | isActive {α : Type} {request : Request} {holds : Bool}
      {resume : Bool → Computation Request Value World α}
      {later : Computation Request Value World α} (resumes : LeadsTo program (resume holds) later) :
      LeadsTo program (.isActive request resume) later
  | isCached {α : Type} {request : Request} {holds : Bool}
      {resume : Bool → Computation Request Value World α}
      {later : Computation Request Value World α} (resumes : LeadsTo program (resume holds) later) :
      LeadsTo program (.isCached request resume) later
  | report {α : Type} {diagnostic : Diagnostic} {next later : Computation Request Value World α}
      (resumes : LeadsTo program next later) : LeadsTo program (.report diagnostic next) later
  | read {α : Type} {world : World} {resume : World → Computation Request Value World α}
      {later : Computation Request Value World α} (resumes : LeadsTo program (resume world) later) :
      LeadsTo program (.read resume) later
  | update {α : Type} {change : World → World} {next later : Computation Request Value World α}
      (resumes : LeadsTo program next later) : LeadsTo program (.update change next) later

end

/-- A computation may come to ask for a request. -/
def MayAsk (program : Program Request Value World) (computation : Computation Request Value World α)
    (needed : Request) : Prop :=
  ∃ resume, LeadsTo program computation (.ask needed resume)

/-- The requests that the evaluation of a request can reach. A request counts
itself in. -/
def Reaches (program : Program Request Value World) : Request → Request → Prop :=
  Relation.ReflTransGen fun request needed => MayAsk program (program.compute request) needed

variable {program : Program Request Value World} {request needed : Request}
variable {computation later : Computation Request Value World α}
variable {next : α → Computation Request Value World β}

theorem mayAnswer_of_evaluate {answer : Except Failure (Value request)}
    (leads : LeadsTo program (Computation.evaluate request) (.ofAnswer answer)) :
    MayAnswer program request answer := by
  generalize target : (Computation.ofAnswer answer : Computation Request Value World _) = ended
    at leads
  cases leads with
  | refl => cases answer <;> cases target
  | @ask _ _ nested _ _ answers resumes =>
      cases nested <;> cases resumes <;> cases answer <;> cases target <;> exact answers

theorem mayAsk_evaluate :
    MayAsk program (Computation.evaluate request) needed ↔ needed = request := by
  constructor
  · rintro ⟨resume, leads⟩
    cases leads with
    | refl => rfl
    | @ask _ _ nested _ _ _ resumes => cases nested <;> cases resumes
  · rintro rfl
    exact ⟨_, .refl⟩

/-- Of two computations in a row, either the first one asks for a request, or it
ends with a value and the second one does. -/
theorem mayAsk_bind (asks : MayAsk program (computation.bind next) needed) :
    MayAsk program computation needed ∨
      ∃ value, LeadsTo program computation (.done value) ∧ MayAsk program (next value) needed := by
  obtain ⟨last, leads⟩ := asks
  induction computation with
  | done value => exact .inr ⟨value, .refl, last, leads⟩
  | fail failure => cases leads
  | abort message => cases leads
  | ask request resume inductionHypothesis =>
      cases leads with
      | refl => exact .inl ⟨_, .refl⟩
      | @ask _ _ answer _ _ answers resumes =>
          rcases inductionHypothesis answer resumes with ⟨other, asks⟩ | ⟨value, ends, asks⟩
          · exact .inl ⟨other, .ask answers asks⟩
          · exact .inr ⟨value, .ask answers ends, asks⟩
  | activeRequests resume inductionHypothesis =>
      cases leads with
      | activeRequests resumes =>
          rcases inductionHypothesis _ resumes with ⟨other, asks⟩ | ⟨value, ends, asks⟩
          · exact .inl ⟨other, .activeRequests asks⟩
          · exact .inr ⟨value, .activeRequests ends, asks⟩
  | isActive request resume inductionHypothesis =>
      cases leads with
      | isActive resumes =>
          rcases inductionHypothesis _ resumes with ⟨other, asks⟩ | ⟨value, ends, asks⟩
          · exact .inl ⟨other, .isActive asks⟩
          · exact .inr ⟨value, .isActive ends, asks⟩
  | isCached request resume inductionHypothesis =>
      cases leads with
      | isCached resumes =>
          rcases inductionHypothesis _ resumes with ⟨other, asks⟩ | ⟨value, ends, asks⟩
          · exact .inl ⟨other, .isCached asks⟩
          · exact .inr ⟨value, .isCached ends, asks⟩
  | report diagnostic rest inductionHypothesis =>
      cases leads with
      | report resumes =>
          rcases inductionHypothesis resumes with ⟨other, asks⟩ | ⟨value, ends, asks⟩
          · exact .inl ⟨other, .report asks⟩
          · exact .inr ⟨value, .report ends, asks⟩
  | read resume inductionHypothesis =>
      cases leads with
      | read resumes =>
          rcases inductionHypothesis _ resumes with ⟨other, asks⟩ | ⟨value, ends, asks⟩
          · exact .inl ⟨other, .read asks⟩
          · exact .inr ⟨value, .read ends, asks⟩
  | update change rest inductionHypothesis =>
      cases leads with
      | update resumes =>
          rcases inductionHypothesis resumes with ⟨other, asks⟩ | ⟨value, ends, asks⟩
          · exact .inl ⟨other, .update asks⟩
          · exact .inr ⟨value, .update ends, asks⟩

/-! ### Runs stay within them -/

/-- Every value in the result cache is one that its computation may end with. -/
def Warranted (program : Program Request Value World) (session : Session Request Value World) :
    Prop :=
  ∀ entry ∈ session.evaluator.cache,
    LeadsTo program (program.compute entry.request) (.done entry.value)

variable [DecidableEq Request] {session after final : Session Request Value World}
variable {history : List (Event Request Value World)}

theorem mayAnswer_of_receive {reception : Reception (Value request)}
    {answer : Except Failure (Value request)} (warranted : Warranted program session)
    (receives : session.receive program request = (reception, after))
    (answers : reception.answer? = some answer) : MayAnswer program request answer := by
  cases Session.receive_eq_iff.mp receives with
  | conflicting _ => cases answers
  | refused _ _ => cases answers
  | computing _ _ _ _ => cases answers
  | rejected _ _ _ _ =>
      cases answers
      exact .rejected
  | @held value _ _ _ holds =>
      cases answers
      unfold Core.held? at holds
      split at holds
      case h_1 => cases holds
      case h_2 => exact .computed (warranted _ (ResultCache.mem_of_find? holds))
      case h_3 policy =>
        have stores : program.storedOutside session.world request = some value := by
          rw [storedOutside, if_pos policy]
          exact holds
        exact .stored stores

namespace Warranted

omit [DecidableEq Request] in
theorem congr (warranted : Warranted program session)
    (sameCache : after.evaluator.cache = session.evaluator.cache) : Warranted program after := by
  intro entry inCache
  rw [sameCache] at inCache
  exact warranted entry inCache

theorem settled {reception : Reception (Value request)} (warranted : Warranted program session)
    (receives : session.receive program request = (reception, after))
    (isSettled : reception ≠ .computing) : Warranted program after :=
  warranted.congr (congrArg Core.cache (Session.core_of_settled receives isSettled))

theorem entered (warranted : Warranted program session)
    (receives : session.receive program request = (.computing, after)) : Warranted program after :=
  warranted.congr (congrArg Core.cache (Session.core_of_computing receives))

/-- A computation that has ended may put its value into the result cache. -/
theorem left {computed : Session Request Value World} {answer : Except Failure (Value request)}
    {outcome : Outcome (Value request)} (warranted : Warranted program computed)
    (ends : LeadsTo program (program.compute request) (.ofAnswer answer))
    (concludes : computed.concluded program request (.ofAnswer answer) = (outcome, after)) :
    Warranted program after := by
  cases Session.finishes_of_concluded concludes with
  | failed leaves => exact warranted.congr (congrArg Core.cache leaves)
  | clashing _ leaves => exact warranted.congr (congrArg Core.cache leaves)
  | kept _ leaves =>
      unfold Core.kept at leaves
      split at leaves
      case h_1 => exact warranted.congr (congrArg Core.cache leaves)
      case h_3 => exact warranted.congr (congrArg Core.cache leaves)
      case h_2 =>
        split at leaves
        case isTrue => exact warranted.congr (congrArg Core.cache leaves)
        case isFalse =>
          intro entry inCache
          have newCache := congrArg Core.cache leaves
          change after.evaluator.cache = _ at newCache
          rw [newCache] at inCache
          rcases List.mem_append.mp inCache with wasThere | isNew
          · exact warranted entry wasThere
          · rw [List.mem_singleton.mp isNew]
            exact ends

end Warranted

/-- What a run tells about its computation. -/
structure Explained (program : Program Request Value World)
    (computation : Computation Request Value World α) (history : List (Event Request Value World))
    (ended : Option (Outcome α)) (final : Session Request Value World) : Prop where
  warranted : Warranted program final
  ends : ∀ answer, ended = some (.ofAnswer answer) → LeadsTo program computation (.ofAnswer answer)
  received : ∀ request reception, .received request reception ∈ history →
    ∃ needed, MayAsk program computation needed ∧ Reaches program needed request

namespace Explained

variable {resumed : Computation Request Value World α} {ended : Option (Outcome α)}

omit [DecidableEq Request] in
/-- What is told about the rest of a computation is told about the whole of it. -/
theorem before (explained : Explained program resumed history ended final)
    (leads : ∀ {later}, LeadsTo program resumed later → LeadsTo program computation later)
    (earlier : List (Event Request Value World))
    (received : ∀ request reception, .received request reception ∈ earlier →
      ∃ needed, MayAsk program computation needed ∧ Reaches program needed request) :
    Explained program computation (earlier ++ history) ended final where
  warranted := explained.warranted
  ends := fun answer isAnswer => leads (explained.ends answer isAnswer)
  received := by
    intro request reception happened
    rcases List.mem_append.mp happened with isEarlier | isLater
    · exact received request reception isEarlier
    · obtain ⟨needed, ⟨resume, asks⟩, reaches⟩ := explained.received request reception isLater
      exact ⟨needed, ⟨resume, leads asks⟩, reaches⟩

omit [DecidableEq Request] in
theorem silently (explained : Explained program resumed history ended final)
    (leads : ∀ {later}, LeadsTo program resumed later → LeadsTo program computation later) :
    Explained program computation history ended final :=
  explained.before leads [] (by simp)

omit [DecidableEq Request] in
/-- The requests that are taken up in the computation of a request are reached
from it. -/
theorem nested {inner : List (Event Request Value World)}
    {answered : Option (Outcome (Value request))} {computed : Session Request Value World}
    (explained : Explained program (program.compute request) inner answered computed)
    (resume : Except Failure (Value request) → Computation Request Value World α)
    (other : Request) (reception : Reception (Value other))
    (happened : .received other reception ∈ .received request .computing :: inner) :
    ∃ needed, MayAsk program (.ask request resume) needed ∧ Reaches program needed other := by
  refine ⟨request, ⟨resume, .refl⟩, ?_⟩
  rcases List.mem_cons.mp happened with isFirst | isInner
  · cases isFirst
    exact Relation.ReflTransGen.refl
  · obtain ⟨needed, asks, reaches⟩ := explained.received other reception isInner
    exact Relation.ReflTransGen.head asks reaches

end Explained

/-- Runs from warranted sessions stay within what their computations may do. -/
theorem Run.explained {ended : Option (Outcome α)}
    (runs : Run program computation session history ended final)
    (warranted : Warranted program session) :
    Explained program computation history ended final := by
  induction runs with
  | underWay => exact ⟨warranted, by simp, by simp⟩
  | unnoticed _ inductionHypothesis =>
      have explained := inductionHypothesis warranted
      exact ⟨explained.warranted, by simp, explained.received⟩
  | done =>
      refine ⟨warranted, fun answer isAnswer => ?_, by simp⟩
      cases answer <;> cases isAnswer
      exact .refl
  | fail =>
      refine ⟨warranted, fun answer isAnswer => ?_, by simp⟩
      cases answer <;> cases isAnswer
      exact .refl
  | abort => exact ⟨warranted, fun _ ends => absurd ends Outcome.aborted_not_answered, by simp⟩
  | @answered _ request resume session after _ reception answer history ended receives answers _
      later =>
      have settled := Reception.ne_computing_of_answer answers
      have mayAnswer := mayAnswer_of_receive warranted receives answers
      refine (later (warranted.settled receives settled)).before (.ask mayAnswer)
        [.received request reception] ?_
      intro other otherReception happened
      cases List.mem_singleton.mp happened
      exact ⟨request, ⟨resume, .refl⟩, Relation.ReflTransGen.refl⟩
  | @refused _ request resume _ _ reception _ receives refuses =>
      refine ⟨warranted.settled receives (Reception.ne_computing_of_refusal refuses),
        fun _ ends => absurd ends Outcome.aborted_not_answered, ?_⟩
      intro other otherReception happened
      cases List.mem_singleton.mp happened
      exact ⟨request, ⟨resume, .refl⟩, Relation.ReflTransGen.refl⟩
  | @within _ _ resume _ _ _ _ receives _ inside =>
      have explained := inside (warranted.entered receives)
      exact ⟨explained.warranted, by simp, explained.nested resume⟩
  | @returned _ request resume _ _ _ _ _ answer inner history _ receives _ concludes _ inside
      later =>
      have explained := inside (warranted.entered receives)
      have ends := explained.ends answer rfl
      have whole := (later (explained.warranted.left ends concludes)).before
        (.ask (.computed ends))
        (.received request .computing :: (inner ++ [.finished request answer])) ?_
      · simpa using whole
      · intro other reception happened
        refine explained.nested resume other reception ?_
        simpa using happened
  | @unkept _ request resume _ _ _ _ answer inner _ receives _ concludes inside =>
      have explained := inside (warranted.entered receives)
      refine ⟨explained.warranted.left (explained.ends answer rfl) concludes,
        fun _ ends => absurd ends Outcome.aborted_not_answered, ?_⟩
      intro other reception happened
      refine explained.nested resume other reception ?_
      simpa using happened
  | @abandoned _ request resume _ _ _ inner _ receives _ inside =>
      have explained := inside (warranted.entered receives)
      refine ⟨?_, fun _ ends => absurd ends Outcome.aborted_not_answered, ?_⟩
      · refine explained.warranted.congr ?_
        rw [Session.evaluator_notifyFinished]
      · intro other reception happened
        refine explained.nested resume other reception ?_
        simpa using happened
  | activeRequests _ later => exact (later warranted).silently .activeRequests
  | isActive _ later => exact (later warranted).silently .isActive
  | isCached _ _ later => exact (later warranted).silently .isCached
  | isCachedRefused _ =>
      exact ⟨warranted, fun _ ends => absurd ends Outcome.aborted_not_answered, by simp⟩
  | @report _ diagnostic _ _ _ _ _ _ later =>
      exact (later warranted).before .report [.reported diagnostic] (by simp)
  | read _ later => exact (later warranted).silently .read
  | @update _ change _ _ _ _ _ _ later =>
      exact (later warranted).before .update [.updated change] (by simp)

/-- The result cache of every session that an evaluator reaches is warranted,
whatever others do to the state of the program. -/
theorem Reached.warranted {permitted : World → World → Prop}
    (reached : Reached program permitted history session) : Warranted program session := by
  refine Visited.preserves (fun _ session => Warranted program session) reached ?_ ?_ ?_
  · rintro session ⟨options, observed, isFresh⟩ entry inCache
    rw [isFresh] at inCache
    cases inCache
  · rintro _ _ _ _ _ ⟨_, _, _, _, runs, _⟩ warranted
    exact (runs.explained warranted).warranted
  · rintro _ _ _ ⟨_, sameCache, _⟩ warranted
    exact warranted.congr sameCache

end Program

end RequestEngine
