import Mathlib.Data.List.Chain
import RequestEngine.Proofs.Denotation
import RequestEngine.Proofs.Registration
import RequestEngine.Proofs.Run

/-!
Contract: caches that can be trusted, of programs that pass cycle errors on.

Owns:
- the programs that caching may be used for;
- the invariant of caches: what they hold is settled, whatever the stack was
  when it was computed;
- what every step of an evaluation does to the invariant.

A value is read under another stack than the one it was computed under. It is
the same value because a computation that met no cycle settles, and because no
request that it depends on can be active when it is read: active requests ask
for each other, and settled requests do not depend on themselves.

Does not own: whole evaluations; `Proofs.Simulation` carries the invariant through.
-/

namespace RequestEngine

variable {Request : Type} [DecidableEq Request] {Value : Request → Type} {World : Type} {α : Type}

/-! ### The programs -/

/-- A computation passes a cycle error on: however it goes on, it ends with
that error. -/
def Computation.Passes (error : CycleError) : Computation Request Value World α → Prop
  | .done _ => False
  | .fail failure => failure = .cycle error
  | .abort _ => True
  | .ask _ resume => ∀ answer, (resume answer).Passes error
  | .activeRequests resume => ∀ displays, (resume displays).Passes error
  | .isActive _ resume | .isCached _ resume => ∀ holds, (resume holds).Passes error
  | .read resume => ∀ world, (resume world).Passes error
  | .report _ next | .update _ next => next.Passes error

namespace Program

/-- Nothing is stored that was not stored before. -/
def Forgets (program : Program Request Value World) (before after : World) : Prop :=
  ∀ request value, program.storedOutside after request = some value →
    program.storedOutside before request = some value

/-- Storage outside the evaluator gives back only what was stored. -/
def HonestStorage (program : Program Request Value World) : Prop :=
  ∀ world request (value : Value request) other found,
    program.storedOutside (program.store world request value) other = some found →
    program.storedOutside world other = some found ∨
      (⟨other, found⟩ : (request : Request) × Value request) = ⟨request, value⟩

end Program

/-- A computation that looks neither at its evaluator nor at the state of the
program, leaves storage alone, and passes every cycle error on. -/
def Computation.Oblivious (program : Program Request Value World) :
    Computation Request Value World α → Prop
  | .done _ | .fail _ | .abort _ => True
  | .ask _ resume =>
      (∀ answer, (resume answer).Oblivious program) ∧
        ∀ error, (resume (.error (.cycle error))).Passes error
  | .activeRequests _ | .isActive _ _ | .isCached _ _ | .read _ => False
  | .report _ next => next.Oblivious program
  | .update change next =>
      (∀ world, program.Forgets world (change world)) ∧ next.Oblivious program

namespace Computation

variable {β : Type} {program : Program Request Value World}
variable {computation : Computation Request Value World α}
variable {next : α → Computation Request Value World β}

omit [DecidableEq Request] in
theorem Passes.bind {error : CycleError} (passes : computation.Passes error) :
    (computation.bind next).Passes error := by
  induction computation with
  | done value => exact passes.elim
  | fail failure => exact passes
  | abort message => exact trivial
  | ask request resume inductionHypothesis =>
      exact fun answer => inductionHypothesis answer (passes answer)
  | activeRequests resume inductionHypothesis =>
      exact fun displays => inductionHypothesis displays (passes displays)
  | isActive request resume inductionHypothesis =>
      exact fun holds => inductionHypothesis holds (passes holds)
  | isCached request resume inductionHypothesis =>
      exact fun holds => inductionHypothesis holds (passes holds)
  | report diagnostic rest inductionHypothesis => exact inductionHypothesis passes
  | read resume inductionHypothesis =>
      exact fun world => inductionHypothesis world (passes world)
  | update change rest inductionHypothesis => exact inductionHypothesis passes

omit [DecidableEq Request] in
theorem Oblivious.bind (oblivious : computation.Oblivious program)
    (nextOblivious : ∀ value, (next value).Oblivious program) :
    (computation.bind next).Oblivious program := by
  induction computation with
  | done value => exact nextOblivious value
  | fail failure => exact trivial
  | abort message => exact trivial
  | ask request resume inductionHypothesis =>
      exact ⟨fun answer => inductionHypothesis answer (oblivious.1 answer),
        fun error => (oblivious.2 error).bind⟩
  | activeRequests resume _ => exact oblivious.elim
  | isActive request resume _ => exact oblivious.elim
  | isCached request resume _ => exact oblivious.elim
  | read resume _ => exact oblivious.elim
  | report diagnostic rest inductionHypothesis => exact inductionHypothesis oblivious
  | update change rest inductionHypothesis =>
      exact ⟨oblivious.1, inductionHypothesis oblivious.2⟩

end Computation

omit [DecidableEq Request] in
theorem Program.oblivious_evaluate (program : Program Request Value World) (request : Request) :
    (Computation.evaluate request : Computation Request Value World _).Oblivious program := by
  refine ⟨fun answer => ?_, fun error => ?_⟩
  · cases answer <;> exact trivial
  · show Failure.cycle error = Failure.cycle error
    rfl

/-- A value that is held after another one was kept was held before, or is the
one that was kept. -/
theorem Core.held?_kept_cases {program : Program Request Value World}
    {core : Core Request Value World} (honest : program.HonestStorage) {request other : Request}
    {value : Value request} {found : Value other}
    (holds : (core.kept program request value).held? program other = some found) :
    core.held? program other = some found ∨
      (⟨other, found⟩ : (request : Request) × Value request) = ⟨request, value⟩ := by
  unfold Core.kept at holds
  split at holds
  case h_1 => exact .inl holds
  case h_2 =>
    split at holds
    · exact .inl holds
    · unfold Core.held? at holds ⊢
      split at holds
      case h_1 => cases holds
      case h_3 => exact .inl holds
      case h_2 =>
        rw [ResultCache.find?_append] at holds
        rcases Option.or_eq_some_iff.mp holds with before | ⟨_, isNew⟩
        · exact .inl before
        · rw [ResultCache.find?] at isNew
          split at isNew
          case isTrue same =>
            subst same
            cases isNew
            exact .inr rfl
          case isFalse => cases isNew
  case h_3 policy =>
    unfold Core.held? at holds ⊢
    split at holds
    case h_1 => cases holds
    case h_2 => exact .inl holds
    case h_3 otherPolicy =>
      have stored : program.storedOutside (program.store core.world request value) other =
          some found := by
        rw [Program.storedOutside, if_pos otherPolicy]
        exact holds
      rcases honest core.world request value other found stored with before | isNew
      · rw [Program.storedOutside, if_pos otherPolicy] at before
        exact .inl before
      · exact .inr isNew

theorem Core.held?_of_forgets {program : Program Request Value World}
    {core : Core Request Value World} {world : World} {request : Request} {value : Value request}
    (forgets : program.Forgets core.world world)
    (holds : Core.held? program { core with world := world } request = some value) :
    core.held? program request = some value := by
  unfold Core.held? at holds ⊢
  split at holds
  case h_1 => cases holds
  case h_2 => exact holds
  case h_3 policy =>
    have before := forgets request value
    unfold Program.storedOutside at before
    rw [if_pos policy, if_pos policy] at before
    exact before holds

namespace Program

variable {program : Program Request Value World}
variable {session final : Session Request Value World}
variable {computation : Computation Request Value World α}
variable {history : List (Event Request Value World)} {answer : Except Failure α}

/-- A computation that passes a cycle error on is answered with it. -/
theorem Run.passes {error : CycleError} {ended : Option (Outcome α)}
    (runs : Run program computation session history ended final)
    (ends : ended = some (.ofAnswer answer)) (passes : computation.Passes error) :
    answer = .error (.cycle error) := by
  induction runs with
  | underWay => cases ends
  | unnoticed _ _ => cases ends
  | done => exact passes.elim
  | fail =>
      obtain rfl : _ = Failure.cycle error := passes
      have same : some (Outcome.ofAnswer (.error (.cycle error))) = some (.ofAnswer answer) := ends
      exact (Outcome.ofAnswer_inj.mp (Option.some.inj same)).symm
  | abort => exact absurd ends Outcome.aborted_not_answered
  | answered _ _ _ inductionHypothesis => exact inductionHypothesis ends (passes _)
  | refused _ _ => exact absurd ends Outcome.aborted_not_answered
  | within _ _ _ => cases ends
  | returned _ _ _ _ _ inductionHypothesis => exact inductionHypothesis ends (passes _)
  | unkept _ _ _ _ => exact absurd ends Outcome.aborted_not_answered
  | abandoned _ _ _ => exact absurd ends Outcome.aborted_not_answered
  | activeRequests _ inductionHypothesis => exact inductionHypothesis ends (passes _)
  | isActive _ inductionHypothesis => exact inductionHypothesis ends (passes _)
  | isCached _ _ inductionHypothesis => exact inductionHypothesis ends (passes _)
  | isCachedRefused _ => exact absurd ends Outcome.aborted_not_answered
  | report _ inductionHypothesis => exact inductionHypothesis ends passes
  | read _ inductionHypothesis => exact inductionHypothesis ends (passes _)
  | update _ inductionHypothesis => exact inductionHypothesis ends passes

/-! ### The invariant -/

/-- A held value is settled, and every zone below it is held as well. -/
structure Backed (program : Program Request Value World) (registry : Registry)
    (request : Request) (value : Value request) : Prop where
  settles : Settles program (program.compute request) (.ok value)
  zones : ∀ other, DependsOn program request other → registry.Holds (program.kind other).zone

/-- Active requests ask for each other, as far as they settle, and what the
caches hold is backed. -/
structure Trusted (program : Program Request Value World)
    (session : Session Request Value World) : Prop where
  chain : session.evaluator.active.IsChain fun lower upper =>
    Settled program lower → Needs program lower upper
  zones : Session.ZonesHeld program.toVocabulary session
  backed : ∀ request value, session.core.held? program request = some value →
    Backed program session.registry request value

/-- The rest of a computation is on the way to the settled answer of the topmost
request, if there is one. -/
def Follows (program : Program Request Value World) (active : List Request)
    (computation : Computation Request Value World α) : Prop :=
  ∀ owner ∈ active.getLast?, Settled program owner →
    (∃ answer, Settles program computation answer) ∧
      ∀ needed, Asks program computation needed → Needs program owner needed

variable {active : List Request} {request : Request} {larger : Registry}

omit [DecidableEq Request] in
/-- A chain of active requests leads from a settled one to the topmost one. -/
private theorem dependsOn_last {lower : Request}
    (chain : (lower :: active).IsChain fun lower upper =>
      Settled program lower → Needs program lower upper)
    (settled : Settled program lower) :
    ∃ owner ∈ (lower :: active).getLast?, DependsOn program lower owner := by
  induction active generalizing lower with
  | nil => exact ⟨lower, rfl, .refl⟩
  | cons upper rest inductionHypothesis =>
      obtain ⟨needs, chainRest⟩ := List.isChain_cons_cons.mp chain
      have upperSettled := settled.of_dependsOn (.single (needs settled))
      obtain ⟨owner, isLast, depends⟩ := inductionHypothesis chainRest upperSettled
      refine ⟨owner, ?_, .head (needs settled) depends⟩
      rwa [List.getLast?_cons_cons]

omit [DecidableEq Request] in
/-- Nothing that a settled request depends on is active when it is asked for. -/
theorem not_active_of_dependsOn
    (chain : active.IsChain fun lower upper => Settled program lower → Needs program lower upper)
    (asked : ∀ owner ∈ active.getLast?, Settled program owner → Needs program owner request)
    (settled : Settled program request) {other : Request}
    (depends : DependsOn program request other) : other ∉ active := by
  intro isActive
  -- From the other request, the stack leads to its top, which needs `request`: a cycle.
  obtain ⟨below, above, rfl⟩ := List.append_of_mem isActive
  have otherSettled := settled.of_dependsOn depends
  have chainAbove := (List.isChain_append.mp chain).2.1
  obtain ⟨owner, isLast, dependsOwner⟩ := dependsOn_last chainAbove otherSettled
  have ownerSettled := otherSettled.of_dependsOn dependsOwner
  have isOwner : owner ∈ (below ++ other :: above).getLast? := by
    rw [List.getLast?_append_of_ne_nil _ (List.cons_ne_nil _ _)]
    exact isLast
  have needs := asked owner isOwner ownerSettled
  exact ownerSettled.acyclic needs (depends.trans dependsOwner)

omit [DecidableEq Request] in
theorem Backed.mono {registry : Registry} {value : Value request}
    (backed : Backed program registry request value) (below : registry.Below larger) :
    Backed program larger request value :=
  ⟨backed.settles, fun other depends => (backed.zones other depends).mono below⟩

/-- Trust is kept when the zones grow and everything new that is held is backed. -/
theorem Trusted.moved {after : Session Request Value World} (trusted : Trusted program session)
    (chain : after.evaluator.active.IsChain fun lower upper =>
      Settled program lower → Needs program lower upper)
    (zones : Session.ZonesHeld program.toVocabulary after)
    (below : session.registry.Below after.registry)
    (backed : ∀ request value, after.core.held? program request = some value →
      session.core.held? program request = some value ∨
        Backed program after.registry request value) :
    Trusted program after where
  chain := chain
  zones := zones
  backed := by
    intro request value holds
    rcases backed request value holds with before | isBacked
    · exact (trusted.backed request value before).mono below
    · exact isBacked

theorem zones_of_receive {after : Session Request Value World}
    {reception : Reception (Value request)} (trusted : Trusted program session)
    (declared : program.ZonesDeclared)
    (receives : session.receive program request = (reception, after))
    (admitted : ∀ conflict, reception ≠ .conflicting conflict) :
    session.registry.Below after.registry ∧
      after.registry.Holds (program.kind request).zone ∧
      Session.ZonesHeld program.toVocabulary after := by
  obtain ⟨met, meets, sameZones⟩ := (Session.receive_eq_iff.mp receives).meets admitted
  obtain ⟨below, holds, held⟩ := Session.holds_of_meetZone declared trusted.zones meets
  have sameRegistry := Session.registry_of_zones_eq sameZones
  rw [sameRegistry]
  exact ⟨below, holds, held.congr sameZones⟩

theorem Trusted.reported (trusted : Trusted program session) (diagnostic : Diagnostic) :
    Trusted program (session.reported [diagnostic]) :=
  trusted.moved trusted.chain trusted.zones (.refl _) fun _ _ holds => .inl holds

theorem Trusted.updated {world : World} (trusted : Trusted program session)
    (forgets : program.Forgets session.world world) :
    Trusted program { session with world := world } :=
  trusted.moved trusted.chain trusted.zones (.refl _) fun _ _ holds =>
    .inl (Core.held?_of_forgets forgets holds)

theorem Trusted.settled {after : Session Request Value World}
    {reception : Reception (Value request)} (trusted : Trusted program session)
    (declared : program.ZonesDeclared)
    (receives : session.receive program request = (reception, after))
    (admitted : ∀ conflict, reception ≠ .conflicting conflict)
    (isSettled : reception ≠ .computing) : Trusted program after := by
  obtain ⟨below, _, zones⟩ := zones_of_receive trusted declared receives admitted
  refine trusted.moved ?_ zones below fun request value holds => .inl ?_
  · rw [Session.active_of_settled receives isSettled]
    exact trusted.chain
  · rwa [Session.core_of_settled receives isSettled] at holds

theorem Trusted.entered {entered : Session Request Value World}
    (trusted : Trusted program session) (declared : program.ZonesDeclared)
    (receives : session.receive program request = (.computing, entered))
    (asked : ∀ owner ∈ session.evaluator.active.getLast?,
      Settled program owner → Needs program owner request) : Trusted program entered := by
  obtain ⟨below, _, zones⟩ := zones_of_receive trusted declared receives (by simp)
  refine trusted.moved ?_ zones below fun request value holds => .inl ?_
  · rw [Session.active_of_computing receives]
    refine List.isChain_append.mpr ⟨trusted.chain, .singleton _, ?_⟩
    intro owner isLast upper isRequest
    obtain rfl : request = upper := by simpa using isRequest
    exact asked owner isLast
  · rwa [Session.core_of_computing receives] at holds

/-- A value that is held after a computation was held before, or is its answer. -/
theorem held?_concluded_cases {computed left : Session Request Value World}
    {answer : Except Failure (Value request)} (honest : program.HonestStorage)
    (concludes : computed.concluded program request (.ofAnswer answer) = (.ofAnswer answer, left))
    {other : Request} {found : Value other}
    (holds : left.core.held? program other = some found) :
    computed.core.held? program other = some found ∨
      ∃ value, answer = .ok value ∧
        (⟨other, found⟩ : (request : Request) × Value request) = ⟨request, value⟩ := by
  have finishes := Session.finishes_of_concluded concludes
  generalize outcomeEq : Outcome.ofAnswer answer = outcome at finishes
  cases finishes with
  | failed leaves =>
      rw [leaves] at holds
      exact .inl holds
  | clashing _ _ => exact absurd outcomeEq (Outcome.ofAnswer_ne_aborted _ _)
  | kept _ leaves =>
      rw [leaves] at holds
      exact (Core.held?_kept_cases honest holds).imp_right fun isNew => ⟨_, rfl, isNew⟩

theorem Trusted.left {computed left : Session Request Value World}
    {answer : Except Failure (Value request)} (trusted : Trusted program computed)
    (honest : program.HonestStorage)
    (chain : active.IsChain fun lower upper => Settled program lower → Needs program lower upper)
    (onTop : computed.evaluator.active = active ++ [request])
    (concludes : computed.concluded program request (.ofAnswer answer) = (.ofAnswer answer, left))
    (backed : ∀ value, answer = .ok value → Backed program computed.registry request value) :
    Trusted program left ∧ left.evaluator.active = active ∧ left.registry = computed.registry := by
  have finishes := Session.finishes_of_concluded concludes
  have leftActive : left.evaluator.active = active := by
    rw [finishes.active_eq, onTop, List.dropLast_concat]
  have sameZones := Session.zones_concluded concludes
  have sameRegistry := Session.registry_of_zones_eq sameZones
  refine ⟨trusted.moved ?_ (trusted.zones.congr sameZones) ?_ ?_, leftActive, sameRegistry⟩
  · rw [leftActive]
    exact chain
  · rw [sameRegistry]
    exact .refl _
  · intro other found holds
    rw [sameRegistry]
    rcases held?_concluded_cases honest concludes holds with before | ⟨value, isAnswer, isNew⟩
    · exact .inl before
    · cases isNew
      exact .inr (backed value isAnswer)

/-- The caches of a fresh evaluator are empty. -/
theorem held?_of_fresh {options : Options} {observed : Bool}
    (isFresh : session.evaluator = .fresh options observed)
    (nothingStored : ∀ request, program.storedOutside session.world request = none)
    (request : Request) : session.core.held? program request = none := by
  have emptyCache : session.core.cache = [] := congrArg Evaluator.cache isFresh
  have vacant := nothingStored request
  unfold storedOutside at vacant
  unfold Core.held?
  split
  case h_1 => rfl
  case h_2 =>
    rw [emptyCache]
    rfl
  case h_3 policy => rwa [if_pos policy] at vacant

/-- The caches of a fresh evaluator can be trusted. -/
theorem Trusted.of_fresh {options : Options} {observed : Bool}
    (isFresh : session.evaluator = .fresh options observed)
    (nothingStored : ∀ request, program.storedOutside session.world request = none) :
    Trusted program session where
  chain := by
    rw [isFresh]
    exact .nil
  zones := by
    intro request known
    rw [isFresh] at known
    cases known
  backed := by
    intro request value holds
    rw [held?_of_fresh isFresh nothingStored] at holds
    cases holds

/-! ### Computations on their way -/

omit [DecidableEq Request] in
/-- The rest of a computation follows when its answer is the settled one. -/
theorem Follows.resumed {nested : Except Failure (Value request)}
    {resume : Except Failure (Value request) → Computation Request Value World α}
    (follows : Follows program active (.ask request resume))
    (determined : ∀ settledAnswer, Settles program (program.compute request) settledAnswer →
      nested = settledAnswer) :
    Follows program active (resume nested) := by
  intro owner isLast settled
  obtain ⟨⟨settledAnswer, settles⟩, needs⟩ := follows owner isLast settled
  cases settles with
  | ask computes resumes =>
      obtain rfl := determined _ computes
      exact ⟨⟨settledAnswer, resumes⟩, fun needed asks => needs needed (.later computes asks)⟩

omit [DecidableEq Request] in
theorem Follows.reported {diagnostic : Diagnostic}
    (follows : Follows program active (.report diagnostic computation)) :
    Follows program active computation := by
  intro owner isLast settled
  obtain ⟨⟨settledAnswer, settles⟩, needs⟩ := follows owner isLast settled
  cases settles with
  | report settles => exact ⟨⟨_, settles⟩, fun needed asks => needs needed (.report asks)⟩

omit [DecidableEq Request] in
theorem Follows.updated {change : World → World}
    (follows : Follows program active (.update change computation)) :
    Follows program active computation := by
  intro owner isLast settled
  obtain ⟨⟨settledAnswer, settles⟩, needs⟩ := follows owner isLast settled
  cases settles with
  | update settles => exact ⟨⟨_, settles⟩, fun needed asks => needs needed (.update asks)⟩

omit [DecidableEq Request] in
theorem Follows.compute : Follows program (active ++ [request]) (program.compute request) := by
  intro owner isLast settled
  obtain rfl : request = owner := by simpa using isLast
  exact ⟨settled, fun _ needs => needs⟩

theorem Follows.entered {entered : Session Request Value World}
    (receives : session.receive program request = (.computing, entered)) :
    Follows program entered.evaluator.active (program.compute request) := by
  rw [Session.active_of_computing receives]
  exact .compute

/-- A request that is settled at once leaves the stack as it is. -/
theorem Follows.settled {after : Session Request Value World}
    {reception : Reception (Value request)} {nested : Except Failure (Value request)}
    {resume : Except Failure (Value request) → Computation Request Value World α}
    (follows : Follows program session.evaluator.active (.ask request resume))
    (receives : session.receive program request = (reception, after))
    (isSettled : reception ≠ .computing)
    (determined : ∀ settledAnswer, Settles program (program.compute request) settledAnswer →
      nested = settledAnswer) :
    Follows program after.evaluator.active (resume nested) := by
  rw [Session.active_of_settled receives isSettled]
  exact follows.resumed determined

omit [DecidableEq Request] in
theorem Follows.asked
    {resume : Except Failure (Value request) → Computation Request Value World α}
    (follows : Follows program active (.ask request resume)) :
    ∀ owner ∈ active.getLast?, Settled program owner → Needs program owner request :=
  fun owner isLast settled => (follows owner isLast settled).2 request .now

end Program

end RequestEngine
