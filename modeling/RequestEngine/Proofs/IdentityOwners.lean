import RequestEngine.Proofs.KeptResults
import RequestEngine.Proofs.OfferedResults
import RequestEngine.Workbench

/-!
Contract: memoization among kinds that share identities.

Owns:
- what every step of an evaluation offers to the result cache;
- accesses to a result cache by evaluations and from outside, in any order and
  however they end;
- that the first kind to store a value under an identity owns it for good, that
  all others are refused, and that no kind is given the value of another one.

Nothing is assumed about identities. Kinds of different zones may share them, be
it that the zones were not compared or that a conflict was survived.

Does not own: conflicts between zones.
-/

namespace RequestEngine

variable {Request : Type} [DecidableEq Request] {Value : Request → Type} {World : Type} {α : Type}

/-! ### Several offers -/

namespace ResultCache

variable {kind : Request → RequestKind} {cache offered : ResultCache Request Value}

theorem Accepts.nextAll (accepts : Accepts kind offered cache)
    (entries : ResultCache Request Value) :
    Accepts kind (offered ++ entries) (entries.foldl (keep kind) cache) := by
  induction entries generalizing offered cache with
  | nil => rwa [List.append_nil]
  | cons entry rest inductionHypothesis =>
      rw [List.append_cons, List.foldl_cons]
      exact inductionHypothesis accepts.next

/-- Offers only ever add values at the end. -/
theorem prefix_keep (kind : Request → RequestKind) (cache : ResultCache Request Value)
    (entry : StoredResult Request Value) : cache <+: cache.keep kind entry := by
  cases clashes : cache.clash? kind entry.request with
  | some clash => rw [keep_of_clash clashes]
  | none =>
      rw [keep_of_noClash clashes]
      split
      · exact List.prefix_append _ _
      · exact List.prefix_rfl

theorem prefix_keepAll (kind : Request → RequestKind) (cache entries : ResultCache Request Value) :
    cache <+: entries.foldl (keep kind) cache := by
  induction entries generalizing cache with
  | nil => exact List.prefix_rfl
  | cons entry rest inductionHypothesis =>
      exact (prefix_keep kind cache entry).trans (inductionHypothesis _)

omit [DecidableEq Request] in
/-- Owners stay owners when values are added. -/
theorem owner?_of_prefix {later : ResultCache Request Value} {identity : Identity}
    {owner : RequestKind} (grows : cache <+: later)
    (owns : owner? kind cache identity = some owner) :
    owner? kind later identity = some owner := by
  obtain ⟨more, rfl⟩ := grows
  rw [owner?_append, owns, Option.some_or]

end ResultCache

namespace Program

variable {program : Program Request Value World} {request : Request}
variable {session after final : Session Request Value World}
variable {offered more : ResultCache Request Value}
variable {history : List (Event Request Value World)}

/-! ### What evaluations offer -/

omit [DecidableEq Request] in
private theorem keptResults_of_cached {kind : Request → RequestKind} {value : Value request}
    (policy : (kind request).caching = .cached) :
    keptResults kind [(.finished request (.ok value) : Event Request Value World)] =
      [⟨request, value⟩] := by
  unfold keptResults
  rw [List.filterMap_cons, Event.keptResult?, if_pos policy]
  rfl

omit [DecidableEq Request] in
private theorem keptResults_of_not_cached {kind : Request → RequestKind} {value : Value request}
    (policy : (kind request).caching ≠ .cached) :
    keptResults kind [(.finished request (.ok value) : Event Request Value World)] = [] := by
  unfold keptResults
  rw [List.filterMap_cons, Event.keptResult?, if_neg policy]
  rfl

/-- A computation that has a value offers it to the result cache, if its policy
says so. -/
private theorem cache_of_finishes {answer : Except Failure (Value request)}
    {outcome : Outcome (Value request)}
    (finishes : Session.Finishes program request session answer outcome after) :
    after.evaluator.cache =
      (keptResults program.kind
        [(.finished request answer : Event Request Value World)]).foldl
        (ResultCache.keep program.kind) session.evaluator.cache := by
  cases finishes with
  | failed leaves => exact congrArg Core.cache leaves
  | @clashing value clash _ clashes leaves =>
      have sameCache : after.evaluator.cache = session.evaluator.cache :=
        congrArg Core.cache leaves
      unfold Core.clash? at clashes
      split at clashes
      case h_1 policy =>
        rw [keptResults_of_cached policy, List.foldl_cons, List.foldl_nil, sameCache]
        exact (ResultCache.keep_of_clash clashes).symm
      case h_2 => cases clashes
      case h_3 => cases clashes
  | @kept value _ noClash leaves =>
      have cacheAfter : after.evaluator.cache =
          (session.core.popped.kept program request value).cache := congrArg Core.cache leaves
      rw [cacheAfter]
      unfold Core.kept
      split
      case h_1 policy =>
        rw [keptResults_of_not_cached (by simp [policy])]
        rfl
      case h_3 policy =>
        rw [keptResults_of_not_cached (by simp [policy])]
        rfl
      case h_2 policy =>
        have free : session.evaluator.cache.clash? program.kind request = none := by
          rw [Core.clash?, policy] at noClash
          exact noClash
        rw [keptResults_of_cached policy, List.foldl_cons, List.foldl_nil,
          ResultCache.keep_of_noClash free]
        have sameCache : session.core.popped.cache = session.evaluator.cache := rfl
        rw [sameCache]
        cases ResultCache.find? request session.evaluator.cache <;> rfl

/-- Only finished computations offer values to the result cache. -/
theorem Step.cache_eq {event : Event Request Value World}
    (step : Step program session event after) :
    after.evaluator.cache = (keptResults program.kind [event]).foldl
      (ResultCache.keep program.kind) session.evaluator.cache := by
  cases step with
  | @received _ request reception receives =>
      have sameCache : after.core.cache = session.core.cache := by
        by_cases settled : reception = .computing
        · subst settled
          rw [Session.core_of_computing receives]
          rfl
        · rw [Session.core_of_settled receives settled]
      exact sameCache
  | finished _ concludes => exact cache_of_finishes (Session.finishes_of_concluded concludes)
  | abandoned => exact congrArg Core.cache (Session.core_notifyFinished _)
  | reported => rfl
  | updated => rfl

theorem Steps.cache_eq (steps : Steps program session history final) :
    final.evaluator.cache = (keptResults program.kind history).foldl
      (ResultCache.keep program.kind) session.evaluator.cache := by
  induction steps with
  | nil => rfl
  | @cons _ _ _ event later step _ inductionHypothesis =>
      rw [inductionHypothesis, step.cache_eq, ← List.foldl_append, ← keptResults_append]
      rfl

/-- A computation that finishes in a run was run itself. -/
theorem Run.computed_of_finished {computation : Computation Request Value World α}
    {ended : Option (Outcome α)} {answer : Except Failure (Value request)}
    (runs : Run program computation session history ended final)
    (finishes : .finished request answer ∈ history) :
    ∃ entered inner computed,
      Run program (program.compute request) entered inner (some (.ofAnswer answer)) computed := by
  induction runs with
  | underWay => cases finishes
  | unnoticed _ inductionHypothesis => exact inductionHypothesis finishes
  | done => cases finishes
  | fail => cases finishes
  | abort => cases finishes
  | answered _ _ _ later => exact later (by simpa using finishes)
  | refused _ _ => simp at finishes
  | within _ _ inside => exact inside (by simpa using finishes)
  | returned _ computes _ _ inside later =>
      simp only [List.mem_cons, List.mem_append, reduceCtorEq, false_or] at finishes
      rcases finishes with isInner | isThis | isLater
      · exact inside isInner
      · cases isThis
        exact ⟨_, _, _, computes⟩
      · exact later isLater
  | unkept _ computes _ inside =>
      simp only [List.mem_cons, List.mem_append, reduceCtorEq, false_or, List.not_mem_nil,
        or_false] at finishes
      rcases finishes with isInner | isThis
      · exact inside isInner
      · cases isThis
        exact ⟨_, _, _, computes⟩
  | abandoned _ _ inside => exact inside (by simpa using finishes)
  | activeRequests _ later => exact later finishes
  | isActive _ later => exact later finishes
  | isCached _ _ later => exact later finishes
  | isCachedRefused _ => cases finishes
  | report _ later => exact later (by simpa using finishes)
  | read _ later => exact later finishes
  | update _ later => exact later (by simpa using finishes)

/-! ### Operations on a cache -/

/-- What is done to the result cache of an evaluator, from a session on: requests
are evaluated, to their end or up to any moment, and `given` values are inserted
from outside. The values that were offered to the cache are listed, also those
whose offer ended in a clash. -/
inductive Operates (program : Program Request Value World)
    (given : StoredResult Request Value → Prop) (first : Session Request Value World) :
    ResultCache Request Value → Session Request Value World → Prop where
  | start : Operates program given first [] first
  | evaluated {offered : ResultCache Request Value} {session after : Session Request Value World}
      {request : Request} {history : List (Event Request Value World)}
      {ended : Option (Outcome (Value request))}
      (before : Operates program given first offered session)
      (evaluates : Run program (Computation.evaluate request) session history ended after) :
      Operates program given first (offered ++ keptResults program.kind history) after
  /-- A clash leaves the cache as it was. -/
  | inserted {offered : ResultCache Request Value} {session : Session Request Value World}
      {entry : StoredResult Request Value} (before : Operates program given first offered session)
      (isGiven : given entry) :
      Operates program given first (offered ++ [entry])
        { session with
          evaluator := { session.evaluator with
            cache := session.evaluator.cache.keep program.kind entry } }
  | elsewhere {offered : ResultCache Request Value} {session after : Session Request Value World}
      (before : Operates program given first offered session)
      (sameCache : after.evaluator.cache = session.evaluator.cache) :
      Operates program given first offered after

namespace Operates

variable {given : StoredResult Request Value → Prop} {first later : Session Request Value World}

/-- The offers account for the cache. -/
theorem cache_eq (operates : Operates program given first offered session) :
    session.evaluator.cache =
      offered.foldl (ResultCache.keep program.kind) first.evaluator.cache := by
  induction operates with
  | start => rfl
  | evaluated _ evaluates inductionHypothesis =>
      rw [evaluates.steps.cache_eq, inductionHypothesis, List.foldl_append]
  | inserted _ _ inductionHypothesis =>
      rw [List.foldl_append, ← inductionHypothesis]
      rfl
  | elsewhere _ sameCache inductionHypothesis => rw [sameCache, inductionHypothesis]

theorem accepts (operates : Operates program given first offered session)
    (isEmpty : first.evaluator.cache = []) :
    ResultCache.Accepts program.kind offered session.evaluator.cache := by
  rw [operates.cache_eq, isEmpty]
  exact ResultCache.Accepts.nil.nextAll offered

/-- Every offered value is given from outside, or the result of a computation of
its own request. -/
theorem origin (operates : Operates program given first offered session)
    {value : Value request} (wasOffered : ⟨request, value⟩ ∈ offered) :
    given ⟨request, value⟩ ∨ ∃ entered inner computed,
      Run program (program.compute request) entered inner (some (.success value)) computed := by
  induction operates with
  | start => cases wasOffered
  | evaluated _ evaluates inductionHypothesis =>
      rcases List.mem_append.mp wasOffered with before | inCall
      · exact inductionHypothesis before
      · exact .inr (evaluates.computed_of_finished (mem_keptResults.mp inCall).2)
  | inserted _ isGiven inductionHypothesis =>
      rcases List.mem_append.mp wasOffered with before | isNew
      · exact inductionHypothesis before
      · rw [List.mem_singleton.mp isNew]
        exact .inl isGiven
  | elsewhere _ _ inductionHypothesis => exact inductionHypothesis wasOffered

end Operates

/-! ### Kinds that share an identity -/

/-- A kind that shares its identity with another owner has no access to the
cache: whatever it does ends with the clash, and changes nothing. -/
structure Refused (program : Program Request Value World) (session : Session Request Value World)
    (request : Request) (clash : IdentityClash) : Prop where
  get : session.evaluator.cache.get program.kind request = .error clash
  contains : session.evaluator.cache.contains program.kind request = .error clash
  insert : ∀ value, session.evaluator.cache.insert program.kind request value = .error clash ∧
    session.evaluator.cache.keep program.kind ⟨request, value⟩ = session.evaluator.cache
  /-- An evaluation ends before the computation, with the clash or already with a
  conflict between the zones of the kinds. -/
  evaluate : (program.kind request).caching = .cached → ∀ depth, ∃ message after,
    program.evaluate (depth + 1) request session = (.aborted message, after) ∧
    after.core = session.core ∧
    (message = clash.message ∨ ∃ conflict : ZoneConflict, message = conflict.message)
  /-- A computation whose identity was taken in the meantime is in vain. -/
  conclude : (program.kind request).caching = .cached → ∀ value, ∃ after,
    session.concluded program request (.success value) = (.aborted clash.message, after) ∧
    after.evaluator.cache = session.evaluator.cache

/-- Where a value that an evaluation returns comes from. -/
inductive Returned (program : Program Request Value World) (session : Session Request Value World)
    (request : Request) (value : Value request) : Prop where
  /-- The result cache held it. -/
  | held (policy : (program.kind request).caching = .cached)
      (returns : session.evaluator.cache.get program.kind request = .ok (some value))
  /-- The storage of the kind held it. -/
  | stored (holds : program.storedOutside session.world request = some value)
  /-- The computation of the request returned it. -/
  | computed {entered computed : Session Request Value World}
      {inner : List (Event Request Value World)}
      (receives : session.receive program request = (.computing, entered))
      (computes : Run program (program.compute request) entered inner (some (.success value))
        computed)

/-- The result cache of an evaluator among kinds that share identities, after
some values were offered to it. -/
structure IdentitiesOwned (program : Program Request Value World)
    (given : StoredResult Request Value → Prop) (offered : ResultCache Request Value)
    (session : Session Request Value World) : Prop where
  /-- The kind of the first value that was offered under an identity owns it. -/
  owner : ∀ identity, session.evaluator.cache.owner? program.kind identity =
    offered.owner? program.kind identity
  /-- It owns it for good, and no value is ever changed or removed. -/
  forever : ∀ {more later}, Operates program given session more later →
    session.evaluator.cache <+: later.evaluator.cache ∧
    ∀ identity owner, session.evaluator.cache.owner? program.kind identity = some owner →
      later.evaluator.cache.owner? program.kind identity = some owner
  /-- Every other kind is refused. -/
  refused : ∀ {request owner},
    session.evaluator.cache.owner? program.kind (program.kind request).identity = some owner →
    owner ≠ program.kind request →
    Refused program session request
      ⟨owner.name, (program.kind request).name, (program.kind request).identity⟩
  /-- Only owners get values from the cache: the first ones that were offered for
  their own requests. -/
  returned : ∀ {request value},
    session.evaluator.cache.get program.kind request = .ok (some value) ↔
      offered.owner? program.kind (program.kind request).identity = some (program.kind request) ∧
      offered.find? request = some value
  /-- Unless it was given from outside, an offered value was computed by the kind
  of its own request. -/
  origin : ∀ {request value}, ⟨request, value⟩ ∈ offered → given ⟨request, value⟩ ∨
    ∃ entered inner computed,
      Run program (program.compute request) entered inner (some (.success value)) computed
  /-- So no evaluation returns a value that another kind has computed. -/
  evaluated : ∀ {depth request value after},
    program.evaluate depth request session = (.success value, after) →
    Returned program session request value
  /-- As many values are stored as there are requests that were offered a value
  and whose kinds own their identities. -/
  length : session.evaluator.cache.length =
    {request | (∃ value, ⟨request, value⟩ ∈ offered) ∧
      offered.owner? program.kind (program.kind request).identity =
        some (program.kind request)}.ncard
  /-- Every kind with stored values is listed once. -/
  kinds : session.evaluator.cache.Lists program.kind

section Refusal

variable {clash : IdentityClash}
variable (clashes : session.evaluator.cache.clash? program.kind request = some clash)
include clashes

private theorem evaluate_of_clash (policy : (program.kind request).caching = .cached)
    (depth : Nat) :
    ∃ message after, program.evaluate (depth + 1) request session = (.aborted message, after) ∧
      after.core = session.core ∧
      (message = clash.message ∨ ∃ conflict : ZoneConflict, message = conflict.message) := by
  rcases meets : session.meetZone (program.kind request).zone with ⟨conflict, met⟩
  cases conflict with
  | some conflict =>
      have receives := Session.receive_eq_iff.mpr (.conflicting meets)
      exact ⟨_, met, evaluate_of_refusal receives rfl, Session.core_of_settled receives (by simp),
        .inr ⟨conflict, rfl⟩⟩
  | none =>
      have coreClashes : session.core.clash? program request = some clash := by
        rw [Core.clash?, policy]
        exact clashes
      have receives := Session.receive_eq_iff.mpr (.refused meets coreClashes)
      exact ⟨_, _, evaluate_of_refusal receives rfl, Session.core_of_settled receives (by simp),
        .inl rfl⟩

private theorem concluded_of_clash (policy : (program.kind request).caching = .cached)
    (value : Value request) :
    ∃ after, session.concluded program request (.success value) = (.aborted clash.message, after) ∧
      after.evaluator.cache = session.evaluator.cache := by
  have coreClashes : session.core.clash? program request = some clash := by
    rw [Core.clash?, policy]
    exact clashes
  rcases concludes : session.concluded program request (.ofAnswer (.ok value)) with
    ⟨outcome, after⟩
  cases Session.finishes_of_concluded concludes with
  | kept noClash _ =>
      rw [coreClashes] at noClash
      cases noClash
  | clashing otherClashes leaves =>
      rw [coreClashes] at otherClashes
      cases otherClashes
      exact ⟨after, concludes, congrArg Core.cache leaves⟩

private theorem refused_of_clash : Refused program session request clash where
  get := by simp only [ResultCache.get, clashes]
  contains := by
    simp only [ResultCache.contains, ResultCache.get, clashes]
    rfl
  insert := fun value =>
    ⟨by simp only [ResultCache.insert, clashes], ResultCache.keep_of_clash clashes⟩
  evaluate := evaluate_of_clash clashes
  conclude := concluded_of_clash clashes

end Refusal

/-- A value that the caches hold comes from the one that the policy names. -/
private theorem returned_of_held {value : Value request}
    (noClash : session.core.clash? program request = none)
    (holds : session.core.held? program request = some value) :
    Returned program session request value := by
  cases policy : (program.kind request).caching with
  | uncached =>
      rw [Core.held?, policy] at holds
      cases holds
  | separatelyCached =>
      rw [Core.held?, policy] at holds
      exact .stored (by rwa [storedOutside, if_pos policy])
  | cached =>
      rw [Core.clash?, policy] at noClash
      rw [Core.held?, policy] at holds
      refine .held policy ?_
      rw [ResultCache.get, show session.evaluator.cache.clash? program.kind request = none from
        noClash]
      exact congrArg Except.ok holds

private theorem returned_of_evaluate {depth : Nat} {value : Value request}
    (evaluates : program.evaluate depth request session = (.success value, after)) :
    Returned program session request value := by
  obtain ⟨history, runs⟩ := exists_run_of_run ((run_evaluate ..).trans evaluates) (by simp)
  have answered : Run program (Computation.evaluate request) session history
      (some (.ofAnswer (.ok value))) after := runs
  rcases answered.evaluate_cases with
    ⟨reception, receives, answers, _⟩ | ⟨entered, computed, inner, receives, computes, _, _⟩
  · cases Session.receive_eq_iff.mp receives with
    | held _ noClash holds =>
        cases answers
        exact returned_of_held noClash holds
    | _ => cases answers
  · exact .computed receives computes

/-- In a result cache that was empty once, the first kind to store a value under an
identity owns it, whatever else is done by any kinds. -/
theorem Operates.identitiesOwned {given : StoredResult Request Value → Prop}
    {first : Session Request Value World} (isEmpty : first.evaluator.cache = [])
    (operates : Operates program given first offered session) :
    IdentitiesOwned program given offered session where
  owner := (operates.accepts isEmpty).owner_eq
  forever := by
    intro more later further
    have grows : session.evaluator.cache <+: later.evaluator.cache := by
      rw [further.cache_eq]
      exact ResultCache.prefix_keepAll _ _ _
    exact ⟨grows, fun _ _ owns => ResultCache.owner?_of_prefix grows owns⟩
  refused := fun owns differs => refused_of_clash (ResultCache.clash?_of_owner owns differs)
  returned := (operates.accepts isEmpty).get_eq_some
  origin := operates.origin
  evaluated := returned_of_evaluate
  length := (operates.accepts isEmpty).length_eq
  kinds := ResultCache.lists_of_owned fun _ isStored => (operates.accepts isEmpty).owned isStored

/-- After a conflict between two zones was survived, the kind of the second one is
refused by the cache. -/
theorem identitiesOwned_twins :
    let program := ({ scripts := [⟨"a", [.add 1]⟩] } : Scenario).program
    let created : Session WorkbenchRequest WorkbenchValue WorkbenchState :=
      { evaluator := .fresh {} false, world := {} }
    ∃ offered session, Operates program (fun _ => False) created offered session ∧
      session.evaluator.cache.kinds program.kind = [("Task", 1)] ∧
      Refused program session (.intruder "x")
        ⟨"Task", "Intruder", (program.kind (.intruder "x")).identity⟩ ∧
      IdentitiesOwned program (fun _ => False) offered session := by
  intro program created
  let stored := (program.evaluate 2 (.task "a") created).2
  let conflicted := (program.evaluate 1 (.intruder "x") stored).2
  have stores : program.evaluate 2 (.task "a") created = (.success 1, stored) := rfl
  have conflicts : program.evaluate 1 (.intruder "x") stored =
      (.aborted (ZoneConflict.message ⟨210, "Script", "Twin"⟩), conflicted) := rfl
  obtain ⟨_, first⟩ := exists_run_of_run ((run_evaluate ..).trans stores) (by simp)
  obtain ⟨_, second⟩ := exists_run_of_run ((run_evaluate ..).trans conflicts) (by simp)
  have operates : Operates program (fun _ => False) created _ conflicted :=
    (Operates.start.evaluated first).evaluated second
  have owned := operates.identitiesOwned rfl
  have isOwner : conflicted.evaluator.cache.owner? program.kind
      (program.kind (.intruder "x")).identity = some (program.kind (.task "a")) := by
    decide +kernel
  exact ⟨_, conflicted, operates, by decide +kernel, owned.refused isOwner (by decide), owned⟩

end Program

end RequestEngine
