import RequestEngine.Proofs.Memoization

/-!
Contract: what evaluations leave in the caches.

Owns:
- the values that a history puts into the result cache;
- the separation of the result cache from the stack;
- what an evaluation adds to the result cache and to storage outside the
  evaluator, in whichever way it ends.

The result cache needs distinct identities only. What is said about storage
outside the evaluator needs in addition that the storage keeps what it is given
and that nobody else writes to it.

Does not own: whether the values are the right ones.
-/

namespace RequestEngine

variable {Request : Type} [DecidableEq Request] {Value : Request → Type} {World : Type}

/-! ### Successes of a history -/

/-- The value that an event puts into the result cache. -/
def Event.keptResult? (kind : Request → RequestKind) :
    Event Request Value World → Option (StoredResult Request Value)
  | .finished request (.ok value) =>
      if (kind request).caching = .cached then some ⟨request, value⟩ else none
  | .finished _ (.error _) | .received _ _ | .abandoned _ | .reported _ | .updated _ => none

/-- The values that a history puts into the result cache, in order. -/
def keptResults (kind : Request → RequestKind) (history : List (Event Request Value World)) :
    ResultCache Request Value :=
  history.filterMap (Event.keptResult? kind)

section KeptResults

variable {kind : Request → RequestKind} {history : List (Event Request Value World)}
variable {request : Request} {value : Value request}

omit [DecidableEq Request] in
@[simp]
theorem keptResults_append (earlier later : List (Event Request Value World)) :
    keptResults kind (earlier ++ later) = keptResults kind earlier ++ keptResults kind later :=
  List.filterMap_append

omit [DecidableEq Request] in
/-- The result cache gets exactly the successes of cached requests. -/
theorem mem_keptResults :
    ⟨request, value⟩ ∈ keptResults kind history ↔
      (kind request).caching = .cached ∧ .finished request (.ok value) ∈ history := by
  unfold keptResults
  rw [List.mem_filterMap]
  constructor
  · rintro ⟨event, happened, keeps⟩
    cases event with
    | finished other answer =>
        cases answer with
        | error failure => cases keeps
        | ok found =>
            rw [Event.keptResult?] at keeps
            split at keeps
            case isTrue policy =>
              cases keeps
              exact ⟨policy, happened⟩
            case isFalse => cases keeps
    | _ => cases keeps
  · rintro ⟨policy, happened⟩
    exact ⟨_, happened, if_pos policy⟩

end KeptResults

namespace ResultCache

variable {cache : ResultCache Request Value} {request : Request} {value : Value request}

/-- Where no request has two entries, looking a request up finds its entry. -/
theorem find?_eq_some_iff_mem (distinct : (cache.map StoredResult.request).Nodup) :
    find? request cache = some value ↔ ⟨request, value⟩ ∈ cache := by
  refine ⟨mem_of_find?, fun isEntry => ?_⟩
  induction cache with
  | nil => cases isEntry
  | cons entry rest inductionHypothesis =>
      rw [List.map_cons, List.nodup_cons] at distinct
      rcases List.mem_cons.mp isEntry with isFirst | inRest
      · rw [← isFirst]
        simp [find?]
      · have differs : entry.request ≠ request := by
          intro same
          refine distinct.1 (List.mem_map.mpr ⟨_, inRest, same.symm⟩)
        rw [find?, dif_neg differs]
        exact inductionHypothesis distinct.2 inRest

end ResultCache

/-! ### The result cache and the stack -/

/-- The result cache and the stack have no request in common. -/
structure Separated (program : Program Request Value World) (core : Core Request Value World) :
    Prop where
  activeDistinct : core.active.Nodup
  entriesDistinct : (core.cache.map StoredResult.request).Nodup
  onlyCached : ∀ entry ∈ core.cache, (program.kind entry.request).caching = .cached
  notActive : ∀ entry ∈ core.cache, entry.request ∉ core.active

namespace Separated

variable {program : Program Request Value World} {core : Core Request Value World}
variable {request : Request}

omit [DecidableEq Request] in
theorem created {world : World} : Separated program ⟨[], [], world⟩ where
  activeDistinct := List.nodup_nil
  entriesDistinct := List.nodup_nil
  onlyCached := by simp
  notActive := by simp

theorem vacant (separated : Separated program core) (isActive : request ∈ core.active) :
    ResultCache.find? request core.cache = none := by
  refine ResultCache.find?_eq_none fun entry inCache isRequest => ?_
  rw [← isRequest] at isActive
  exact separated.notActive entry inCache isActive

/-- A computation begins only for a request without an entry. -/
theorem entered (separated : Separated program core) (notActive : request ∉ core.active)
    (vacant : core.held? program request = none) : Separated program (core.entered request) where
  activeDistinct := by
    have together := nodup_appendNew separated.activeDistinct request
    rwa [appendNew, if_neg notActive] at together
  entriesDistinct := separated.entriesDistinct
  onlyCached := separated.onlyCached
  notActive := by
    intro entry inCache isActive
    rcases List.mem_append.mp isActive with wasActive | isRequest
    · exact separated.notActive entry inCache wasActive
    · -- The entry would have answered the request.
      obtain rfl := List.mem_singleton.mp isRequest
      have holds : ResultCache.find? entry.request core.cache = some entry.value :=
        (ResultCache.find?_eq_some_iff_mem separated.entriesDistinct).mpr inCache
      unfold Core.held? at vacant
      rw [separated.onlyCached entry inCache] at vacant
      exact absurd (holds.symm.trans vacant) (by simp)

omit [DecidableEq Request] in
theorem popped (separated : Separated program core) : Separated program core.popped where
  activeDistinct := separated.activeDistinct.sublist (List.dropLast_sublist _)
  entriesDistinct := separated.entriesDistinct
  onlyCached := separated.onlyCached
  notActive := fun entry inCache isActive =>
    separated.notActive entry inCache ((List.dropLast_sublist _).subset isActive)

omit [DecidableEq Request] in
theorem changed (separated : Separated program core) (world : World) :
    Separated program { core with world := world } :=
  ⟨separated.activeDistinct, separated.entriesDistinct, separated.onlyCached, separated.notActive⟩

/-- The value of the topmost request is added to the result cache, if the policy says so. -/
theorem cache_kept (separated : Separated program core)
    (onTop : core.active.getLast? = some request) (value : Value request) :
    (core.popped.kept program request value).cache = core.cache ++
      keptResults program.kind [(.finished request (.ok value) : Event Request Value World)] := by
  unfold keptResults
  rw [List.filterMap_cons, Event.keptResult?]
  cases policy : (program.kind request).caching with
  | uncached => simp [Core.kept, Core.popped, policy]
  | separatelyCached => simp [Core.kept, Core.popped, policy]
  | cached =>
      have vacant : ResultCache.find? request core.popped.cache = none :=
        separated.vacant (List.mem_of_getLast? onTop)
      rw [Core.kept_of_cached policy vacant]
      rfl

theorem kept (separated : Separated program core) (onTop : core.active.getLast? = some request)
    (value : Value request) : Separated program (core.popped.kept program request value) := by
  have isActive := List.mem_of_getLast? onTop
  cases policy : (program.kind request).caching with
  | uncached =>
      unfold Core.kept
      rw [policy]
      exact separated.popped
  | separatelyCached =>
      rw [Core.kept_of_separatelyCached policy]
      exact separated.popped.changed _
  | cached =>
      have vacant : ResultCache.find? request core.popped.cache = none :=
        separated.vacant isActive
      rw [Core.kept_of_cached policy vacant]
      refine ⟨separated.popped.activeDistinct, ?_, ?_, ?_⟩
      · rw [List.map_append]
        refine List.nodup_append.mpr ⟨separated.entriesDistinct, by simp, ?_⟩
        rintro other isEntry _ isNew rfl
        obtain ⟨entry, inCache, rfl⟩ := List.mem_map.mp isEntry
        obtain same : entry.request = request := by simpa using isNew
        rw [← same] at isActive
        exact separated.notActive entry inCache isActive
      · intro entry inCache
        rcases List.mem_append.mp inCache with wasThere | isNew
        · exact separated.onlyCached entry wasThere
        · rw [List.mem_singleton.mp isNew]
          exact policy
      · intro entry inCache
        rcases List.mem_append.mp inCache with wasThere | isNew
        · exact separated.popped.notActive entry wasThere
        · rw [List.mem_singleton.mp isNew]
          exact not_mem_dropLast separated.activeDistinct onTop

end Separated

/-- Where a request has no value outside the evaluator, keeping one there
changes that request only. -/
theorem Core.storedOutside_kept {program : Program Request Value World}
    {core : Core Request Value World} (keeps : program.KeepsStored) {request other : Request}
    {found : Value request} {value : Value other}
    (policy : (program.kind other).caching = .separatelyCached)
    (vacant : program.storedOutside core.world request = none) :
    program.storedOutside (core.kept program request found).world other = some value ↔
      program.storedOutside core.world other = some value ∨
        (⟨other, value⟩ : StoredResult Request Value) = ⟨request, found⟩ := by
  by_cases same : other = request
  · subst same
    have stored := vacant
    unfold Program.storedOutside at stored ⊢
    rw [if_pos policy] at stored
    rw [if_pos policy, if_pos policy, kept_of_separatelyCached policy, stored,
      keeps.kept found policy stored]
    simp [eq_comm]
  · have noOther : (⟨other, value⟩ : StoredResult Request Value) ≠ ⟨request, found⟩ :=
      fun isOther => same (congrArg StoredResult.request isOther)
    rw [or_iff_left noOther]
    unfold kept
    split
    case h_1 => rfl
    case h_2 => split <;> rfl
    case h_3 otherPolicy => rw [keeps.untouched found otherPolicy same]

/-! ### Steps -/

namespace Program

variable {program : Program Request Value World} {session after final : Session Request Value World}
variable {history : List (Event Request Value World)} {request : Request}

/-- A step whose value can be kept keeps the result cache apart from the stack,
and adds to the result cache what its event says. -/
theorem Step.separated_of_noClash {event : Event Request Value World}
    (step : Step program session event after)
    (noClash : ∀ request value, event = .finished request (.ok value) →
      session.core.clash? program request = none)
    (separated : Separated program session.core) :
    Separated program after.core ∧
      after.evaluator.cache = session.evaluator.cache ++ keptResults program.kind [event] := by
  have unchanged : ∀ {core : Core Request Value World}, after.core = core →
      core.cache = session.evaluator.cache →
      after.evaluator.cache = session.evaluator.cache ++ [] := by
    intro core isCore same
    rw [List.append_nil, ← same]
    exact congrArg Core.cache isCore
  cases step with
  | @received _ request reception receives =>
      by_cases settled : reception = .computing
      · subst settled
        have entersCore := Session.core_of_computing receives
        cases Session.receive_eq_iff.mp receives with
        | computing meets noClash vacant notActive =>
            rw [entersCore]
            exact ⟨separated.entered notActive vacant, unchanged entersCore rfl⟩
      · have sameCore := Session.core_of_settled receives settled
        rw [sameCore]
        exact ⟨separated, unchanged sameCore rfl⟩
  | @finished _ request answer outcome onTop concludes =>
      cases Session.finishes_of_concluded concludes with
      | failed leaves =>
          rw [leaves]
          exact ⟨separated.popped, unchanged leaves rfl⟩
      | @clashing value _ _ clashes leaves =>
          rw [noClash request value rfl] at clashes
          cases clashes
      | @kept value _ _ leaves =>
          rw [leaves]
          refine ⟨separated.kept onTop value, ?_⟩
          exact (congrArg Core.cache leaves).trans (separated.cache_kept onTop value)
  | abandoned =>
      rw [Session.core_notifyFinished]
      exact ⟨separated, unchanged (Session.core_notifyFinished _) rfl⟩
  | reported => exact ⟨separated, unchanged rfl rfl⟩
  | updated => exact ⟨separated.changed _, unchanged rfl rfl⟩

/-- Every step keeps the result cache apart from the stack, and adds to the
result cache what its event says. -/
theorem Step.separated {event : Event Request Value World}
    (step : Step program session event after) (identities : program.DistinctIdentities)
    (separated : Separated program session.core) :
    Separated program after.core ∧
      after.evaluator.cache = session.evaluator.cache ++ keptResults program.kind [event] :=
  step.separated_of_noClash
    (fun request _ _ => Core.clash?_of_distinctIdentities identities _ request) separated

theorem Steps.separated (steps : Steps program session history final)
    (identities : program.DistinctIdentities) (separated : Separated program session.core) :
    Separated program final.core ∧
      final.evaluator.cache = session.evaluator.cache ++ keptResults program.kind history := by
  induction steps with
  | nil => exact ⟨separated, (List.append_nil _).symm⟩
  | @cons _ _ _ event later first _ inductionHypothesis =>
      obtain ⟨middleSeparated, added⟩ := first.separated identities separated
      obtain ⟨finalSeparated, addedLater⟩ := inductionHypothesis middleSeparated
      refine ⟨finalSeparated, ?_⟩
      rw [addedLater, added, List.append_assoc, ← keptResults_append]
      rfl

/-- The result cache and the stack are apart in every session that an evaluator
reaches, whatever others do to the state of the program. -/
theorem Reached.separated {permitted : World → World → Prop}
    (reached : Reached program permitted history session)
    (identities : program.DistinctIdentities) : Separated program session.core := by
  refine reached.preserves (fun _ session => Separated program session.core) ?_ ?_ ?_
  · intro session noneActive noneCached
    have core : session.core = ⟨[], [], session.world⟩ := by
      rw [Session.core, noneActive, noneCached]
    rw [core]
    exact .created
  · intro past event before after step _ separated
    exact (step.separated identities separated).1
  · intro past before after sameActive sameCache _ separated
    have core : after.core = { before.core with world := after.world } := by
      rw [Session.core, sameActive, sameCache]
      rfl
    rw [core]
    exact separated.changed _

/-- Every step stores outside the evaluator what its event says. -/
theorem Step.stored_iff {event : Event Request Value World}
    (step : Step program session event after) (identities : program.DistinctIdentities)
    (keeps : program.KeepsStored)
    (undisturbed : ∀ change, event = .updated change →
      program.SameStorage session.world (change session.world))
    (memoized : Memoized program history session.core) {other : Request} {value : Value other}
    (policy : (program.kind other).caching = .separatelyCached) :
    program.storedOutside after.world other = some value ↔
      program.storedOutside session.world other = some value ∨
        event = .finished other (.ok value) := by
  have unchanged : ∀ {core : Core Request Value World}, after.core = core →
      core.world = session.world → event ≠ .finished other (.ok value) →
      (program.storedOutside after.world other = some value ↔
        program.storedOutside session.world other = some value ∨
          event = .finished other (.ok value)) := by
    intro core isCore same noSuccess
    have world : after.world = session.world := (congrArg Core.world isCore).trans same
    rw [world, or_iff_left noSuccess]
  cases step with
  | @received _ request reception receives =>
      have received := (Session.receive_eq_iff.mp receives).core_eq
      refine unchanged received ?_ (by simp)
      cases reception <;> rfl
  | @finished _ request answer outcome onTop concludes =>
      cases Session.finishes_of_concluded concludes with
      | failed leaves => exact unchanged leaves rfl (by intro same; cases same)
      | clashing clashes leaves =>
          rw [Core.clash?_of_distinctIdentities identities] at clashes
          cases clashes
      | @kept found _ noClash leaves =>
          have world : after.world = (session.core.popped.kept program request found).world :=
            congrArg Core.world leaves
          have vacant : program.storedOutside session.core.popped.world request = none :=
            memoized.notStored (List.mem_of_getLast? onTop)
          rw [world, Core.storedOutside_kept keeps policy vacant]
          refine or_congr Iff.rfl ⟨?_, ?_⟩
          · intro same
            cases same
            rfl
          · intro same
            cases same
            rfl
  | abandoned => exact unchanged (Session.core_notifyFinished _) rfl (by simp)
  | reported => exact unchanged rfl rfl (by simp)
  | updated =>
      rw [undisturbed _ rfl other]
      simp

theorem Steps.stored_iff {further : List (Event Request Value World)}
    (steps : Steps program session further final) (identities : program.DistinctIdentities)
    (keeps : program.KeepsStored)
    (undisturbed : Undisturbed program program.SameStorage session further)
    (memoized : Memoized program history session.core) {other : Request} {value : Value other}
    (policy : (program.kind other).caching = .separatelyCached) :
    program.storedOutside final.world other = some value ↔
      program.storedOutside session.world other = some value ∨
        .finished other (.ok value) ∈ further := by
  induction steps generalizing history with
  | nil => simp
  | @cons _ _ _ event later first _ inductionHypothesis =>
      have middleMemoized :=
        first.memoized identities keeps (fun _ => undisturbed.head) memoized
      rw [inductionHypothesis (undisturbed.next first) middleMemoized,
        first.stored_iff identities keeps (fun _ => undisturbed.head) memoized policy,
        List.mem_cons, or_assoc, @eq_comm _ event]

/-! ### Evaluations -/

/-- After an evaluation was answered, the caches hold a value of its request
exactly if that is the answer. -/
private theorem held_iff_of_answer {answer : Except Failure (Value request)}
    (runs : Run program (Computation.evaluate request) session history
      (some (.ofAnswer answer)) after)
    (vacant : ∀ earlier moment, earlier <+: history → Steps program session earlier moment →
      request ∈ moment.evaluator.active → moment.core.held? program request = none)
    (kept : ∀ (core : Core Request Value World) (value : Value request),
      core.held? program request = none →
      (core.kept program request value).held? program request = some value)
    (value : Value request) :
    after.core.held? program request = some value ↔ answer = .ok value := by
  rcases runs.evaluate_cases with
    ⟨reception, receives, answers, _⟩ |
    ⟨entered, computed, inner, receives, computes, concludes, rfl⟩
  · rw [Session.core_of_settled receives (Reception.ne_computing_of_answer answers)]
    cases Session.receive_eq_iff.mp receives with
    | held _ _ holds =>
        cases answers
        rw [holds]
        simp
    | rejected _ _ isVacant _ =>
        cases answers
        rw [isVacant]
        simp
    | conflicting _ => cases answers
    | refused _ _ => cases answers
    | computing _ _ _ _ => cases answers
  · have onTop := onTop_of_computed receives computes
    have isVacant : computed.core.popped.held? program request = none :=
      vacant (.received request .computing :: inner) computed ⟨[.finished request answer], rfl⟩
        (.cons (.received receives) computes.steps) (List.mem_of_getLast? onTop)
    have finishes := Session.finishes_of_concluded concludes
    generalize outcomeEq : Outcome.ofAnswer answer = outcome at finishes
    cases finishes with
    | failed leaves =>
        rw [leaves, isVacant]
        simp
    | kept _ leaves =>
        rw [leaves, kept _ _ isVacant]
        simp
    | clashing _ _ => cases outcomeEq

/-- What an evaluation does to the result cache. `call` is everything that
happens in it. -/
structure CacheKeepsSuccesses (program : Program Request Value World)
    (session : Session Request Value World) (request : Request)
    (call : List (Event Request Value World)) (outcome : Outcome (Value request))
    (after : Session Request Value World) : Prop where
  /-- The entries from before stay as they are, and behind them comes an entry
  for every success of a cached request. -/
  added : after.evaluator.cache = session.evaluator.cache ++ keptResults program.kind call
  /-- No request has two entries. -/
  distinct : (after.evaluator.cache.map StoredResult.request).Nodup
  onlyCached : ∀ entry ∈ after.evaluator.cache, (program.kind entry.request).caching = .cached
  /-- A request without a success gets no entry, however often it was asked for. -/
  unsuccessful : ∀ other, (∀ value, .finished other (.ok value) ∉ call) →
    ResultCache.find? other after.evaluator.cache = ResultCache.find? other session.evaluator.cache
  /-- The request itself is cached exactly if it was answered with a value, and
  then with that value. -/
  answered : (program.kind request).caching = .cached →
    ∀ answer, outcome = .ofAnswer answer → ∀ value,
      ResultCache.find? request after.evaluator.cache = some value ↔ outcome = .success value

/-- What an evaluation does to storage outside the evaluator. -/
structure StorageKeepsSuccesses (program : Program Request Value World)
    (session : Session Request Value World) (request : Request)
    (call : List (Event Request Value World)) (outcome : Outcome (Value request))
    (after : Session Request Value World) : Prop where
  /-- The values from before stay, and every success of a separately cached
  request is stored. -/
  added : ∀ {other : Request} {value : Value other},
    (program.kind other).caching = .separatelyCached →
    (program.stored after.world other = some value ↔
      program.stored session.world other = some value ∨ .finished other (.ok value) ∈ call)
  /-- No request succeeds twice. -/
  once : ∀ other, (program.kind other).caching = .separatelyCached → successes other call ≤ 1
  /-- The request itself is stored exactly if it was answered with a value, and
  then with that value. -/
  answered : (program.kind request).caching = .separatelyCached →
    ∀ answer, outcome = .ofAnswer answer → ∀ value,
      program.stored after.world request = some value ↔ outcome = .success value

private theorem cacheKeepsSuccesses {call : List (Event Request Value World)}
    {outcome : Outcome (Value request)}
    (runs : Run program (Computation.evaluate request) session call (some outcome) after)
    (identities : program.DistinctIdentities) (separated : Separated program session.core) :
    CacheKeepsSuccesses program session request call outcome after where
  added := (runs.steps.separated identities separated).2
  distinct := (runs.steps.separated identities separated).1.entriesDistinct
  onlyCached := (runs.steps.separated identities separated).1.onlyCached
  unsuccessful := by
    intro other failed
    obtain ⟨finalSeparated, added⟩ := runs.steps.separated identities separated
    refine Option.ext fun value => ?_
    refine (ResultCache.find?_eq_some_iff_mem finalSeparated.entriesDistinct).trans ?_
    refine Iff.trans ?_ (ResultCache.find?_eq_some_iff_mem separated.entriesDistinct).symm
    show ⟨other, value⟩ ∈ after.evaluator.cache ↔ ⟨other, value⟩ ∈ session.evaluator.cache
    rw [added, List.mem_append, mem_keptResults]
    exact or_iff_left fun succeeded => failed value succeeded.2
  answered := by
    rintro policy answer rfl value
    have found : ∀ core : Core Request Value World,
        core.held? program request = ResultCache.find? request core.cache := by
      intro core
      rw [Core.held?, policy]
    have holds := held_iff_of_answer runs
      (fun _ moment _ steps isActive => by
        rw [found]
        exact (steps.separated identities separated).1.vacant isActive)
      (fun core value vacant => by
        rw [found] at vacant ⊢
        rw [Core.kept_of_cached policy vacant]
        exact ResultCache.find?_append_self vacant value)
      value
    rw [found, ← Outcome.ofAnswer_inj] at holds
    exact holds

private theorem storageKeepsSuccesses {past call : List (Event Request Value World)}
    {outcome : Outcome (Value request)}
    (runs : Run program (Computation.evaluate request) session call (some outcome) after)
    (identities : program.DistinctIdentities) (keeps : program.KeepsStored)
    (undisturbed : Undisturbed program program.SameStorage session call)
    (memoized : Memoized program past session.core) :
    StorageKeepsSuccesses program session request call outcome after where
  added := by
    intro other value policy
    have stored : program.storedOutside after.world other = some value ↔
        program.storedOutside session.world other = some value ∨
          .finished other (.ok value) ∈ call :=
      runs.steps.stored_iff identities keeps undisturbed memoized policy
    unfold storedOutside at stored
    rwa [if_pos policy, if_pos policy] at stored
  once := by
    intro other policy
    have memoizedAfter := runs.steps.memoized identities keeps undisturbed memoized
    rcases memoizedAfter.computed other (by rw [policy]; simp) with never | ⟨atMostOnce, _⟩
    · rw [successes_append] at never
      omega
    · rw [successes_append] at atMostOnce
      omega
  answered := by
    rintro policy answer rfl value
    have isMemoized : (program.kind request).caching ≠ .uncached := by
      rw [policy]
      simp
    have stored : ∀ core : Core Request Value World,
        core.held? program request = program.stored core.world request := by
      intro core
      rw [Core.held?, policy]
    have holds := held_iff_of_answer runs
      (fun earlier moment isPart steps isActive => by
        obtain ⟨rest, rfl⟩ := isPart
        exact (steps.memoized identities keeps undisturbed.part memoized).vacant request isActive)
      (fun core value vacant => Core.held?_kept_self core keeps isMemoized vacant value)
      value
    rw [stored, ← Outcome.ofAnswer_inj] at holds
    exact holds

/-- In whichever way an evaluation ends, the caches hold exactly the successes
of its requests afterwards, on top of what they held before. -/
theorem Reached.keepsSuccesses {permitted : World → World → Prop}
    {past : List (Event Request Value World)}
    (reached : Reached program permitted past session) (identities : program.DistinctIdentities)
    {depth : Nat} {outcome : Outcome (Value request)}
    (evaluates : program.evaluate depth request session = (outcome, after))
    (decided : outcome ≠ .tooDeep) :
    ∃ call, Run program (Computation.evaluate request) session call (some outcome) after ∧
      CacheKeepsSuccesses program session request call outcome after ∧
      (program.KeepsStored →
        (∀ before after, permitted before after → program.SameStorage before after) →
        Undisturbed program program.SameStorage session call →
        StorageKeepsSuccesses program session request call outcome after) := by
  obtain ⟨call, runs⟩ :=
    exists_run_of_run ((run_evaluate program depth request session).trans evaluates) decided
  refine ⟨call, runs, cacheKeepsSuccesses runs identities (reached.separated identities), ?_⟩
  intro keeps permits undisturbed
  exact storageKeepsSuccesses runs identities keeps undisturbed
    ((reached.mono permits).memoized identities keeps)

/-- The depth of a node whose first child has a depth, and whose second child is
the node itself. The computation fails, and the depth of the first child is kept. -/
theorem keepsSuccesses_nodeCycle :
    let program := Fixtures.program [⟨"a", [1, 0]⟩, ⟨"b", []⟩]
    let created : Session FixtureRequest FixtureValue FixtureState :=
      { evaluator := .fresh {} false, world := {} }
    ∃ failure after call,
      program.evaluate 3 (.nodeDepth 0) created = (.failed failure, after) ∧
      .finished (.nodeDepth 1) (.ok 0) ∈ call ∧
      CacheKeepsSuccesses program created (.nodeDepth 0) call (.failed failure) after ∧
      StorageKeepsSuccesses program created (.nodeDepth 0) call (.failed failure) after := by
  intro program created
  let change : FixtureState → FixtureState := FixtureState.count .nodeDepth
  let entered := (created.receive program (.nodeDepth 0)).2
  let outer := { entered with world := change entered.world }
  let below := (outer.receive program (.nodeDepth 1)).2
  let inner := { below with world := change below.world }
  let left := (inner.concluded program (.nodeDepth 1) (.ofAnswer (.ok 0))).2
  let error := left.cycleError program (.nodeDepth 0)
  let report := Session.cycleReport program (.nodeDepth 0) [.nodeDepth 0]
  let rejected := (left.receive program (.nodeDepth 0)).2
  let answer : Except Failure UInt32 := .error (.cycle error)
  let after := (rejected.concluded program (.nodeDepth 0) (.ofAnswer answer)).2
  let within : List (Event FixtureRequest FixtureValue FixtureState) :=
    [.updated change, .received (.nodeDepth 1) .computing, .updated change,
      .finished (.nodeDepth 1) (.ok 0), .received (.nodeDepth 0) (.rejected error report)]
  have computesInner : Run program (program.compute (.nodeDepth 1)) below [.updated change]
      (some (.ofAnswer (.ok 0))) inner := .read (.update .done)
  have computes : Run program (program.compute (.nodeDepth 0)) entered within
      (some (.ofAnswer answer)) rejected :=
    .read (.update (.returned rfl computesInner rfl (.answered rfl rfl .fail)))
  have receives : created.receive program (.nodeDepth 0) = (.computing, entered) := rfl
  have runs := Run.evaluate_of_computed receives computes rfl
  have evaluates : program.evaluate 3 (.nodeDepth 0) created = (.failed (.cycle error), after) :=
    rfl
  have reached : Reached program program.SameStorage [] created := .created rfl
  obtain ⟨call, callRuns, cache, storage⟩ :=
    reached.keepsSuccesses (Fixtures.distinctIdentities _) evaluates (by simp)
  obtain ⟨rfl, _, _⟩ := runs.unique rfl callRuns
  refine ⟨.cycle error, after, _, evaluates, by simp [within], cache,
    storage (Fixtures.keepsStored _) (fun _ _ same => same) ?_⟩
  intro earlier later other moment parts _
  have isChange : Event.updated other ∈
      .received (.nodeDepth 0) .computing :: (within ++ [.finished (.nodeDepth 0) answer]) := by
    rw [parts]
    exact List.mem_append_right _ List.mem_cons_self
  obtain rfl : other = change := by simpa [within] using isChange
  intro request
  cases request <;> rfl

end Program

end RequestEngine
