import RequestEngine.Fixtures
import RequestEngine.Proofs.Lifetime

/-!
Contract: every memoized request is computed successfully at most once.

Owns:
- what is expected of storage outside the evaluator;
- the invariant that no active request has a value anywhere, and that every
  request computed successfully has one;
- its consequences: every value is kept in an empty slot, and looking for a
  cycle before looking into the caches makes no difference.

Does not own: what the values are.
-/

namespace RequestEngine

variable {Request : Type} [DecidableEq Request] {Value : Request → Type} {World : Type}

/-- How often a request was computed successfully in a history. -/
def successes (request : Request) (history : List (Event Request Value World)) : Nat :=
  history.countP fun
    | .finished other (.ok _) => other = request
    | _ => false

namespace Program

omit [DecidableEq Request] in
/-- Storage outside the evaluator keeps a value under exactly the request that
it was stored for. -/
structure KeepsStored (program : Program Request Value World) : Prop where
  kept : ∀ {world request} (value : Value request),
    (program.kind request).caching = .separatelyCached → program.stored world request = none →
    program.stored (program.store world request value) request = some value
  untouched : ∀ {world request other} (value : Value request),
    (program.kind request).caching = .separatelyCached → other ≠ request →
    program.storedOutside (program.store world request value) other =
      program.storedOutside world other

/-- Two states store the same values. -/
def SameStorage (program : Program Request Value World) (before after : World) : Prop :=
  ∀ request, program.storedOutside after request = program.storedOutside before request

end Program

theorem ResultCache.find?_eq_none {request : Request} {cache : ResultCache Request Value}
    (absent : ∀ entry ∈ cache, entry.request ≠ request) : find? request cache = none := by
  induction cache with
  | nil => rfl
  | cons entry rest inductionHypothesis =>
      rw [find?, dif_neg (absent entry List.mem_cons_self)]
      exact inductionHypothesis fun other inRest => absent other (List.mem_cons_of_mem _ inRest)

namespace Core

variable {program : Program Request Value World} {core : Core Request Value World}
variable {request other : Request}

/-- What the caches hold depends on the result cache and the storage only. -/
theorem held?_congr {left right : Core Request Value World} (sameCache : left.cache = right.cache)
    (sameStored : program.storedOutside left.world request =
      program.storedOutside right.world request) :
    left.held? program request = right.held? program request := by
  unfold Program.storedOutside at sameStored
  unfold held?
  split
  · rfl
  · rw [sameCache]
  case h_3 policy => rwa [if_pos policy, if_pos policy] at sameStored

theorem held?_kept_self (core : Core Request Value World) (keeps : program.KeepsStored)
    (memoized : (program.kind request).caching ≠ .uncached)
    (vacant : core.held? program request = none) (value : Value request) :
    (core.kept program request value).held? program request = some value := by
  unfold held? at vacant ⊢
  unfold kept
  split at vacant
  case h_1 policy => exact absurd policy memoized
  case h_2 policy =>
    simp only [vacant]
    exact ResultCache.find?_append_self vacant value
  case h_3 policy =>
    exact keeps.kept value policy vacant

theorem kept_of_cached (policy : (program.kind request).caching = .cached)
    (vacant : ResultCache.find? request core.cache = none) (value : Value request) :
    core.kept program request value = { core with cache := core.cache ++ [⟨request, value⟩] } := by
  unfold kept
  rw [policy, vacant]
  rfl

theorem kept_of_separatelyCached (policy : (program.kind request).caching = .separatelyCached)
    (value : Value request) :
    core.kept program request value =
      { core with world := program.store core.world request value } := by
  unfold kept
  rw [policy]

theorem held?_kept_other (keeps : program.KeepsStored) (differs : other ≠ request)
    (value : Value request) :
    (core.kept program request value).held? program other = core.held? program other := by
  unfold kept
  split
  case h_1 => rfl
  case h_2 policy =>
    split
    · rfl
    · unfold held?
      split
      · rfl
      · exact ResultCache.find?_append_other differs.symm value
      · rfl
  case h_3 policy => exact held?_congr rfl (keeps.untouched value policy differs)

end Core

/-! ### The invariant -/

section Successes

variable (request : Request) (earlier later : List (Event Request Value World))

@[simp]
theorem successes_append :
    successes request (earlier ++ later) = successes request earlier + successes request later :=
  List.countP_append

@[simp]
theorem successes_finished {other : Request} (value : Value other) :
    successes request [(.finished other (.ok value) : Event Request Value World)] =
      if other = request then 1 else 0 := by
  simp [successes]

end Successes

omit [DecidableEq Request] in
theorem not_mem_dropLast {active : List Request} {request : Request}
    (distinct : active.Nodup) (onTop : active.getLast? = some request) :
    request ∉ active.dropLast := by
  obtain ⟨below, rfl⟩ := List.getLast?_eq_some_iff.mp onTop
  rw [List.dropLast_concat]
  rw [List.nodup_append] at distinct
  intro isBelow
  exact distinct.2.2 request isBelow request (List.mem_singleton_self _) rfl

/-- What holds of memoized requests in every session that is reached. -/
structure Memoized (program : Program Request Value World)
    (history : List (Event Request Value World)) (core : Core Request Value World) : Prop where
  distinct : core.active.Nodup
  onlyCached : ∀ entry ∈ core.cache, (program.kind entry.request).caching = .cached
  vacant : ∀ request ∈ core.active, core.held? program request = none
  computed : ∀ request, (program.kind request).caching ≠ .uncached →
    successes request history = 0 ∨
      successes request history = 1 ∧ core.held? program request ≠ none

namespace Memoized

variable {program : Program Request Value World} {core : Core Request Value World}
variable {history : List (Event Request Value World)} {request : Request}

theorem created {world : World} : Memoized program [] ⟨[], [], world⟩ where
  distinct := List.nodup_nil
  onlyCached := by simp
  vacant := by simp
  computed := fun _ _ => .inl rfl

theorem quiet (memoized : Memoized program history core) (event : Event Request Value World)
    (isQuiet : ∀ request, successes request [event] = 0) :
    Memoized program (history ++ [event]) core where
  distinct := memoized.distinct
  onlyCached := memoized.onlyCached
  vacant := memoized.vacant
  computed := by
    intro request isMemoized
    rw [successes_append, isQuiet]
    exact memoized.computed request isMemoized

/-- A computation begins only for a request that is not active and has no value. -/
theorem entered (memoized : Memoized program history core) (notActive : request ∉ core.active)
    (vacant : core.held? program request = none) : Memoized program history (core.entered request)
    where
  distinct := by
    have together := nodup_appendNew memoized.distinct request
    rwa [appendNew, if_neg notActive] at together
  onlyCached := memoized.onlyCached
  vacant := by
    intro other isActive
    rcases List.mem_append.mp isActive with wasActive | isRequest
    · exact memoized.vacant other wasActive
    · rw [List.mem_singleton.mp isRequest]
      exact vacant
  computed := memoized.computed

theorem popped (memoized : Memoized program history core) : Memoized program history core.popped
    where
  distinct := memoized.distinct.sublist (List.dropLast_sublist _)
  onlyCached := memoized.onlyCached
  vacant := fun other isActive =>
    memoized.vacant other ((List.dropLast_sublist _).subset isActive)
  computed := memoized.computed

/-- A value is kept in an empty slot, for the first and only time. -/
theorem kept (memoized : Memoized program history core) (keeps : program.KeepsStored)
    (onTop : core.active.getLast? = some request) (value : Value request) :
    Memoized program (history ++ [.finished request (.ok value)])
      (core.popped.kept program request value) where
  distinct := by
    rw [Core.active_kept]
    exact memoized.popped.distinct
  onlyCached := by
    intro entry inCache
    unfold Core.kept at inCache
    split at inCache
    case h_1 => exact memoized.onlyCached entry inCache
    case h_3 => exact memoized.onlyCached entry inCache
    case h_2 policy =>
      split at inCache
      · exact memoized.onlyCached entry inCache
      · rcases List.mem_append.mp inCache with wasThere | isNew
        · exact memoized.onlyCached entry wasThere
        · rw [List.mem_singleton.mp isNew]
          exact policy
  vacant := by
    intro other isActive
    rw [Core.active_kept] at isActive
    have differs : other ≠ request := by
      rintro rfl
      exact not_mem_dropLast memoized.distinct onTop isActive
    rw [Core.held?_kept_other keeps differs]
    exact memoized.popped.vacant other isActive
  computed := by
    intro other isMemoized
    rw [successes_append, successes_finished]
    by_cases same : request = other
    · subst same
      have vacant := memoized.vacant request (List.mem_of_getLast? onTop)
      have holds := Core.held?_kept_self core.popped keeps isMemoized vacant value
      rcases memoized.computed request isMemoized with never | ⟨_, held⟩
      · refine .inr ⟨by rw [never, if_pos rfl], ?_⟩
        rw [holds]
        simp
      · exact absurd vacant held
    · rw [if_neg same, Core.held?_kept_other keeps (Ne.symm same)]
      exact memoized.computed other isMemoized

theorem notStored (memoized : Memoized program history core) (isActive : request ∈ core.active) :
    program.storedOutside core.world request = none := by
  unfold Program.storedOutside
  split
  case isTrue policy =>
    have vacant := memoized.vacant request isActive
    unfold Core.held? at vacant
    rwa [policy] at vacant
  case isFalse => rfl

/-- Nobody else changes what is stored. -/
theorem changed (memoized : Memoized program history core) {world : World}
    (sameStorage : program.SameStorage core.world world) :
    Memoized program history { core with world := world } where
  distinct := memoized.distinct
  onlyCached := memoized.onlyCached
  vacant := by
    intro other isActive
    have sameHeld : Core.held? program { core with world := world } other =
        core.held? program other := Core.held?_congr rfl (sameStorage other)
    rw [sameHeld]
    exact memoized.vacant other isActive
  computed := by
    intro other isMemoized
    have sameHeld : Core.held? program { core with world := world } other =
        core.held? program other := Core.held?_congr rfl (sameStorage other)
    rw [sameHeld]
    exact memoized.computed other isMemoized

end Memoized

namespace Program

variable {program : Program Request Value World} {session after : Session Request Value World}
variable {history : List (Event Request Value World)}

/-- Every step preserves the invariant, unless others change what is stored. -/
theorem Step.memoized {event : Event Request Value World}
    (step : Step program session event after) (identities : program.DistinctIdentities)
    (keeps : program.KeepsStored)
    (undisturbed : ∀ change, event = .updated change →
      program.SameStorage session.world (change session.world))
    (memoized : Memoized program history session.core) :
    Memoized program (history ++ [event]) after.core := by
  cases step with
  | @received _ request reception receives =>
      have asked := memoized.quiet (.received request reception) fun _ => rfl
      by_cases settled : reception = .computing
      · subst settled
        rw [Session.core_of_computing receives]
        cases Session.receive_eq_iff.mp receives with
        | computing meets noClash vacant notActive => exact asked.entered notActive vacant
      · rw [Session.core_of_settled receives settled]
        exact asked
  | finished onTop concludes =>
      cases Session.finishes_of_concluded concludes with
      | failed leaves =>
          rw [leaves]
          exact (memoized.quiet _ fun _ => rfl).popped
      | clashing clashes leaves =>
          rw [Core.clash?_of_distinctIdentities identities] at clashes
          cases clashes
      | kept noClash leaves =>
          rw [leaves]
          exact memoized.kept keeps onTop _
  | abandoned =>
      rw [Session.core_notifyFinished]
      exact memoized.quiet _ fun _ => rfl
  | reported => exact memoized.quiet _ fun _ => rfl
  | updated => exact (memoized.quiet _ fun _ => rfl).changed (undisturbed _ rfl)

theorem Steps.memoized {further : List (Event Request Value World)}
    (steps : Steps program session further after) (identities : program.DistinctIdentities)
    (keeps : program.KeepsStored)
    (undisturbed : Undisturbed program program.SameStorage session further)
    (memoized : Memoized program history session.core) :
    Memoized program (history ++ further) after.core :=
  steps.preserves (fun history session => Memoized program history session.core)
    (fun step undisturbed memoized => step.memoized identities keeps undisturbed memoized)
    undisturbed memoized

/-- The invariant holds in every session that an evaluator reaches, as long as
others leave its storage alone. -/
theorem Reached.memoized (reached : Reached program program.SameStorage history session)
    (identities : program.DistinctIdentities) (keeps : program.KeepsStored) :
    Memoized program history session.core := by
  refine reached.preserves (fun history session => Memoized program history session.core) ?_ ?_ ?_
  · intro session noneActive noneCached
    have core : session.core = ⟨[], [], session.world⟩ := by
      rw [Session.core, noneActive, noneCached]
    rw [core]
    exact .created
  · intro past event before after step undisturbed memoized
    exact step.memoized identities keeps undisturbed memoized
  · intro past before after sameActive sameCache sameStorage memoized
    have core : after.core = { before.core with world := after.world } := by
      rw [Session.core, sameActive, sameCache]
      rfl
    rw [core]
    exact memoized.changed sameStorage

end Program

/-! ### Looking for a cycle first -/

namespace Program

variable {program : Program Request Value World} {session after : Session Request Value World}
variable {history : List (Event Request Value World)}

/-- Whatever a computation does, others leave the storage alone. -/
def Calm {α : Type} (program : Program Request Value World)
    (computation : Computation Request Value World α) (session : Session Request Value World) :
    Prop :=
  ∀ history ended after, Run program computation session history ended after →
    Undisturbed program program.SameStorage session history

theorem Calm.nested {α : Type} {request : Request} {entered : Session Request Value World}
    {resume : Except Failure (Value request) → Computation Request Value World α}
    (calm : Calm program (.ask request resume) session)
    (receives : session.receive program request = (.computing, entered)) :
    Calm program (program.compute request) entered := by
  intro inner ended after computes
  have goesOn : Run program (program.compute request) entered inner none after := by
    cases ended with
    | none => exact computes
    | some outcome => exact .unnoticed computes
  exact (calm _ _ _ (.within receives goesOn)).next (.received receives)

theorem Calm.resumed {α : Type} {request : Request} {answer : Except Failure (Value request)}
    {resume : Except Failure (Value request) → Computation Request Value World α}
    (calm : Calm program (.ask request resume) session)
    (evaluates : Run program (Computation.evaluate request) session history
      (some (.ofAnswer answer)) after) :
    Calm program (resume answer) after := by
  intro further ended last resumes
  exact (calm _ _ _ (evaluates.ask_of_evaluate resumes)).behind history further evaluates.steps

end Program

/-! ### The sample requests -/

namespace Fixtures

theorem distinctIdentities (forest : List TreeNode) : (program forest).DistinctIdentities := by
  let samples : List FixtureRequest :=
    [.square 0, .squareUncached 0, .fibonacci 0, .cycleA 0, .cycleB 0, .selfCycle "", .failing,
      .flaky 0, .nodeDepth 0]
  have sampled : ∀ request : FixtureRequest, request.kind ∈ samples.map FixtureRequest.kind := by
    intro request
    cases request <;> simp [samples, FixtureRequest.kind]
  have distinct : ∀ left ∈ samples.map FixtureRequest.kind,
      ∀ right ∈ samples.map FixtureRequest.kind, left.identity = right.identity → left = right := by
    decide
  exact fun left right => distinct _ (sampled left) _ (sampled right)

theorem depth?_keepDepth_self {state : FixtureState} {node : Nat}
    (vacant : state.depth? node = none) (depth : UInt32) :
    (state.keepDepth node depth).depth? node = some depth := by
  have absent := Option.map_eq_none_iff.mp vacant
  simp [FixtureState.keepDepth, FixtureState.depth?, List.find?_append, absent]

theorem depth?_keepDepth_other {state : FixtureState} {node other : Nat} (differs : other ≠ node)
    (depth : UInt32) : (state.keepDepth node depth).depth? other = state.depth? other := by
  unfold FixtureState.keepDepth
  split
  · rfl
  · simp [FixtureState.depth?, List.find?_append, differs.symm]

theorem keepsStored (forest : List TreeNode) : (program forest).KeepsStored where
  kept := by
    intro world request value policy vacant
    cases request with
    | nodeDepth node => exact depth?_keepDepth_self vacant value
    | _ => cases policy
  untouched := by
    intro world request other value policy differs
    cases request with
    | nodeDepth node =>
        cases other with
        | nodeDepth other =>
            have otherNode : other ≠ node := by
              rintro rfl
              exact differs rfl
            have sameDepth : (world.keepDepth node value).depth? other = world.depth? other :=
              depth?_keepDepth_other otherNode value
            exact sameDepth
        | _ => rfl
    | _ => cases policy

end Fixtures

namespace Program

end Program

end RequestEngine
