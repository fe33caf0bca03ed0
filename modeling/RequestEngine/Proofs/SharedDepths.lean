import RequestEngine.Proofs.AnalysisRun
import RequestEngine.Proofs.SharedStorage
import RequestEngine.Workshop

/-!
Contract: depths kept on declarations are right, whoever has kept them.

Owns:
- evaluators that share the declarations of a graph, and what can happen to them;
- what the depths on the declarations are, in every state that they reach, also in
  the middle of a call;
- that a set depth stays, and that reading it is as good as computing it.

A depth is set in the middle of a call, which may still fail, end in a cycle, or
end abruptly, and the declarations outlive every evaluator. Calls from outside
come in any order and from any evaluator, and others may change everything that
is shared except the declarations.

Does not own: calls that overlap in time.
-/

namespace RequestEngine

namespace Analysis

open Program

variable {graph : Graph} {cells before after : DepthCells} {name : String}

/-! ### Depths on declarations -/

/-- A depth is set on a declaration only if its name is sound, and then it is the
length of the longest dependency path from there. -/
def DepthsRight (graph : Graph) (cells : DepthCells) : Prop :=
  ∀ name depth, cells.depth? name = some depth →
    graph.declared.Sound name ∧ IsGreatest (graph.declared.lengths name) depth.toNat

/-- Every depth that was set stays as it is. -/
def Retained (before after : DepthCells) : Prop :=
  ∀ name depth, before.depth? name = some depth → after.depth? name = some depth

/-- What was set stays, and what is new is on declarations of the graph. -/
structure Grows (graph : Graph) (before after : DepthCells) : Prop where
  retained : Retained before after
  declared : ∀ name depth, after.depth? name = some depth →
    before.depth? name = some depth ∨ (graph.find? name).isSome

theorem Grows.refl (graph : Graph) (cells : DepthCells) : Grows graph cells cells where
  retained _ _ isSet := isSet
  declared _ _ isSet := .inl isSet

theorem Grows.trans {middle : DepthCells} (first : Grows graph before middle)
    (second : Grows graph middle after) : Grows graph before after where
  retained name depth isSet := second.retained name depth (first.retained name depth isSet)
  declared name depth isSet := (second.declared name depth isSet).elim (first.declared name depth)
    .inr

theorem grows_store (graph : Graph) (cells : DepthCells) (request : AnalysisRequest)
    (value : AnalysisValue request) : Grows graph cells (store graph cells request value) := by
  cases request with
  | lookup name => exact .refl graph cells
  | totalWeight name => exact .refl graph cells
  | dependencyDepth name =>
      unfold store
      simp only
      split
      case isFalse => exact .refl graph cells
      case isTrue isDeclared =>
        constructor
        · intro other depth isSet
          rw [DepthCells.depth?_keep]
          by_cases same : other = name
          · subst same
            rw [if_pos rfl, isSet, Option.getD_some]
          · rwa [if_neg same]
        · intro other depth isSet
          by_cases same : other = name
          · subst same
            exact .inr isDeclared
          · rw [DepthCells.depth?_keep, if_neg same] at isSet
            exact .inl isSet

theorem storedOutside_dependencyDepth (graph : Graph) (cells : DepthCells) (name : String) :
    (program graph).storedOutside cells (.dependencyDepth name) =
      if (graph.find? name).isSome then cells.depth? name else none := rfl

/-- Depths that are right are settled. -/
theorem DepthsRight.storageGrounded (right : DepthsRight graph cells)
    (few : graph.declarations.length < 4294967296) : StorageGrounded (program graph) cells := by
  intro request value stored
  cases request with
  | lookup name => cases stored
  | totalWeight name => cases stored
  | dependencyDepth name =>
      rw [storedOutside_dependencyDepth] at stored
      split at stored
      case isFalse => cases stored
      case isTrue => exact (settles_dependencyDepth_iff few).mpr (right name value stored)

/-- Settled depths on declarations are right. -/
theorem depthsRight_of_grounded (few : graph.declarations.length < 4294967296)
    (grounded : StorageGrounded (program graph) cells)
    (declared : ∀ name depth, cells.depth? name = some depth → (graph.find? name).isSome) :
    DepthsRight graph cells := by
  intro name depth isSet
  refine (settles_dependencyDepth_iff few).mp (grounded (.dependencyDepth name) depth ?_)
  rw [storedOutside_dependencyDepth, if_pos (declared name depth isSet), isSet]

/-! ### Calls -/

section Changes

variable {α : Type} {question : String → AnalysisRequest} {found : α} {names : List String}
variable {add : α → {name : String} → AnalysisValue (question name) → AnalysisComputation α}
variable {permitted : DepthCells → DepthCells → Prop}

private theorem changes_examine {start : Declaration → α}
    (adds : ∀ found {name} (answer : AnalysisValue (question name)),
      (add found answer).Changes permitted) :
    (examine question add start name).Changes permitted := by
  have visits : ∀ names found, (visit question add found names).Changes permitted := by
    intro names
    induction names with
    | nil => exact fun _ => trivial
    | cons name rest inductionHypothesis =>
        intro found
        refine (Computation.changes_evaluate _).bind fun answer => ?_
        exact (adds found answer).bind inductionHypothesis
  exact (Computation.changes_evaluate _).bind fun declaration => visits _ _

/-- The analyses leave it to the evaluator to keep depths. -/
theorem changes_compute (request : AnalysisRequest) :
    ((program graph).compute request).Changes permitted := by
  cases request with
  | lookup name =>
      show (compute graph (.lookup name)).Changes permitted
      simp only [compute]
      split <;> exact trivial
  | totalWeight name =>
      show (compute graph (.totalWeight name)).Changes permitted
      rw [compute_totalWeight]
      exact changes_examine fun _ _ _ => trivial
  | dependencyDepth name =>
      show (compute graph (.dependencyDepth name)).Changes permitted
      rw [compute_dependencyDepth]
      refine changes_examine fun depth _ below => ?_
      unfold addDepth
      split <;> exact trivial

end Changes

/-- The computation of a question does not end abruptly. -/
theorem confined_compute (few : graph.declarations.length < 4294967296)
    (request : AnalysisRequest) :
    ∃ allowed, ((program graph).compute request).Confined (program graph) allowed := by
  have enough : Fits graph [] request (graph.declarations.length + 2) := by
    cases request with
    | lookup name => exact Nat.succ_pos _
    | totalWeight name => exact ⟨.nil, List.nil_subset _, (Nat.zero_add _).ge⟩
    | dependencyDepth name => exact ⟨.nil, List.nil_subset _, (Nat.zero_add _).ge⟩
  exact ⟨_, (bounded few).nested enough List.not_mem_nil⟩

section Call

variable {session final : AnalysisSession} {request : AnalysisRequest}
variable {history earlier later : List (Event AnalysisRequest AnalysisValue DepthCells)}
variable {ended : Option (Outcome (AnalysisValue request))}

/-- Depths are only added in the course of a call, on declarations of the graph. -/
theorem grows_of_call
    (runs : Run (program graph) (Computation.evaluate request) session history ended final)
    {moment : AnalysisSession} (parts : history = earlier ++ later)
    (onward : Steps (program graph) moment later final) :
    Grows graph moment.world final.world := by
  refine onward.world_related (.refl graph) (fun _ _ _ => .trans) (grows_store graph) ?_
  intro change happened world
  refine runs.changes changes_compute (Computation.changes_evaluate request) ?_ world
  rw [parts]
  exact List.mem_append_right _ happened

theorem grounded_of_call
    (runs : Run (program graph) (Computation.evaluate request) session history ended final)
    (grounded : Grounded (program graph) session) : Grounded (program graph) final :=
  (runs.grounded (oblivious_compute graph) (honestStorage graph) (oblivious_evaluate _ request)
    grounded).1

end Call

/-! ### Evaluators that share a graph -/

abbrev AnalysisWorkshop := Workshop AnalysisRequest AnalysisValue DepthCells

/-- Fresh evaluators, and no depth on any declaration. -/
structure Opened (workshop : AnalysisWorkshop) : Prop where
  fresh : ∀ place ∈ workshop.places, ∃ options observed, place.evaluator = .fresh options observed
  noDepths : workshop.world = []

/-- What can happen to evaluators that share a graph. -/
inductive Advances (graph : Graph) : AnalysisWorkshop → AnalysisWorkshop → Prop where
  /-- One of them answers a question, or ends abruptly. -/
  | called {workshop : AnalysisWorkshop} {index : Nat} {session after : AnalysisSession}
      {request : AnalysisRequest} {outcome : Outcome (AnalysisValue request)}
      {history : List (Event AnalysisRequest AnalysisValue DepthCells)}
      (takes : workshop.session? index = some session)
      (evaluates : Run (program graph) (Computation.evaluate request) session history
        (some outcome) after) :
      Advances graph workshop (workshop.after index after)
  /-- One more evaluator joins them. -/
  | joined {workshop : AnalysisWorkshop} {options : Options} {observed : Bool} {handler : Nat} :
      Advances graph workshop
        { workshop with places := workshop.places ++ [⟨.fresh options observed, handler⟩] }
  /-- Others register zones, or use the handlers of diagnostics and notifications. -/
  | elsewhere {workshop : AnalysisWorkshop} {handlers : List Diagnostics} {registry : Registry}
      {notifications : List Notification} :
      Advances graph workshop
        { workshop with handlers := handlers, registry := registry,
                        notifications := notifications }

/-- Nothing is active between calls, and everything that is kept is settled. -/
structure Orderly (graph : Graph) (workshop : AnalysisWorkshop) : Prop where
  resting : ∀ place ∈ workshop.places, place.evaluator.active = [] ∧
    CacheGrounded (program graph) place.evaluator.cache
  storage : StorageGrounded (program graph) workshop.world
  declared : ∀ name depth, workshop.world.depth? name = some depth → (graph.find? name).isSome

variable {workshop next : AnalysisWorkshop} {session : AnalysisSession} {index : Nat}

private theorem resting_of_fresh (options : Options) (observed : Bool) :
    (Evaluator.fresh options observed : Evaluator AnalysisRequest AnalysisValue).active = [] ∧
      CacheGrounded (program graph)
        (Evaluator.fresh options observed : Evaluator AnalysisRequest AnalysisValue).cache :=
  ⟨rfl, fun _ _ _ isFound => by cases isFound⟩

theorem Opened.orderly (opened : Opened workshop) (graph : Graph) : Orderly graph workshop where
  resting place isPlace := by
    obtain ⟨options, observed, isFresh⟩ := opened.fresh place isPlace
    rw [isFresh]
    exact resting_of_fresh options observed
  storage request value stored := by
    rw [opened.noDepths, storedOutside_nil] at stored
    cases stored
  declared name depth isSet := by
    rw [opened.noDepths] at isSet
    cases isSet

/-- The session of an evaluator that is taken out. -/
theorem Orderly.taken (orderly : Orderly graph workshop)
    (takes : workshop.session? index = some session) :
    session.evaluator.active = [] ∧ Grounded (program graph) session ∧
      session.world = workshop.world := by
  obtain ⟨place, isPlace, rfl⟩ := Option.map_eq_some_iff.mp takes
  obtain ⟨noneActive, cacheGrounded⟩ := orderly.resting place (List.mem_of_getElem? isPlace)
  exact ⟨noneActive, grounded_iff.mpr ⟨cacheGrounded, orderly.storage⟩, rfl⟩

theorem Advances.orderly (advances : Advances graph workshop next)
    (few : graph.declarations.length < 4294967296) (orderly : Orderly graph workshop) :
    Orderly graph next ∧ Grows graph workshop.world next.world := by
  cases advances with
  | elsewhere => exact ⟨⟨orderly.resting, orderly.storage, orderly.declared⟩, .refl graph _⟩
  | joined =>
      refine ⟨⟨fun place isPlace => ?_, orderly.storage, orderly.declared⟩, .refl graph _⟩
      rcases List.mem_append.mp isPlace with isOld | isNew
      · exact orderly.resting place isOld
      · rw [List.mem_singleton.mp isNew]
        exact resting_of_fresh _ _
  | @called index session after _ _ _ takes evaluates =>
      obtain ⟨noneActive, grounded, sameWorld⟩ := orderly.taken takes
      have afterGrounded := grounded_iff.mp (grounded_of_call evaluates grounded)
      have afterActive := evaluates.active_of_call (oblivious_compute graph) (honestStorage graph)
        (distinctIdentities graph) (zone_kind graph) (confined_compute few) grounded
      have grows := grows_of_call evaluates (List.nil_append _).symm evaluates.steps
      rw [sameWorld] at grows
      obtain ⟨place, isPlace, _⟩ := Option.map_eq_some_iff.mp takes
      have isAfter : workshop.after index after =
          { places := workshop.places.set index { place with evaluator := after.evaluator }
            handlers := workshop.handlers.set place.handler after.diagnostics
            registry := after.registry
            notifications := after.notifications
            world := after.world } := by
        unfold Workshop.after
        rw [isPlace]
      rw [isAfter]
      refine ⟨⟨fun other isOther => ?_, afterGrounded.2, fun name depth isSet => ?_⟩, grows⟩
      · rcases List.mem_or_eq_of_mem_set isOther with isOld | rfl
        · exact orderly.resting other isOld
        · exact ⟨afterActive.trans noneActive, afterGrounded.1⟩
      · exact (grows.declared name depth isSet).elim (orderly.declared name depth) id

theorem orderly_of_advances (few : graph.declarations.length < 4294967296)
    (orderly : Orderly graph workshop)
    (reaches : Relation.ReflTransGen (Advances graph) workshop next) :
    Orderly graph next ∧ Grows graph workshop.world next.world := by
  induction reaches with
  | refl => exact ⟨orderly, .refl graph _⟩
  | tail _ advances inductionHypothesis =>
      obtain ⟨nextOrderly, grows⟩ := advances.orderly few inductionHypothesis.1
      exact ⟨nextOrderly, inductionHypothesis.2.trans grows⟩

/-- A question that settles on a depth is answered with it by an evaluator that
nothing is active in, whichever right depths are on the declarations. -/
theorem exists_run_of_depthsRight (few : graph.declarations.length < 4294967296)
    {request : AnalysisRequest} {answer : Except Failure (AnalysisValue request)}
    (settles : Settles (program graph) ((program graph).compute request) answer)
    (noneActive : session.evaluator.active = []) (grounded : Grounded (program graph) session)
    (accepts : session.Accepts analysisZone) (right : DepthsRight graph cells) :
    ∃ history final, Run (program graph) (Computation.evaluate request)
      { session with world := cells } history (some (.ofAnswer answer)) final := by
  refine (settles_evaluate.mpr settles).exists_run_of_grounded (oblivious_compute graph)
    (honestStorage graph) (distinctIdentities graph) (zone_kind graph) (oblivious_evaluate _ _)
    (grounded_iff.mpr ⟨(grounded_iff.mp grounded).1, right.storageGrounded few⟩) accepts ?_
  intro needed _ other _ isActive
  rw [noneActive] at isActive
  cases isActive

/-- What holds of evaluators that share a graph. -/
structure SharesDepths (graph : Graph) (workshop : AnalysisWorkshop) : Prop where
  right : DepthsRight graph workshop.world
  forever : ∀ later, Relation.ReflTransGen (Advances graph) workshop later →
    Retained workshop.world later.world
  /-- In the middle of a call, and at its end, however it ends. -/
  during : ∀ index session request history ended moment,
    workshop.session? index = some session →
    Run (program graph) (Computation.evaluate request) session history ended moment →
    DepthsRight graph moment.world ∧ Retained workshop.world moment.world
  /-- Each moment of a call leads on to its end, and what is set by then stays set. -/
  onward : ∀ index session request earlier later ended final,
    workshop.session? index = some session →
    Run (program graph) (Computation.evaluate request) session (earlier ++ later) ended final →
    ∃ moment, Run (program graph) (Computation.evaluate request) session earlier none moment ∧
      Steps (program graph) moment later final ∧ Retained moment.world final.world
  /-- A depth that is read from a declaration, be it in the middle of a call, is the
  one that its computation settles on. -/
  read : ∀ index session request history ended moment name depth,
    workshop.session? index = some session →
    Run (program graph) (Computation.evaluate request) session history ended moment →
    .received (.dependencyDepth name) (.held depth) ∈ history →
    Settles (program graph) ((program graph).compute (.dependencyDepth name)) (.ok depth)
  /-- The evaluator that reads a depth would have answered the same if any other
  right depths, or none, were on the declarations. -/
  recomputed : ∀ index session name depth after cells,
    workshop.session? index = some session →
    session.receive (program graph) (.dependencyDepth name) = (.held depth, after) →
    DepthsRight graph cells →
    ∃ history final, Run (program graph) (Computation.evaluate (.dependencyDepth name))
      { session with world := cells } history (some (.success depth)) final

/-- Depths on declarations are right in every state that evaluators which share
a graph reach. -/
theorem sharesDepths (few : graph.declarations.length < 4294967296) (opened : Opened workshop)
    (reaches : Relation.ReflTransGen (Advances graph) workshop next) :
    SharesDepths graph next := by
  obtain ⟨orderly, _⟩ := orderly_of_advances few (opened.orderly graph) reaches
  have settled_of_held : ∀ {session : AnalysisSession} {name depth after},
      Grounded (program graph) session →
      session.receive (program graph) (.dependencyDepth name) = (.held depth, after) →
      Settles (program graph) ((program graph).compute (.dependencyDepth name)) (.ok depth) := by
    intro session name depth after grounded receives
    cases Session.receive_eq_iff.mp receives with
    | held _ _ holds => exact grounded _ _ holds
  exact
    { right := depthsRight_of_grounded few orderly.storage orderly.declared
      forever := fun later onward => (orderly_of_advances few orderly onward).2.retained
      during := by
        intro index session request history ended moment takes runs
        obtain ⟨_, grounded, sameWorld⟩ := orderly.taken takes
        have grows := grows_of_call runs (List.nil_append _).symm runs.steps
        rw [sameWorld] at grows
        refine ⟨depthsRight_of_grounded few
          (grounded_iff.mp (grounded_of_call runs grounded)).2 fun name depth isSet => ?_,
          grows.retained⟩
        exact (grows.declared name depth isSet).elim (orderly.declared name depth) id
      onward := by
        intro index session request earlier later ended final takes runs
        obtain ⟨moment, before, behind⟩ := runs.moment rfl
        exact ⟨moment, before, behind, (grows_of_call runs rfl behind).retained⟩
      read := by
        intro index session request history ended moment name depth takes runs happened
        obtain ⟨_, grounded, _⟩ := orderly.taken takes
        obtain ⟨earlier, later, rfl⟩ := List.append_of_mem happened
        obtain ⟨middle, before, behind⟩ := runs.moment rfl
        cases behind with
        | cons step _ =>
            cases step with
            | received receives => exact settled_of_held (grounded_of_call before grounded) receives
      recomputed := by
        intro index session name depth after cells takes receives right
        obtain ⟨noneActive, grounded, _⟩ := orderly.taken takes
        have accepts := (Session.accepts_of_receive receives (by simp)).1
        rw [zone_kind] at accepts
        exact exists_run_of_depthsRight few (settled_of_held grounded receives) noneActive grounded
          accepts right }

/-- A declaration that depends on another one. -/
def chain : Graph where
  path := "graph.yaml"
  declarations := [⟨⟨"a", 1, ["b"]⟩, 1⟩, ⟨⟨"b", 2, []⟩, 2⟩]
  distinct := by decide

/-- The second of two evaluators reads the depth that the first one has computed. -/
theorem sharesDepths_chain :
    ∃ first next : AnalysisWorkshop, ∃ session, first.places.length = 2 ∧ Opened first ∧
      Relation.ReflTransGen (Advances chain) first next ∧ next.session? 1 = some session ∧
      (session.receive (program chain) (.dependencyDepth "a")).1 = .held 1 ∧
      SharesDepths chain next := by
  let first : AnalysisWorkshop := .fresh {} false false 2 .initial []
  let created : AnalysisSession := { evaluator := .fresh {} false, world := [] }
  let left := (program chain).run 4 (.evaluate (.dependencyDepth "a")) created
  have succeeds : left.1 = .success 1 := by decide +kernel
  have ends : (program chain).run 4 (.evaluate (.dependencyDepth "a")) created =
      (left.1, left.2) := rfl
  obtain ⟨history, computes⟩ := exists_run_of_run ends (by rw [succeeds]; simp)
  have opened : Opened first := by
    refine ⟨fun place isPlace => ⟨{}, false, ?_⟩, rfl⟩
    obtain ⟨index, _, rfl⟩ := List.mem_map.mp isPlace
    rfl
  have reaches : Relation.ReflTransGen (Advances chain) first (first.after 0 left.2) :=
    .single (.called rfl computes)
  exact ⟨first, first.after 0 left.2, _, rfl, opened, reaches, rfl, by rfl,
    sharesDepths (by decide) opened reaches⟩

end Analysis

end RequestEngine
