import Mathlib.Algebra.BigOperators.Finprod
import Mathlib.Data.List.Perm.Subperm
import Mathlib.Logic.Relation
import RequestEngine.Dependencies.Tree
import RequestEngine.Proofs.Recording

/-!
Contract: the rules by which recorded requests are shown as trees.

Owns:
- the rules of the traversal, which know no bound on its depth;
- that trees and forests are what the rules give, and that the rules give nothing
  else;
- which requests the rules visit, and how many lines they take.

A traversal that follows the rules comes to an end, because the requests on the
path are different dependents.

Does not own: where lines stand.
-/

namespace RequestEngine

namespace Recorder

open Relation

variable {Request : Type}

/-- Requests one below the other, each with the information whether it is the last
one. -/
def siblings : List Request → List (Bool × Request)
  | [] => []
  | request :: rest => (rest.isEmpty, request) :: siblings rest

@[simp]
theorem map_snd_siblings (requests : List Request) :
    (siblings requests).map (·.2) = requests := by
  induction requests with
  | nil => rfl
  | cons request rest inductionHypothesis => rw [siblings, List.map_cons, inductionHypothesis]

theorem mem_of_mem_siblings {requests : List Request} {member : Bool × Request}
    (isMember : member ∈ siblings requests) : member.2 ∈ requests := by
  have listed := List.mem_map_of_mem (f := (·.2)) isMember
  rwa [map_snd_siblings] at listed

@[simp]
theorem length_siblings (requests : List Request) :
    (siblings requests).length = requests.length := by
  rw [← List.length_map (·.2), map_snd_siblings]

/-- Requests at the top level: each of them is the last one of its own tree. -/
def tops (starts : List Request) : List (Bool × Request) := starts.map (true, ·)

@[simp]
theorem map_snd_tops (starts : List Request) : (tops starts).map (·.2) = starts := by
  simp [tops]

variable [DecidableEq Request]

/-- The rules of the traversal. A group of requests is shown below the ancestors
on the path, while some requests have been visited before. -/
inductive Shows (recorder : Recorder Request) :
    List Request → List Bool → List (Bool × Request) → List Request →
      List (TreeLine Request) → List Request → Prop where
  | nil {path ancestors visited} : Shows recorder path ancestors [] visited [] visited
  | cyclic {path ancestors isLast request rest visited lines after} (onPath : request ∈ path)
      (further : Shows recorder path ancestors rest visited lines after) :
      Shows recorder path ancestors ((isLast, request) :: rest) visited
        (⟨ancestors, isLast, request, .cyclic⟩ :: lines) after
  | leaf {path ancestors isLast request rest visited lines after} (offPath : request ∉ path)
      (isLeaf : recorder.dependenciesOf request = [])
      (further : Shows recorder path ancestors rest (appendNew visited request) lines after) :
      Shows recorder path ancestors ((isLast, request) :: rest) visited
        (⟨ancestors, isLast, request, .none⟩ :: lines) after
  | elided {path ancestors isLast request rest visited lines after} (offPath : request ∉ path)
      (depends : recorder.dependenciesOf request ≠ []) (isVisited : request ∈ visited)
      (further : Shows recorder path ancestors rest visited lines after) :
      Shows recorder path ancestors ((isLast, request) :: rest) visited
        (⟨ancestors, isLast, request, .elided⟩ :: lines) after
  | expanded {path ancestors isLast request rest visited below between lines after}
      (offPath : request ∉ path) (depends : recorder.dependenciesOf request ≠ [])
      (isNew : request ∉ visited)
      (children : Shows recorder (path ++ [request]) (ancestors ++ [isLast])
        (siblings (recorder.dependenciesOf request)) (appendNew visited request) below between)
      (further : Shows recorder path ancestors rest between lines after) :
      Shows recorder path ancestors ((isLast, request) :: rest) visited
        (⟨ancestors, isLast, request, .none⟩ :: (below ++ lines)) after

/-- The requests that can be reached from some of them. -/
def reachable (recorder : Recorder Request) (starts : List Request) : Set Request :=
  {request | ∃ start ∈ starts, ReflTransGen recorder.Edge start request}

/-- The number of all edges that start at some requests. -/
def edgesFrom (recorder : Recorder Request) (requests : List Request) : Nat :=
  (requests.map fun request => (recorder.dependenciesOf request).length).sum

variable {recorder : Recorder Request} {path visited after : List Request}
variable {ancestors : List Bool} {group : List (Bool × Request)} {lines : List (TreeLine Request)}
variable {request : Request} {depth : Nat}

/-! ### The rules and the bounded traversal -/

namespace Shows

/-- Two groups are shown one after the other. -/
theorem append {others : List (Bool × Request)} {further : List (TreeLine Request)}
    {last : List Request} (shows : Shows recorder path ancestors group visited lines after)
    (next : Shows recorder path ancestors others after further last) :
    Shows recorder path ancestors (group ++ others) visited (lines ++ further) last := by
  induction shows with
  | nil => exact next
  | cyclic onPath _ inductionHypothesis => exact .cyclic onPath (inductionHypothesis next)
  | leaf offPath isLeaf _ inductionHypothesis =>
      exact .leaf offPath isLeaf (inductionHypothesis next)
  | elided offPath depends isVisited _ inductionHypothesis =>
      exact .elided offPath depends isVisited (inductionHypothesis next)
  | expanded offPath depends isNew children _ _ inductionHypothesis =>
      have shown := Shows.expanded offPath depends isNew children (inductionHypothesis next)
      rwa [← List.append_assoc] at shown

/-- The rules leave no choice. -/
theorem unique {others : List (TreeLine Request)} {last : List Request}
    (shows : Shows recorder path ancestors group visited lines after)
    (also : Shows recorder path ancestors group visited others last) :
    lines = others ∧ after = last := by
  induction shows generalizing others last with
  | nil =>
      cases also
      exact ⟨rfl, rfl⟩
  | cyclic onPath _ inductionHypothesis =>
      cases also with
      | cyclic _ further =>
          obtain ⟨rfl, rfl⟩ := inductionHypothesis further
          exact ⟨rfl, rfl⟩
      | _ => contradiction
  | leaf offPath isLeaf _ inductionHypothesis =>
      cases also with
      | leaf _ _ further =>
          obtain ⟨rfl, rfl⟩ := inductionHypothesis further
          exact ⟨rfl, rfl⟩
      | _ => contradiction
  | elided offPath depends isVisited _ inductionHypothesis =>
      cases also with
      | elided _ _ _ further =>
          obtain ⟨rfl, rfl⟩ := inductionHypothesis further
          exact ⟨rfl, rfl⟩
      | _ => contradiction
  | expanded offPath depends isNew _ _ childrenHypothesis inductionHypothesis =>
      cases also with
      | expanded _ _ _ children further =>
          obtain ⟨rfl, rfl⟩ := childrenHypothesis children
          obtain ⟨rfl, rfl⟩ := inductionHypothesis further
          exact ⟨rfl, rfl⟩
      | _ => contradiction

end Shows

/-- Only requests with an entry have dependencies. -/
theorem mem_dependents (depends : recorder.dependenciesOf request ≠ []) :
    request ∈ recorder.edges.map (·.dependent) := by
  unfold dependenciesOf at depends
  cases found : recorder.edges.find? (·.dependent = request) with
  | none => simp [found] at depends
  | some entry =>
      have isDependent : entry.dependent = request := by simpa using List.find?_some found
      exact List.mem_map.mpr ⟨entry, List.mem_of_find?_eq_some found, isDependent⟩

/-- The path holds different requests, which all have dependencies, and there is
room for one more level than there are such requests. -/
structure Fits (recorder : Recorder Request) (depth : Nat) (path : List Request) : Prop where
  distinct : path.Nodup
  dependent : ∀ request ∈ path, recorder.dependenciesOf request ≠ []
  room : recorder.expansionDepth ≤ depth + path.length

namespace Fits

theorem pos (fits : Fits recorder depth path) : 0 < depth := by
  have recorded : path ⊆ recorder.edges.map (·.dependent) :=
    fun request onPath => mem_dependents (fits.dependent request onPath)
  have shorter := (fits.distinct.subperm recorded).length_le
  have room := fits.room
  rw [List.length_map] at shorter
  unfold expansionDepth at room
  omega

theorem child (fits : Fits recorder (depth + 1) path) (offPath : request ∉ path)
    (hasDependencies : recorder.dependenciesOf request ≠ []) :
    Fits recorder depth (path ++ [request]) where
  distinct := by
    have together := nodup_appendNew fits.distinct request
    rwa [appendNew, if_neg offPath] at together
  dependent := by
    intro other onPath
    rcases List.mem_append.mp onPath with before | isLast
    · exact fits.dependent other before
    · rwa [List.mem_singleton.mp isLast]
  room := by
    have room := fits.room
    rw [List.length_append, List.length_singleton]
    omega

end Fits

/-- A group is shown by the rules if each of its requests is. -/
private theorem shows_groupLines
    {lines : Bool → Request → List Request → List (TreeLine Request) × List Request}
    (flag : Bool → Bool) (requests : List Request)
    (shows : ∀ isLast request visited,
      Shows recorder path ancestors [(flag isLast, request)] visited
        (lines isLast request visited).1 (lines isLast request visited).2) :
    Shows recorder path ancestors ((siblings requests).map fun member => (flag member.1, member.2))
      visited (groupLines lines requests visited).1 (groupLines lines requests visited).2 := by
  induction requests generalizing visited with
  | nil => exact .nil
  | cons request rest inductionHypothesis =>
      exact (shows rest.isEmpty request visited).append inductionHypothesis

/-- As long as there is room for the path, the bounded traversal follows the rules. -/
theorem shows_requestLines (fits : Fits recorder depth path) (isLast : Bool) (request : Request)
    (visited : List Request) :
    Shows recorder path ancestors [(isLast, request)] visited
      (recorder.requestLines depth path ancestors isLast request visited).1
      (recorder.requestLines depth path ancestors isLast request visited).2 := by
  induction depth generalizing path ancestors isLast request visited with
  | zero => exact absurd fits.pos (Nat.lt_irrefl 0)
  | succ depth inductionHypothesis =>
      unfold requestLines
      by_cases onPath : request ∈ path
      · simp only [if_pos onPath]
        exact .cyclic onPath .nil
      by_cases isLeaf : recorder.dependenciesOf request = []
      · simp only [if_neg onPath, isLeaf, List.isEmpty_nil, ↓reduceIte]
        exact .leaf onPath isLeaf .nil
      by_cases isVisited : request ∈ visited
      · simp only [if_neg onPath, List.isEmpty_iff, isLeaf, if_pos isVisited, ↓reduceIte]
        exact .elided onPath isLeaf isVisited .nil
      · simp only [if_neg onPath, List.isEmpty_iff, isLeaf, if_neg isVisited, ↓reduceIte]
        have children : Shows recorder (path ++ [request]) (ancestors ++ [isLast]) _
            (appendNew visited request) _ _ :=
          shows_groupLines id (recorder.dependenciesOf request)
            (inductionHypothesis (fits.child onPath isLeaf))
        rw [show (fun member : Bool × Request => (id member.1, member.2)) = id from rfl,
          List.map_id] at children
        have shown := Shows.expanded onPath isLeaf isVisited children .nil
        rwa [List.append_nil] at shown

private theorem fits_nil : Fits recorder recorder.expansionDepth [] :=
  ⟨List.nodup_nil, by simp, by simp⟩

theorem shows_treeLines (recorder : Recorder Request) (request : Request) :
    ∃ after, Shows recorder [] [] (tops [request]) [] (recorder.treeLines request) after :=
  ⟨_, shows_requestLines fits_nil true request []⟩

theorem shows_forestLines (recorder : Recorder Request) :
    ∃ after, Shows recorder [] [] (tops recorder.roots) [] recorder.forestLines after := by
  have shown : Shows recorder [] [] _ [] recorder.forestLines _ :=
    shows_groupLines (fun _ => true) recorder.roots fun _ => shows_requestLines fits_nil true
  rw [show (fun member : Bool × Request => (true, member.2)) = (true, ·) ∘ (·.2) from rfl,
    ← List.map_map, map_snd_siblings] at shown
  exact ⟨_, shown⟩

/-! ### Visited requests -/

/-- A visit adds to what is known. -/
private theorem subset_visit {known : List Request} (subset : known ⊆ visited) :
    known ⊆ appendNew visited request :=
  fun _ isKnown => mem_appendNew.mpr (.inl (subset isKnown))

@[simp]
theorem edgesFrom_nil : recorder.edgesFrom [] = 0 := rfl

@[simp]
theorem edgesFrom_append (first second : List Request) :
    recorder.edgesFrom (first ++ second) =
      recorder.edgesFrom first + recorder.edgesFrom second := by
  simp [edgesFrom]

/-- A request that is visited for the first time brings its edges with it. -/
theorem edgesFrom_visit (isNew : request ∉ visited) :
    recorder.edgesFrom (appendNew visited request) =
      recorder.edgesFrom visited + (recorder.dependenciesOf request).length := by
  rw [appendNew, if_neg isNew, edgesFrom_append]
  simp [edgesFrom]

/-- A request without dependencies brings no edges. -/
theorem edgesFrom_visit_leaf (isLeaf : recorder.dependenciesOf request = []) :
    recorder.edgesFrom (appendNew visited request) = recorder.edgesFrom visited := by
  by_cases isVisited : request ∈ visited
  · rw [appendNew, if_pos isVisited]
  · rw [edgesFrom_visit isVisited, isLeaf, List.length_nil, Nat.add_zero]

/-- A request goes on the path when it is visited. -/
private theorem opened_subset (known : path ⊆ visited) :
    path ++ [request] ⊆ appendNew visited request := by
  intro other onPath
  rw [List.mem_append, List.mem_singleton] at onPath
  exact mem_appendNew.mpr (onPath.imp_left fun before => known before)

namespace Shows

theorem nodup_after (shows : Shows recorder path ancestors group visited lines after)
    (distinct : visited.Nodup) : after.Nodup := by
  induction shows with
  | nil => exact distinct
  | cyclic _ _ inductionHypothesis => exact inductionHypothesis distinct
  | leaf _ _ _ inductionHypothesis => exact inductionHypothesis (nodup_appendNew distinct _)
  | elided _ _ _ _ inductionHypothesis => exact inductionHypothesis distinct
  | expanded _ _ _ _ _ childrenHypothesis inductionHypothesis =>
      exact inductionHypothesis (childrenHypothesis (nodup_appendNew distinct _))

theorem kept (shows : Shows recorder path ancestors group visited lines after) :
    visited ⊆ after := by
  induction shows with
  | nil => exact List.Subset.refl _
  | cyclic _ _ inductionHypothesis => exact inductionHypothesis
  | leaf _ _ _ inductionHypothesis =>
      exact List.Subset.trans (subset_visit (List.Subset.refl _)) inductionHypothesis
  | elided _ _ _ _ inductionHypothesis => exact inductionHypothesis
  | expanded _ _ _ _ _ childrenHypothesis inductionHypothesis =>
      have before := List.Subset.trans (subset_visit (List.Subset.refl _)) childrenHypothesis
      exact List.Subset.trans before inductionHypothesis

/-- What is visited by the end has been visited before or has a line, as long as
everything on the path has been visited before. -/
theorem mem_after (shows : Shows recorder path ancestors group visited lines after)
    (known : path ⊆ visited) :
    request ∈ after ↔ request ∈ visited ∨ request ∈ lines.map (·.request) := by
  induction shows with
  | nil => simp
  | cyclic onPath _ inductionHypothesis =>
      have isVisited := known onPath
      rw [inductionHypothesis known, List.map_cons, List.mem_cons]
      grind
  | leaf _ _ _ inductionHypothesis =>
      rw [inductionHypothesis (subset_visit known), mem_appendNew, List.map_cons, List.mem_cons,
        or_assoc]
  | elided _ _ isVisited _ inductionHypothesis =>
      rw [inductionHypothesis known, List.map_cons, List.mem_cons]
      grind
  | expanded _ _ _ children _ childrenHypothesis inductionHypothesis =>
      have knownAfter := List.Subset.trans (subset_visit known) children.kept
      rw [inductionHypothesis knownAfter, childrenHypothesis (opened_subset known), mem_appendNew,
        List.map_cons, List.map_append, List.mem_cons, List.mem_append]
      grind

/-- A group takes one line for each of its requests, and one for each edge of a
request that is visited for the first time. -/
theorem length_lines (shows : Shows recorder path ancestors group visited lines after) :
    lines.length + recorder.edgesFrom visited = group.length + recorder.edgesFrom after := by
  induction shows with
  | nil => rfl
  | cyclic _ _ inductionHypothesis =>
      simp only [List.length_cons]
      omega
  | leaf _ isLeaf _ inductionHypothesis =>
      rw [edgesFrom_visit_leaf isLeaf] at inductionHypothesis
      simp only [List.length_cons]
      omega
  | elided _ _ _ _ inductionHypothesis =>
      simp only [List.length_cons]
      omega
  | expanded _ _ isNew _ _ childrenHypothesis inductionHypothesis =>
      rw [edgesFrom_visit isNew, length_siblings] at childrenHypothesis
      simp only [List.length_cons, List.length_append]
      omega

end Shows

/-! ### Reachable requests -/

theorem reachable_mono {starts others : List Request} (subset : starts ⊆ others) :
    recorder.reachable starts ⊆ recorder.reachable others :=
  fun _ ⟨start, isStart, reaches⟩ => ⟨start, subset isStart, reaches⟩

/-- What is reached from the dependencies of a request is reached from the request. -/
theorem reachable_dependenciesOf {starts : List Request} (isStart : request ∈ starts) :
    recorder.reachable (recorder.dependenciesOf request) ⊆ recorder.reachable starts :=
  fun _ ⟨_, edge, reaches⟩ => ⟨request, isStart, .head edge reaches⟩

/-- Visited requests off the path lead to visited requests only. -/
def Closed (recorder : Recorder Request) (path visited : List Request) : Prop :=
  ∀ request ∈ visited, request ∉ path → recorder.dependenciesOf request ⊆ visited

namespace Shows

/-- Nothing is shown but what the group reaches. -/
theorem mem_reachable (shows : Shows recorder path ancestors group visited lines after)
    (isShown : request ∈ lines.map (·.request)) :
    request ∈ recorder.reachable (group.map (·.2)) := by
  induction shows with
  | nil => cases isShown
  | cyclic _ _ inductionHypothesis | leaf _ _ _ inductionHypothesis
  | elided _ _ _ _ inductionHypothesis =>
      rcases List.mem_cons.mp isShown with rfl | later
      · exact ⟨_, List.mem_cons_self, .refl⟩
      · exact reachable_mono (List.subset_cons_self _ _) (inductionHypothesis later)
  | expanded _ _ _ _ _ childrenHypothesis inductionHypothesis =>
      rw [List.map_cons, List.map_append, List.mem_cons, List.mem_append] at isShown
      rcases isShown with rfl | below | later
      · exact ⟨_, List.mem_cons_self, .refl⟩
      · have reached := childrenHypothesis below
        rw [map_snd_siblings] at reached
        exact reachable_dependenciesOf List.mem_cons_self reached
      · exact reachable_mono (List.subset_cons_self _ _) (inductionHypothesis later)

/-- Everything that is shown is visited, and so is everything that it asks for,
unless it is still on the path. -/
theorem closed_after (shows : Shows recorder path ancestors group visited lines after)
    (known : path ⊆ visited) (closed : Closed recorder path visited) :
    Closed recorder path after ∧ group.map (·.2) ⊆ after := by
  induction shows with
  | nil => exact ⟨closed, List.nil_subset _⟩
  | cyclic onPath further inductionHypothesis =>
      obtain ⟨closedAfter, listed⟩ := inductionHypothesis known closed
      exact ⟨closedAfter, List.cons_subset.mpr ⟨further.kept (known onPath), listed⟩⟩
  | @leaf _ _ _ request _ _ _ _ _ isLeaf further inductionHypothesis =>
      obtain ⟨closedAfter, listed⟩ := inductionHypothesis (subset_visit known) <| by
        intro other isVisited offPath
        rcases mem_appendNew.mp isVisited with before | rfl
        · exact subset_visit (closed other before offPath)
        · simp [isLeaf]
      have isVisited : request ∈ _ := further.kept (mem_appendNew.mpr (.inr rfl))
      exact ⟨closedAfter, List.cons_subset.mpr ⟨isVisited, listed⟩⟩
  | elided _ _ isVisited further inductionHypothesis =>
      obtain ⟨closedAfter, listed⟩ := inductionHypothesis known closed
      exact ⟨closedAfter, List.cons_subset.mpr ⟨further.kept isVisited, listed⟩⟩
  | @expanded path _ _ request _ visited _ _ _ _ _ _ _ children further childrenHypothesis
      inductionHypothesis =>
      obtain ⟨closedBelow, dependencies⟩ := childrenHypothesis (opened_subset known) <| by
        intro other isVisited offPath
        rw [List.mem_append, List.mem_singleton, not_or] at offPath
        have before := (mem_appendNew.mp isVisited).resolve_right offPath.2
        exact subset_visit (closed other before offPath.1)
      rw [map_snd_siblings] at dependencies
      have knownBetween := List.Subset.trans (subset_visit known) children.kept
      obtain ⟨closedAfter, listed⟩ := inductionHypothesis knownBetween <| by
        -- The request leaves the path, and all its dependencies have been visited.
        intro other isVisited offPath
        by_cases same : other = request
        · exact same ▸ dependencies
        · exact closedBelow other isVisited (by simp [offPath, same])
      have isVisited := further.kept (children.kept (mem_appendNew.mpr (.inr rfl)))
      exact ⟨closedAfter, List.cons_subset.mpr ⟨isVisited, listed⟩⟩

/-! ### Trees at the top level -/

variable {starts : List Request} (shows : Shows recorder [] [] (tops starts) [] lines after)

include shows

/-- By the end, exactly the reachable requests are visited. -/
theorem mem_after_iff : request ∈ after ↔ request ∈ recorder.reachable starts := by
  constructor
  · intro isVisited
    have isShown := ((shows.mem_after (List.nil_subset _)).mp isVisited).resolve_left (by simp)
    have reached := shows.mem_reachable isShown
    rwa [map_snd_tops] at reached
  · rintro ⟨start, isStart, reaches⟩
    have nothingVisited : Closed recorder [] [] := by simp [Closed]
    obtain ⟨closed, listed⟩ := shows.closed_after (List.nil_subset _) nothingVisited
    rw [map_snd_tops] at listed
    induction reaches with
    | refl => exact listed isStart
    | tail _ edge isVisited => exact closed _ isVisited (by simp) edge

/-- Exactly the reachable requests have lines. -/
theorem mem_lines_iff :
    request ∈ lines.map (·.request) ↔ request ∈ recorder.reachable starts := by
  rw [← shows.mem_after_iff, shows.mem_after (List.nil_subset _)]
  simp

theorem finite_reachable : (recorder.reachable starts).Finite :=
  (List.finite_toSet after).subset fun _ isReached => shows.mem_after_iff.mpr isReached

/-- There is a line for every start, and one for every edge that is reached. -/
theorem length_eq_add_finsum :
    lines.length = starts.length +
      ∑ᶠ request ∈ recorder.reachable starts, (recorder.dependenciesOf request).length := by
  have distinct := shows.nodup_after List.nodup_nil
  have visitedSet : recorder.reachable starts = ↑after.toFinset := by
    ext request
    rw [← shows.mem_after_iff, List.coe_toFinset, Set.mem_ofPred_eq]
  have counted := shows.length_lines
  rw [tops, List.length_map, edgesFrom_nil, Nat.add_zero] at counted
  rw [counted, visitedSet, finsum_mem_coe_finset, List.sum_toFinset _ distinct, edgesFrom]

end Shows

end Recorder

end RequestEngine
