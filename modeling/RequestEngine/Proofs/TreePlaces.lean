import RequestEngine.Proofs.Traversal

/-!
Contract: where the lines of a dependency tree stand.

Owns:
- the lines that enclose a line, and the lines that a line encloses;
- what a line shows, given the lines before and after it;
- that every line of trees and forests shows this.

The requests of the enclosing lines are the path of the traversal, and the requests
of all lines before are the visited ones. So everything that the traversal
remembers can be read off the lines.

Does not own: how many lines there are, and the printed form.
-/

namespace RequestEngine

namespace TreeLine

variable {Request : Type}

def depth (line : TreeLine Request) : Nat := line.ancestors.length

/-- The requests of the lines that enclose a line of some depth, outermost first. A
line encloses the deeper lines after it, up to the first one that is not deeper. -/
def enclosing (depth : Nat) : List (TreeLine Request) → List Request
  | [] => []
  | outer :: between =>
      if outer.depth < depth ∧ ∀ inner ∈ between, outer.depth < inner.depth then
        outer.request :: enclosing depth between
      else enclosing depth between

/-- The lines that a line encloses, among the ones that follow it. -/
def enclosed (line : TreeLine Request) (later : List (TreeLine Request)) :
    List (TreeLine Request) :=
  later.takeWhile (line.depth < ·.depth)

/-- The enclosed lines that are only one level deeper. -/
def children (line : TreeLine Request) (later : List (TreeLine Request)) :
    List (TreeLine Request) :=
  (line.enclosed later).filter (·.depth = line.depth + 1)

variable {earlier lines later : List (TreeLine Request)} {line : TreeLine Request} {depth : Nat}

theorem enclosing_subset : enclosing depth earlier ⊆ earlier.map (·.request) := by
  induction earlier with
  | nil => exact List.nil_subset _
  | cons outer between inductionHypothesis =>
      unfold enclosing
      split
      · exact List.cons_subset_cons _ inductionHypothesis
      · exact List.subset_cons_of_subset _ inductionHypothesis

/-- Lines that are as deep enclose nothing. -/
theorem enclosing_eq_nil (deep : ∀ inner ∈ lines, depth ≤ inner.depth) :
    enclosing depth lines = [] := by
  induction lines with
  | nil => rfl
  | cons outer between inductionHypothesis =>
      obtain ⟨isDeep, further⟩ := List.forall_mem_cons.mp deep
      rw [enclosing.eq_2, if_neg (fun encloses => absurd encloses.1 (by omega))]
      exact inductionHypothesis further

/-- Lines that are as deep do not keep others from enclosing either. -/
theorem enclosing_append (deep : ∀ inner ∈ lines, depth ≤ inner.depth) :
    enclosing depth (earlier ++ lines) = enclosing depth earlier := by
  induction earlier with
  | nil => exact enclosing_eq_nil deep
  | cons outer between inductionHypothesis =>
      have same : (outer.depth < depth ∧ ∀ inner ∈ between ++ lines, outer.depth < inner.depth) ↔
          outer.depth < depth ∧ ∀ inner ∈ between, outer.depth < inner.depth := by
        rw [List.forall_mem_append]
        refine and_congr_right fun shallow => and_iff_left fun inner isInner => ?_
        exact shallow.trans_le (deep inner isInner)
      rw [List.cons_append, enclosing, enclosing, inductionHypothesis]
      simp only [same]

/-- Below a line, that line encloses what comes next as well. -/
theorem enclosing_concat (earlier : List (TreeLine Request)) (line : TreeLine Request) :
    enclosing (line.depth + 1) (earlier ++ [line]) =
      enclosing line.depth earlier ++ [line.request] := by
  induction earlier with
  | nil => simp [enclosing]
  | cons outer between inductionHypothesis =>
      have same : (outer.depth < line.depth + 1 ∧
            ∀ inner ∈ between ++ [line], outer.depth < inner.depth) ↔
          outer.depth < line.depth ∧ ∀ inner ∈ between, outer.depth < inner.depth := by
        simp only [List.forall_mem_append, List.forall_mem_singleton]
        constructor
        · rintro ⟨_, inside, shallow⟩
          exact ⟨shallow, inside⟩
        · rintro ⟨shallow, inside⟩
          exact ⟨by omega, inside, shallow⟩
      rw [List.cons_append, enclosing, enclosing, inductionHypothesis]
      simp only [same]
      split <;> rfl

/-- A line encloses nothing if what follows is not deeper. -/
theorem enclosed_eq_nil (stops : ∀ next ∈ later.head?, next.depth ≤ line.depth) :
    line.enclosed later = [] := by
  cases later with
  | nil => rfl
  | cons next rest =>
      have notDeeper := stops next rfl
      simp [enclosed, notDeeper]

theorem enclosed_append (deeper : ∀ inner ∈ lines, line.depth < inner.depth)
    (stops : ∀ next ∈ later.head?, next.depth ≤ line.depth) :
    line.enclosed (lines ++ later) = lines := by
  have nothing := enclosed_eq_nil stops
  unfold enclosed at nothing ⊢
  rw [List.takeWhile_append_of_pos (by simpa using deeper), nothing, List.append_nil]

end TreeLine

namespace Recorder

open TreeLine

variable {Request : Type} [DecidableEq Request]

/-- What a line of the tree shows, given the lines before and after it. -/
structure Placed (recorder : Recorder Request) (earlier : List (TreeLine Request))
    (line : TreeLine Request) (later : List (TreeLine Request)) : Prop where
  /-- A request without dependencies is never marked. -/
  plain : recorder.dependenciesOf line.request = [] → line.mark = .none
  /-- The first line of a request is not marked. -/
  first : line.request ∉ earlier.map (·.request) → line.mark = .none
  /-- Every other line of a request with dependencies is marked, as cyclic if the
  request is its own ancestor there. -/
  again : recorder.dependenciesOf line.request ≠ [] → line.request ∈ earlier.map (·.request) →
    line.mark = if line.request ∈ enclosing line.depth earlier then .cyclic else .elided
  /-- Below a line without a mark there is one line for each dependency, in recorded
  order and under the same ancestors. -/
  expanded : line.mark = .none →
    (line.children later).map (fun inner => (inner.ancestors, inner.isLast, inner.request)) =
      (siblings (recorder.dependenciesOf line.request)).map
        fun member => (line.ancestors ++ [line.isLast], member)
  /-- A line with a mark stands alone, and so does a request without dependencies. -/
  single : line.mark ≠ .none ∨ recorder.dependenciesOf line.request = [] →
    line.enclosed later = []

/-- Some lines, which stand between others, all show what they should. -/
def PlacedAll (recorder : Recorder Request) :
    List (TreeLine Request) → List (TreeLine Request) → List (TreeLine Request) → Prop
  | _, [], _ => True
  | earlier, line :: rest, beyond =>
      Placed recorder earlier line (rest ++ beyond) ∧
        PlacedAll recorder (earlier ++ [line]) rest beyond

variable {recorder : Recorder Request} {path visited after : List Request}
variable {ancestors : List Bool} {group : List (Bool × Request)}
variable {earlier lines beyond : List (TreeLine Request)} {request : Request}

theorem placedAll_append {further : List (TreeLine Request)} :
    PlacedAll recorder earlier (lines ++ further) beyond ↔
      PlacedAll recorder earlier lines (further ++ beyond) ∧
        PlacedAll recorder (earlier ++ lines) further beyond := by
  induction lines generalizing earlier with
  | nil => simp [PlacedAll]
  | cons line rest inductionHypothesis =>
      rw [List.cons_append, PlacedAll, PlacedAll, inductionHypothesis, and_assoc,
        List.append_assoc, List.append_assoc, List.singleton_append]

/-! ### Groups -/

namespace Shows

variable (shows : Shows recorder path ancestors group visited lines after)

include shows

theorem le_depth : ∀ line ∈ lines, ancestors.length ≤ line.depth := by
  induction shows with
  | nil => simp
  | cyclic _ _ inductionHypothesis | leaf _ _ _ inductionHypothesis
  | elided _ _ _ _ inductionHypothesis =>
      exact List.forall_mem_cons.mpr ⟨le_rfl, inductionHypothesis⟩
  | expanded _ _ _ _ _ childrenHypothesis inductionHypothesis =>
      refine List.forall_mem_cons.mpr ⟨le_rfl, List.forall_mem_append.mpr ⟨?_, inductionHypothesis⟩⟩
      intro line isBelow
      have deeper := childrenHypothesis line isBelow
      rw [List.length_append] at deeper
      omega

/-- What follows the lines above a group is not deeper than the group. -/
theorem head_le (stops : ∀ next ∈ beyond.head?, next.depth ≤ ancestors.length) :
    ∀ next ∈ (lines ++ beyond).head?, next.depth ≤ ancestors.length := by
  cases shows with
  | nil => exact stops
  | _ =>
      rintro next ⟨⟩
      exact le_rfl

/-- The topmost lines of a group are the lines of its requests. -/
theorem filter_depth :
    (lines.filter (·.depth = ancestors.length)).map
        (fun line => (line.ancestors, line.isLast, line.request)) =
      group.map fun member => (ancestors, member) := by
  induction shows with
  | nil => rfl
  | cyclic _ _ inductionHypothesis | leaf _ _ _ inductionHypothesis
  | elided _ _ _ _ inductionHypothesis =>
      rw [List.filter_cons_of_pos (by simp [TreeLine.depth]), List.map_cons, inductionHypothesis,
        List.map_cons]
  | expanded _ _ _ children _ _ inductionHypothesis =>
      have deeper := children.le_depth
      rw [List.filter_cons_of_pos (by simp [TreeLine.depth]), List.filter_append, List.map_cons,
        List.filter_eq_nil_iff.mpr, List.nil_append, inductionHypothesis, List.map_cons]
      intro line isBelow
      have isDeep := deeper line isBelow
      rw [List.length_append, List.length_singleton] at isDeep
      simp only [decide_eq_true_eq]
      omega

end Shows

/-! ### Lines in their places -/

/-- The lines before a group tell what the traversal remembers. -/
structure Recalls (recorder : Recorder Request) (path visited : List Request) (depth : Nat)
    (earlier : List (TreeLine Request)) : Prop where
  path_eq : enclosing depth earlier = path
  visited_iff : ∀ request, request ∈ visited ↔ request ∈ earlier.map (·.request)
  dependent : ∀ request ∈ path, recorder.dependenciesOf request ≠ []

namespace Recalls

theorem known {depth : Nat} (recalls : Recalls recorder path visited depth earlier) :
    path ⊆ visited := by
  intro request onPath
  rw [recalls.visited_iff]
  exact enclosing_subset (recalls.path_eq ▸ onPath)

/-- The same path is recalled after a group. -/
theorem further (recalls : Recalls recorder path visited ancestors.length earlier)
    (shows : Shows recorder path ancestors group visited lines after) :
    Recalls recorder path after ancestors.length (earlier ++ lines) where
  path_eq := (enclosing_append shows.le_depth).trans recalls.path_eq
  visited_iff := by
    intro request
    rw [shows.mem_after recalls.known, recalls.visited_iff, List.map_append, List.mem_append]
  dependent := recalls.dependent

/-- Below the line of a request, the path goes on with that request. -/
theorem below (recalls : Recalls recorder path visited ancestors.length earlier) {isLast : Bool}
    (depends : recorder.dependenciesOf request ≠ []) :
    Recalls recorder (path ++ [request]) (appendNew visited request)
      (ancestors ++ [isLast]).length (earlier ++ [⟨ancestors, isLast, request, .none⟩]) where
  path_eq := by
    rw [List.length_append, List.length_singleton, ← recalls.path_eq]
    exact enclosing_concat earlier ⟨ancestors, isLast, request, .none⟩
  visited_iff := by
    intro other
    rw [mem_appendNew, recalls.visited_iff, List.map_append, List.mem_append]
    simp
  dependent := by
    intro other onPath
    rcases List.mem_append.mp onPath with before | isOpened
    · exact recalls.dependent other before
    · rwa [List.mem_singleton.mp isOpened]

end Recalls

/-- Every line that the rules give shows what it should, between the lines that are
recalled and others that are not deeper than the group. -/
theorem Shows.placedAll (shows : Shows recorder path ancestors group visited lines after)
    (recalls : Recalls recorder path visited ancestors.length earlier)
    (stops : ∀ next ∈ beyond.head?, next.depth ≤ ancestors.length) :
    PlacedAll recorder earlier lines beyond := by
  induction shows generalizing earlier beyond with
  | nil => trivial
  | cyclic onPath further inductionHypothesis =>
      refine ⟨?_, inductionHypothesis (recalls.further (.cyclic onPath .nil)) stops⟩
      have depends := recalls.dependent _ onPath
      exact {
        plain := fun isLeaf => absurd isLeaf depends
        first := fun isNew => absurd ((recalls.visited_iff _).mp (recalls.known onPath)) isNew
        again := fun _ _ => (if_pos (recalls.path_eq ▸ onPath)).symm
        expanded := by rintro ⟨⟩
        single := fun _ => enclosed_eq_nil (further.head_le stops) }
  | leaf offPath isLeaf further inductionHypothesis =>
      refine ⟨?_, inductionHypothesis (recalls.further (.leaf offPath isLeaf .nil)) stops⟩
      exact {
        plain := fun _ => rfl
        first := fun _ => rfl
        again := fun depends => absurd isLeaf depends
        expanded := fun _ => by
          rw [TreeLine.children, enclosed_eq_nil (further.head_le stops), isLeaf]
          rfl
        single := fun _ => enclosed_eq_nil (further.head_le stops) }
  | elided offPath depends isVisited further inductionHypothesis =>
      refine ⟨?_, inductionHypothesis
        (recalls.further (.elided offPath depends isVisited .nil)) stops⟩
      exact {
        plain := fun isLeaf => absurd isLeaf depends
        first := fun isNew => absurd ((recalls.visited_iff _).mp isVisited) isNew
        again := fun _ _ => (if_neg (recalls.path_eq ▸ offPath)).symm
        expanded := by rintro ⟨⟩
        single := fun _ => enclosed_eq_nil (further.head_le stops) }
  | @expanded _ ancestors isLast request _ _ below _ lines _ offPath depends isNew children further
      childrenHypothesis inductionHypothesis =>
      have stopsBelow := further.head_le stops
      have recallsAfter := recalls.further (.expanded offPath depends isNew children .nil)
      rw [List.append_nil, List.append_cons] at recallsAfter
      refine ⟨?_, placedAll_append.mpr ⟨?_, inductionHypothesis recallsAfter stops⟩⟩
      · have deeper := children.le_depth
        rw [List.length_append, List.length_singleton] at deeper
        have encloses : enclosed ⟨ancestors, isLast, request, .none⟩ (below ++ lines ++ beyond) =
            below := by
          rw [List.append_assoc]
          exact enclosed_append deeper stopsBelow
        have topmost := children.filter_depth
        rw [List.length_append, List.length_singleton] at topmost
        exact {
          plain := fun _ => rfl
          first := fun _ => rfl
          again := fun _ isOld => absurd ((recalls.visited_iff request).mpr isOld) isNew
          expanded := fun _ => by
            rw [TreeLine.children, encloses]
            exact topmost
          single := fun single => by
            rcases single with isMarked | isLeaf
            · exact absurd rfl isMarked
            · exact absurd isLeaf depends }
      · refine childrenHypothesis (recalls.below depends) fun next isNext => ?_
        rw [List.length_append]
        exact (stopsBelow next isNext).trans (Nat.le_add_right _ _)

/-- Every line of a tree or forest shows what it should in its place. -/
theorem Shows.placed {starts : List Request}
    (shows : Shows recorder [] [] (tops starts) [] lines after) (earlier : List (TreeLine Request))
    (line : TreeLine Request) (later : List (TreeLine Request))
    (parts : lines = earlier ++ line :: later) : Placed recorder earlier line later := by
  have nothing : Recalls recorder [] [] 0 [] := ⟨rfl, by simp, by simp⟩
  have placed : PlacedAll recorder [] lines [] := shows.placedAll nothing (by simp)
  rw [parts] at placed
  have here := (placedAll_append.mp placed).2.1
  rwa [List.append_nil] at here

end Recorder

end RequestEngine
