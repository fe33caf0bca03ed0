import RequestEngine.Proofs.Traversal

/-!
Contract: the dependency tree shows every cycle, and marks nothing else.

Owns:
- what the traversal knows about the requests that it has visited, as long as it
  marks no line as cyclic;
- that a line is marked as cyclic exactly if a cycle is reached, in trees, in the
  forest and in what is printed.

Visited requests off the path are finished with. As no line is marked, they lead
to finished requests only, and none of them leads back to itself. Elided lines
hide nothing, because they stand for finished requests. A line that is marked
stands for a request on the path, which leads down to that line.

Does not own: the number of lines, and the requests that lines stand for.
-/

namespace RequestEngine

namespace Recorder

open Relation

variable {Request : Type} [DecidableEq Request] {recorder : Recorder Request}
variable {path visited after requests : List Request} {request : Request}

omit [DecidableEq Request] in
/-- No line stands for a request that is its own ancestor. -/
def Unmarked (lines : List (TreeLine Request)) : Prop :=
  ∀ line ∈ lines, line.mark ≠ .cyclic

/-- The requests that are finished with, visited but not on the path, lead to
finished requests only, and never back to themselves. -/
structure Cleared (recorder : Recorder Request) (path visited : List Request) : Prop where
  closed : ∀ {request needed}, request ∈ visited → request ∉ path →
    recorder.Edge request needed → needed ∈ visited ∧ needed ∉ path
  acyclic : ∀ {request}, request ∈ visited → request ∉ path →
    ¬ TransGen recorder.Edge request request

/-- What is known after some requests have been shown without a cyclic mark. -/
structure Clears (recorder : Recorder Request) (path requests after : List Request) : Prop where
  cleared : Cleared recorder path after
  listed : ∀ request ∈ requests, request ∈ after ∧ request ∉ path

namespace Cleared

/-- Finished requests reach finished requests only. -/
theorem reaches {needed : Request} (cleared : Cleared recorder path visited)
    (reaches : ReflTransGen recorder.Edge request needed) (isVisited : request ∈ visited)
    (offPath : request ∉ path) : needed ∈ visited ∧ needed ∉ path := by
  induction reaches with
  | refl => exact ⟨isVisited, offPath⟩
  | tail _ edge finished => exact cleared.closed finished.1 finished.2 edge

/-- A request without dependencies is finished at once. -/
theorem leaf (cleared : Cleared recorder path visited)
    (isLeaf : recorder.dependenciesOf request = []) :
    Cleared recorder path (appendNew visited request) where
  closed := by
    intro other needed isVisited offPath edge
    rcases mem_appendNew.mp isVisited with before | rfl
    · have finished := cleared.closed before offPath edge
      exact ⟨mem_appendNew.mpr (.inl finished.1), finished.2⟩
    · rw [Edge, isLeaf] at edge
      cases edge
  acyclic := by
    intro other isVisited offPath loops
    rcases mem_appendNew.mp isVisited with before | rfl
    · exact cleared.acyclic before offPath loops
    · obtain ⟨needed, edge, _⟩ := TransGen.head'_iff.mp loops
      rw [Edge, isLeaf] at edge
      cases edge

/-- A request that is visited for the first time goes on the path, and is not
finished yet. -/
theorem opened (cleared : Cleared recorder path visited) (isNew : request ∉ visited) :
    Cleared recorder (path ++ [request]) (appendNew visited request) where
  closed := by
    intro other needed isVisited offPath edge
    simp only [List.mem_append, List.mem_singleton, not_or] at offPath
    have before := (mem_appendNew.mp isVisited).resolve_right offPath.2
    obtain ⟨neededVisited, neededOff⟩ := cleared.closed before offPath.1 edge
    have differs : needed ≠ request := fun same => isNew (same ▸ neededVisited)
    exact ⟨mem_appendNew.mpr (.inl neededVisited), by simp [neededOff, differs]⟩
  acyclic := by
    intro other isVisited offPath
    simp only [List.mem_append, List.mem_singleton, not_or] at offPath
    exact cleared.acyclic ((mem_appendNew.mp isVisited).resolve_right offPath.2) offPath.1

/-- A request without dependencies is cleared by its own line. -/
theorem clears_leaf (cleared : Cleared recorder path visited) (offPath : request ∉ path)
    (isLeaf : recorder.dependenciesOf request = []) :
    Clears recorder path [request] (appendNew visited request) where
  cleared := cleared.leaf isLeaf
  listed := by
    rintro other (_ | ⟨_, ⟨⟩⟩)
    exact ⟨mem_appendNew.mpr (.inr rfl), offPath⟩

/-- A request that was visited before and is off the path has been cleared before. -/
theorem clears_visited (cleared : Cleared recorder path visited) (offPath : request ∉ path)
    (isVisited : request ∈ visited) : Clears recorder path [request] visited where
  cleared := cleared
  listed := by
    rintro other (_ | ⟨_, ⟨⟩⟩)
    exact ⟨isVisited, offPath⟩

end Cleared

/-- A request is finished when everything that it asks for is. -/
theorem Clears.closed
    (clears : Clears recorder (path ++ [request]) (recorder.dependenciesOf request) after)
    (isVisited : request ∈ after) (offPath : request ∉ path) :
    Clears recorder path [request] after where
  listed := by
    rintro other (_ | ⟨_, ⟨⟩⟩)
    exact ⟨isVisited, offPath⟩
  cleared :=
    { closed := by
        intro other needed isVisited otherOff edge
        by_cases same : other = request
        · subst same
          obtain ⟨neededVisited, neededOff⟩ := clears.listed needed edge
          exact ⟨neededVisited, fun onPath => neededOff (List.mem_append_left _ onPath)⟩
        · obtain ⟨neededVisited, neededOff⟩ :=
            clears.cleared.closed isVisited (by simp [otherOff, same]) edge
          exact ⟨neededVisited, fun onPath => neededOff (List.mem_append_left _ onPath)⟩
      acyclic := by
        intro other isVisited otherOff loops
        by_cases same : other = request
        · -- A way back to the request would leave the finished requests.
          subst same
          obtain ⟨needed, edge, back⟩ := TransGen.head'_iff.mp loops
          obtain ⟨neededVisited, neededOff⟩ := clears.listed needed edge
          exact (clears.cleared.reaches back neededVisited neededOff).2 (by simp)
        · exact clears.cleared.acyclic isVisited (by simp [otherOff, same]) loops }

/-- A request and the ones below it are cleared one after the other. -/
theorem Clears.cons (here : Clears recorder path [request] visited) (kept : visited ⊆ after)
    (below : Clears recorder path requests after) :
    Clears recorder path (request :: requests) after where
  cleared := below.cleared
  listed := by
    rintro other (_ | ⟨_, isBelow⟩)
    · obtain ⟨isVisited, offPath⟩ := here.listed request List.mem_cons_self
      exact ⟨kept isVisited, offPath⟩
    · exact below.listed other isBelow

/-- What is shown is cleared, unless a line is marked as cyclic. -/
theorem Shows.clears {ancestors : List Bool} {group : List (Bool × Request)}
    {lines : List (TreeLine Request)}
    (shows : Shows recorder path ancestors group visited lines after)
    (cleared : Cleared recorder path visited) (unmarked : Unmarked lines) :
    Clears recorder path (group.map (·.2)) after := by
  induction shows with
  | nil => exact ⟨cleared, by simp⟩
  | cyclic => exact absurd rfl (unmarked _ List.mem_cons_self)
  | leaf offPath isLeaf further inductionHypothesis =>
      have here := cleared.clears_leaf offPath isLeaf
      have below := inductionHypothesis here.cleared (List.forall_mem_cons.mp unmarked).2
      exact here.cons further.kept below
  | elided offPath _ isVisited further inductionHypothesis =>
      have here := cleared.clears_visited offPath isVisited
      have below := inductionHypothesis here.cleared (List.forall_mem_cons.mp unmarked).2
      exact here.cons further.kept below
  | expanded offPath _ isNew children further childrenHypothesis inductionHypothesis =>
      obtain ⟨unmarkedBelow, unmarkedFurther⟩ :=
        List.forall_mem_append.mp (List.forall_mem_cons.mp unmarked).2
      have dependencies := childrenHypothesis (cleared.opened isNew) unmarkedBelow
      rw [map_snd_siblings] at dependencies
      have isVisited := children.kept (mem_appendNew.mpr (.inr rfl))
      have here := dependencies.closed isVisited offPath
      exact here.cons further.kept (inductionHypothesis here.cleared unmarkedFurther)

/-- A cycle is marked whenever one of its requests is reached. -/
theorem Shows.exists_cyclic {starts : List Request} {lines : List (TreeLine Request)}
    (shows : Shows recorder [] [] (tops starts) [] lines after)
    (reached : request ∈ recorder.reachable starts)
    (loops : TransGen recorder.Edge request request) : ∃ line ∈ lines, line.mark = .cyclic := by
  refine Classical.byContradiction fun noneMarked => ?_
  have unmarked : Unmarked lines := fun line isLine marked => noneMarked ⟨line, isLine, marked⟩
  have forest := shows.clears ⟨by simp, by simp⟩ unmarked
  rw [map_snd_tops] at forest
  obtain ⟨start, isStart, reaches⟩ := reached
  obtain ⟨startVisited, startOff⟩ := forest.listed start isStart
  obtain ⟨isVisited, offPath⟩ := forest.cleared.reaches reaches startVisited startOff
  exact forest.cleared.acyclic isVisited offPath loops

/-- A cycle that the rest of a group reaches is reached by the group. -/
private theorem exists_loop_cons {start : Request} {starts : List Request}
    (found : ∃ request ∈ recorder.reachable starts, TransGen recorder.Edge request request) :
    ∃ request ∈ recorder.reachable (start :: starts), TransGen recorder.Edge request request :=
  found.imp fun _ => And.imp_left (reachable_mono (List.subset_cons_self _ _) ·)

/-- A cyclic mark is in front of a cycle, as long as everything on the path leads to
the requests of the group. -/
theorem Shows.exists_loop {ancestors : List Bool} {group : List (Bool × Request)}
    {lines : List (TreeLine Request)} {line : TreeLine Request}
    (shows : Shows recorder path ancestors group visited lines after)
    (leads : ∀ above ∈ path, ∀ member ∈ group, TransGen recorder.Edge above member.2)
    (isLine : line ∈ lines) (marked : line.mark = .cyclic) :
    ∃ request ∈ recorder.reachable (group.map (·.2)), TransGen recorder.Edge request request := by
  induction shows with
  | nil => cases isLine
  | cyclic onPath _ inductionHypothesis =>
      rcases List.mem_cons.mp isLine with rfl | later
      · exact ⟨_, ⟨_, List.mem_cons_self, .refl⟩, leads _ onPath _ List.mem_cons_self⟩
      · have leadsFurther := fun above isAbove => (List.forall_mem_cons.mp (leads above isAbove)).2
        exact exists_loop_cons (inductionHypothesis leadsFurther later)
  | leaf _ _ _ inductionHypothesis | elided _ _ _ _ inductionHypothesis =>
      rcases List.mem_cons.mp isLine with rfl | later
      · cases marked
      · have leadsFurther := fun above isAbove => (List.forall_mem_cons.mp (leads above isAbove)).2
        exact exists_loop_cons (inductionHypothesis leadsFurther later)
  | @expanded path _ _ opened _ _ _ _ _ _ _ _ _ _ _ childrenHypothesis inductionHypothesis =>
      have leadsBelow : ∀ above ∈ path ++ [opened],
          ∀ member ∈ siblings (recorder.dependenciesOf opened),
            TransGen recorder.Edge above member.2 := by
        intro above isAbove member isMember
        have edge : recorder.Edge opened member.2 := mem_of_mem_siblings isMember
        rcases List.mem_append.mp isAbove with before | isOpened
        · exact (leads above before _ List.mem_cons_self).tail edge
        · exact .single (List.mem_singleton.mp isOpened ▸ edge)
      rcases List.mem_cons.mp isLine with rfl | inside
      · cases marked
      rcases List.mem_append.mp inside with below | later
      · have found := childrenHypothesis leadsBelow below
        rw [map_snd_siblings] at found
        exact found.imp fun _ => And.imp_left (reachable_dependenciesOf List.mem_cons_self ·)
      · have leadsFurther := fun above isAbove => (List.forall_mem_cons.mp (leads above isAbove)).2
        exact exists_loop_cons (inductionHypothesis leadsFurther later)

/-- There is a line with the cyclic mark exactly if a cycle is reached. -/
theorem Shows.exists_cyclic_iff {starts : List Request} {lines : List (TreeLine Request)}
    (shows : Shows recorder [] [] (tops starts) [] lines after) :
    (∃ line ∈ lines, line.mark = .cyclic) ↔
      ∃ request ∈ recorder.reachable starts, TransGen recorder.Edge request request := by
  constructor
  · rintro ⟨line, isLine, marked⟩
    have found := shows.exists_loop (by simp) isLine marked
    rwa [map_snd_tops] at found
  · rintro ⟨request, reached, loops⟩
    exact shows.exists_cyclic reached loops

/-- A cycle below a root is marked in the forest. -/
theorem exists_cyclic_line {root : Request} (isRoot : root ∈ recorder.roots)
    (reaches : ReflTransGen recorder.Edge root request)
    (loops : TransGen recorder.Edge request request) :
    ∃ line ∈ recorder.forestLines, line.mark = .cyclic := by
  obtain ⟨after, shows⟩ := recorder.shows_forestLines
  exact shows.exists_cyclic ⟨root, isRoot, reaches⟩ loops

/-! ### The printed form -/

omit [DecidableEq Request] in
/-- The text of a marked line ends with the mark. -/
theorem text_of_cyclic (display : Request → String) {line : TreeLine Request}
    (marked : line.mark = .cyclic) :
    ∃ shown, line.text display = shown ++ " (cyclic dependency)\n" := by
  refine ⟨String.join (line.ancestors.map TreeLine.indentation) ++ TreeLine.branch line.isLast ++
    display line.request, ?_⟩
  have ending : TreeMark.cyclic.text ++ "\n" = " (cyclic dependency)\n" := by decide
  rw [TreeLine.text, marked, String.append_assoc, ending]

omit [DecidableEq Request] in
/-- Every line is printed. -/
theorem exists_join_of_mem (display : Request → String) {lines : List (TreeLine Request)}
    {line : TreeLine Request} (isLine : line ∈ lines) :
    ∃ above below, String.join (lines.map (·.text display)) =
      above ++ line.text display ++ below := by
  obtain ⟨above, below, rfl⟩ := List.append_of_mem isLine
  refine ⟨String.join (above.map (·.text display)), String.join (below.map (·.text display)), ?_⟩
  rw [List.map_append, List.map_cons, String.join_append, String.join_cons, String.append_assoc]

/-- Every line of the forest is printed. -/
theorem printForest_of_mem (display : Request → String) {line : TreeLine Request}
    (isLine : line ∈ recorder.forestLines) :
    ∃ above below, recorder.printForest display = above ++ line.text display ++ below :=
  exists_join_of_mem display isLine

/-- A text that prints some lines has one that the traversal marks as cyclic. -/
def PrintsCycle (display : Request → String) (lines : List (TreeLine Request)) (text : String) :
    Prop :=
  ∃ line ∈ lines, line.mark = .cyclic ∧
    ∃ above shown below, text = above ++ (shown ++ " (cyclic dependency)\n") ++ below ∧
      line.text display = shown ++ " (cyclic dependency)\n"

omit [DecidableEq Request] in
private theorem printsCycle_join (display : Request → String) (lines : List (TreeLine Request)) :
    PrintsCycle display lines (String.join (lines.map (·.text display))) ↔
      ∃ line ∈ lines, line.mark = .cyclic := by
  constructor
  · rintro ⟨line, isLine, marked, _⟩
    exact ⟨line, isLine, marked⟩
  · rintro ⟨line, isLine, marked⟩
    obtain ⟨shown, shows⟩ := text_of_cyclic display marked
    obtain ⟨above, below, prints⟩ := exists_join_of_mem display isLine
    exact ⟨line, isLine, marked, above, shown, below, shows ▸ prints, shows⟩

/-- A tree is printed with a cyclic mark exactly if its request reaches a cycle of
the recorded graph, and the forest exactly if some root does. Whatever is elided
hides no cycle. -/
theorem printsCycle_iff (recorder : Recorder Request) (display : Request → String) :
    (∀ request,
      PrintsCycle display (recorder.treeLines request) (recorder.printTree display request) ↔
        ∃ other, ReflTransGen recorder.Edge request other ∧
          TransGen recorder.Edge other other) ∧
    (PrintsCycle display recorder.forestLines (recorder.printForest display) ↔
      ∃ root ∈ recorder.roots, ∃ other, ReflTransGen recorder.Edge root other ∧
        TransGen recorder.Edge other other) := by
  constructor
  · intro request
    obtain ⟨after, shows⟩ := recorder.shows_treeLines request
    rw [printTree, printsCycle_join, shows.exists_cyclic_iff]
    simp [reachable]
  · obtain ⟨after, shows⟩ := recorder.shows_forestLines
    rw [printForest, printsCycle_join, shows.exists_cyclic_iff]
    constructor
    · rintro ⟨other, ⟨root, isRoot, reaches⟩, loops⟩
      exact ⟨root, isRoot, other, reaches, loops⟩
    · rintro ⟨root, isRoot, other, reaches, loops⟩
      exact ⟨other, ⟨root, isRoot, reaches⟩, loops⟩

end Recorder

end RequestEngine
