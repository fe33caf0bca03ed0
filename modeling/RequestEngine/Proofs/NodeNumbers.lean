import Mathlib.Data.List.Basic
import Mathlib.Data.List.Induction
import RequestEngine.Dependencies.Graphviz

/-!
Contract: the numbers of requests in a printed graph.

Owns:
- that requests are numbered by their first occurrence;
- numbers that are handed out one after the other while the graph is walked through,
  and that these are the same ones;
- which edge stands for which numbers.

Does not own: how numbers are printed.
-/

namespace RequestEngine

section FirstOccurrence

variable {Item : Type} [DecidableEq Item] {items known last : List Item} {item : Item}

/-- The place of an item stays when others are added behind. -/
private theorem idxOf_of_prefix (isPrefix : known <+: last) (isKnown : item ∈ known) :
    last.idxOf item = known.idxOf item := by
  obtain ⟨further, rfl⟩ := isPrefix
  exact List.idxOf_append_of_mem isKnown

private theorem prefix_appendNew : known <+: appendNew known item := by
  unfold appendNew
  split
  · exact List.prefix_rfl
  · exact List.prefix_append _ _

private theorem prefix_foldl_appendNew : known <+: items.foldl appendNew known := by
  induction items generalizing known with
  | nil => exact List.prefix_rfl
  | cons item rest inductionHypothesis => exact prefix_appendNew.trans inductionHypothesis

private theorem mem_foldl_appendNew :
    item ∈ items.foldl appendNew known ↔ item ∈ known ∨ item ∈ items := by
  induction items generalizing known with
  | nil => simp
  | cons first rest inductionHypothesis =>
      rw [List.foldl_cons, inductionHypothesis, mem_appendNew, List.mem_cons, or_assoc]

private theorem nodup_foldl_appendNew (distinct : known.Nodup) :
    (items.foldl appendNew known).Nodup := by
  induction items generalizing known with
  | nil => exact distinct
  | cons first rest inductionHypothesis =>
      exact inductionHypothesis (nodup_appendNew distinct first)

/-- Items that are added when they are new are listed by first occurrence. -/
private theorem pairwise_foldl_appendNew (items : List Item) :
    (items.foldl appendNew []).Pairwise fun first second =>
      items.idxOf first < items.idxOf second := by
  induction items using List.reverseRecOn with
  | nil => exact .nil
  | append_singleton items last inductionHypothesis =>
      have isListed : ∀ item ∈ items.foldl appendNew [], item ∈ items := by
        simp [mem_foldl_appendNew]
      have stays : ∀ item ∈ items.foldl appendNew [],
          (items ++ [last]).idxOf item = items.idxOf item :=
        fun item isNode => List.idxOf_append_of_mem (isListed item isNode)
      have before : (items.foldl appendNew []).Pairwise fun first second =>
          (items ++ [last]).idxOf first < (items ++ [last]).idxOf second := by
        refine inductionHypothesis.imp_of_mem fun isFirst isSecond earlier => ?_
        rwa [stays _ isFirst, stays _ isSecond]
      rw [List.foldl_append, List.foldl_cons, List.foldl_nil, appendNew]
      split
      · exact before
      · rename_i isNew
        have notBefore : last ∉ items := by simpa [mem_foldl_appendNew] using isNew
        refine List.pairwise_append.mpr ⟨before, List.pairwise_singleton _ _, ?_⟩
        intro item isNode other isLast
        obtain rfl := List.mem_singleton.mp isLast
        rw [stays item isNode, List.idxOf_append_of_notMem notBefore]
        exact Nat.lt_add_right _ (List.idxOf_lt_length_of_mem (isListed item isNode))

end FirstOccurrence

/-! ### Numbers that are handed out -/

/-- Numbers that were handed out one after the other: the number of every item, and
the items in the order of their numbers. -/
structure Numbering (Item : Type) where
  numbers : List (Item × Nat) := []
  items : List Item := []

namespace Numbering

variable {Item : Type} [DecidableEq Item] {numbering : Numbering Item}

/-- Looks the number of an item up. A new item takes the next number. -/
def take (item : Item) (numbering : Numbering Item) : Nat × Numbering Item :=
  match numbering.numbers.lookup item with
  | some number => (number, numbering)
  | none =>
      (numbering.items.length,
        { numbers := (item, numbering.items.length) :: numbering.numbers
          items := numbering.items ++ [item] })

def takeAll : List Item → Numbering Item → List Nat × Numbering Item
  | [], numbering => ([], numbering)
  | item :: rest, numbering =>
      let (number, further) := numbering.take item
      let (numbers, after) := further.takeAll rest
      (number :: numbers, after)

/-- Numbers both ends of every edge: a dependent, and then what it depends on. -/
def takeEdges : List (DependencyList Item) → Numbering Item → List (Nat × Nat) × Numbering Item
  | [], numbering => ([], numbering)
  | entry :: rest, numbering =>
      let (source, afterSource) := numbering.take entry.dependent
      let (targets, afterTargets) := afterSource.takeAll entry.dependencies
      let (edges, after) := afterTargets.takeEdges rest
      (targets.map (source, ·) ++ edges, after)

/-- The number of an item is its place among all items. -/
def Consistent (numbering : Numbering Item) : Prop :=
  ∀ item, numbering.numbers.lookup item =
    if item ∈ numbering.items then some (numbering.items.idxOf item) else none

theorem consistent_empty : Consistent ({} : Numbering Item) := fun _ => rfl

/-- Handing one number out keeps the numbering consistent. -/
theorem Consistent.exists_take (consistent : numbering.Consistent) (item : Item) :
    ∃ after, numbering.take item = (after.items.idxOf item, after) ∧
      after.items = appendNew numbering.items item ∧ after.Consistent := by
  unfold take appendNew
  rw [consistent item]
  by_cases isKnown : item ∈ numbering.items
  · rw [if_pos isKnown, if_pos isKnown]
    exact ⟨numbering, rfl, rfl, consistent⟩
  · rw [if_neg isKnown, if_neg isKnown]
    have place : (numbering.items ++ [item]).idxOf item = numbering.items.length := by
      rw [List.idxOf_append_of_notMem isKnown, List.idxOf_cons_self, Nat.add_zero]
    refine ⟨_, Prod.ext place.symm rfl, rfl, fun other => ?_⟩
    by_cases same : other = item
    · subst same
      simp [place]
    · rw [List.lookup_cons, beq_false_of_ne same]
      simp only [List.mem_append, List.mem_singleton, same, or_false]
      rw [consistent other]
      split
      · rename_i isOther
        rw [List.idxOf_append_of_mem isOther]
      · rfl

theorem Consistent.exists_takeAll (consistent : numbering.Consistent) (items : List Item) :
    ∃ after, numbering.takeAll items = (items.map after.items.idxOf, after) ∧
      after.items = items.foldl appendNew numbering.items ∧ after.Consistent := by
  induction items generalizing numbering with
  | nil => exact ⟨numbering, rfl, rfl, consistent⟩
  | cons item rest inductionHypothesis =>
      obtain ⟨further, takes, known, furtherConsistent⟩ := consistent.exists_take item
      obtain ⟨after, takesAll, allKnown, afterConsistent⟩ := inductionHypothesis furtherConsistent
      refine ⟨after, ?_, by rw [allKnown, known, List.foldl_cons], afterConsistent⟩
      have stays : after.items.idxOf item = further.items.idxOf item := by
        refine idxOf_of_prefix ?_ (by simp [known])
        rw [allKnown]
        exact prefix_foldl_appendNew
      simp only [takeAll, takes, takesAll, List.map_cons, stays]

/-- Both ends of every edge get the numbers that they have at the end of the walk. -/
theorem Consistent.exists_takeEdges (consistent : numbering.Consistent)
    (edges : List (DependencyList Item)) :
    ∃ after, numbering.takeEdges edges =
        (edges.flatMap fun entry => entry.dependencies.map fun dependency =>
          (after.items.idxOf entry.dependent, after.items.idxOf dependency), after) ∧
      after.items = (edges.flatMap fun entry => entry.dependent :: entry.dependencies).foldl
        appendNew numbering.items ∧
      after.Consistent := by
  induction edges generalizing numbering with
  | nil => exact ⟨numbering, rfl, rfl, consistent⟩
  | cons entry rest inductionHypothesis =>
      obtain ⟨source, takes, known, sourceConsistent⟩ := consistent.exists_take entry.dependent
      obtain ⟨targets, takesAll, allKnown, targetsConsistent⟩ :=
        sourceConsistent.exists_takeAll entry.dependencies
      obtain ⟨after, takesRest, restKnown, afterConsistent⟩ := inductionHypothesis targetsConsistent
      refine ⟨after, ?_, by simp [restKnown, allKnown, known], afterConsistent⟩
      have throughTargets : source.items <+: targets.items := allKnown ▸ prefix_foldl_appendNew
      have throughRest : targets.items <+: after.items := restKnown ▸ prefix_foldl_appendNew
      have sourceStays : after.items.idxOf entry.dependent = source.items.idxOf entry.dependent :=
        idxOf_of_prefix (throughTargets.trans throughRest) (by simp [known])
      have targetsStay : entry.dependencies.map after.items.idxOf =
          entry.dependencies.map targets.items.idxOf := by
        refine List.map_congr_left fun dependency isTarget => ?_
        refine idxOf_of_prefix throughRest ?_
        rw [allKnown, mem_foldl_appendNew]
        exact .inr isTarget
      simp only [takeEdges, takes, takesAll, takesRest, List.flatMap_cons, ← sourceStays,
        ← targetsStay, List.map_map]
      rfl

end Numbering

/-! ### Numbers of a graph -/

namespace Recorder

variable {Request : Type} [DecidableEq Request] {recorder : Recorder Request} {request : Request}

/-- Every place of the graph that shows a request, in recorded order. -/
def occurrences (recorder : Recorder Request) : List Request :=
  recorder.roots ++ recorder.edges.flatMap fun entry => entry.dependent :: entry.dependencies

/-- Every edge with its dependent in front, in recorded order. -/
def recordedEdges (recorder : Recorder Request) : List (Request × Request) :=
  recorder.edges.flatMap fun entry => entry.dependencies.map (entry.dependent, ·)

/-- Walks through the roots and then through the edges, and numbers what is met. -/
def handOut (recorder : Recorder Request) : List Request × List (Nat × Nat) :=
  let (_, rooted) := ({} : Numbering Request).takeAll recorder.roots
  let (edges, numbering) := rooted.takeEdges recorder.edges
  (numbering.items, edges)

/-- The numbers that are handed out on the way are the ones of first occurrence. -/
theorem handOut_eq (recorder : Recorder Request) :
    recorder.handOut = (recorder.nodes, recorder.numberedEdges) := by
  obtain ⟨rooted, takesRoots, rootsKnown, rootedConsistent⟩ :=
    Numbering.consistent_empty.exists_takeAll recorder.roots
  obtain ⟨after, takesEdges, allKnown, _⟩ := rootedConsistent.exists_takeEdges recorder.edges
  have isNodes : after.items = recorder.nodes := by
    rw [allKnown, rootsKnown, ← List.foldl_append]
    rfl
  simp only [handOut, takesRoots, takesEdges, isNodes]
  rfl

theorem mem_nodes : request ∈ recorder.nodes ↔ request ∈ recorder.occurrences := by
  rw [nodes, mem_foldl_appendNew]
  exact or_iff_right List.not_mem_nil

theorem nodup_nodes (recorder : Recorder Request) : recorder.nodes.Nodup :=
  nodup_foldl_appendNew List.nodup_nil

theorem pairwise_nodes (recorder : Recorder Request) :
    recorder.nodes.Pairwise fun first second =>
      recorder.occurrences.idxOf first < recorder.occurrences.idxOf second :=
  pairwise_foldl_appendNew recorder.occurrences

omit [DecidableEq Request] in
theorem mem_occurrences : request ∈ recorder.occurrences ↔ request ∈ recorder.roots ∨
    ∃ entry ∈ recorder.edges, request = entry.dependent ∨ request ∈ entry.dependencies := by
  simp [occurrences]

omit [DecidableEq Request] in
theorem mem_recordedEdges {entry : DependencyList Request} (isEntry : entry ∈ recorder.edges)
    (isTarget : request ∈ entry.dependencies) :
    (entry.dependent, request) ∈ recorder.recordedEdges :=
  List.mem_flatMap.mpr ⟨entry, isEntry, List.mem_map_of_mem isTarget⟩

omit [DecidableEq Request] in
theorem ends_mem_occurrences {edge : Request × Request} (isEdge : edge ∈ recorder.recordedEdges) :
    edge.1 ∈ recorder.occurrences ∧ edge.2 ∈ recorder.occurrences := by
  obtain ⟨entry, isEntry, isEdge⟩ := List.mem_flatMap.mp isEdge
  obtain ⟨dependency, isTarget, rfl⟩ := List.mem_map.mp isEdge
  exact ⟨mem_occurrences.mpr (.inr ⟨entry, isEntry, .inl rfl⟩),
    mem_occurrences.mpr (.inr ⟨entry, isEntry, .inr isTarget⟩)⟩

theorem numberedEdges_eq (recorder : Recorder Request) :
    recorder.numberedEdges = recorder.recordedEdges.map fun edge =>
      (recorder.nodes.idxOf edge.1, recorder.nodes.idxOf edge.2) := by
  simp only [numberedEdges, recordedEdges, List.map_flatMap, List.map_map]
  rfl

/-- Both numbers of an edge are declared, for the ends of this edge. -/
theorem ends_of_numberedEdges (recorder : Recorder Request) :
    recorder.numberedEdges.map (fun edge => (recorder.nodes[edge.1]?, recorder.nodes[edge.2]?)) =
      recorder.recordedEdges.map fun edge => (some edge.1, some edge.2) := by
  rw [numberedEdges_eq, List.map_map]
  refine List.map_congr_left fun edge isEdge => ?_
  obtain ⟨isSource, isTarget⟩ := ends_mem_occurrences isEdge
  rw [Function.comp_apply, List.getElem?_idxOf (mem_nodes.mpr isSource),
    List.getElem?_idxOf (mem_nodes.mpr isTarget)]

/-! ### What recording adds -/

/-- Every request that is listed as a dependent depends on something. -/
def Filled (recorder : Recorder Request) : Prop :=
  ∀ entry ∈ recorder.edges, entry.dependencies ≠ []

private theorem dependencies_addEdge_ne_nil {dependent : Request}
    {edges : List (DependencyList Request)} (filled : ∀ entry ∈ edges, entry.dependencies ≠ []) :
    ∀ entry ∈ addEdge dependent request edges, entry.dependencies ≠ [] := by
  induction edges with
  | nil => simp [addEdge]
  | cons entry rest inductionHypothesis =>
      obtain ⟨filledHere, filledBelow⟩ := List.forall_mem_cons.mp filled
      rw [addEdge]
      split
      · refine List.forall_mem_cons.mpr ⟨?_, filledBelow⟩
        exact List.ne_nil_of_mem (mem_appendNew.mpr (.inr rfl))
      · exact List.forall_mem_cons.mpr ⟨filledHere, inductionHypothesis filledBelow⟩

theorem Filled.record (filled : recorder.Filled) (asker : Option Request) (request : Request) :
    (recorder.record asker request).Filled := by
  cases asker with
  | none => exact filled
  | some dependent => exact dependencies_addEdge_ne_nil filled

/-- The graph that is recorded when requests are asked for one after the other. -/
def recordAll (calls : List (Option Request × Request)) : Recorder Request :=
  calls.foldl (fun recorder call => recorder.record call.1 call.2) {}

theorem filled_recordAll (calls : List (Option Request × Request)) : (recordAll calls).Filled := by
  unfold recordAll
  induction calls using List.reverseRecOn with
  | nil => exact fun _ isEntry => absurd isEntry List.not_mem_nil
  | append_singleton calls call inductionHypothesis =>
      rw [List.foldl_append]
      exact inductionHypothesis.record call.1 call.2

/-- The requests of a recorded graph are its roots and the ends of its edges. -/
theorem Filled.mem_nodes (filled : recorder.Filled) :
    request ∈ recorder.nodes ↔ request ∈ recorder.roots ∨
      ∃ edge ∈ recorder.recordedEdges, request = edge.1 ∨ request = edge.2 := by
  rw [Recorder.mem_nodes]
  constructor
  · rw [mem_occurrences]
    rintro (isRoot | ⟨entry, isEntry, rfl | isTarget⟩)
    · exact .inl isRoot
    · obtain ⟨dependency, isTarget⟩ := List.exists_mem_of_ne_nil _ (filled entry isEntry)
      exact .inr ⟨_, mem_recordedEdges isEntry isTarget, .inl rfl⟩
    · exact .inr ⟨_, mem_recordedEdges isEntry isTarget, .inr rfl⟩
  · rintro (isRoot | ⟨edge, isEdge, rfl | rfl⟩)
    · exact mem_occurrences.mpr (.inl isRoot)
    · exact (ends_mem_occurrences isEdge).1
    · exact (ends_mem_occurrences isEdge).2

end Recorder

end RequestEngine
