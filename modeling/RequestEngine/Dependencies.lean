/-!
Contract: which requests asked for which, in the order in which they asked.

Owns:
- recording roots and edges without repetition;
- reading roots and direct dependencies back.

Requests evaluated while nothing is being computed are roots. Every other
evaluation adds an edge from the request on top of the stack, whether or not
its value came from a cache.

Does not own: printed forms; `Dependencies.Tree` and `Dependencies.Graphviz`
hold those.
-/

namespace RequestEngine

/-- Adds an item at the end unless it is there already. -/
def appendNew {Item : Type} [DecidableEq Item] (items : List Item) (item : Item) : List Item :=
  if item ∈ items then items else items ++ [item]

@[simp]
theorem mem_appendNew {Item : Type} [DecidableEq Item] {items : List Item} {item other : Item} :
    other ∈ appendNew items item ↔ other ∈ items ∨ other = item := by
  unfold appendNew
  split
  · constructor
    · exact .inl
    · rintro (held | rfl)
      · exact held
      · assumption
  · simp

/-- Adding an item keeps a set free of repetitions. -/
theorem nodup_appendNew {Item : Type} [DecidableEq Item] {items : List Item}
    (distinct : items.Nodup) (item : Item) : (appendNew items item).Nodup := by
  unfold appendNew
  split
  · exact distinct
  · rename_i absent
    rw [List.nodup_append]
    refine ⟨distinct, by simp, ?_⟩
    rintro left inItems right isItem rfl
    simp only [List.mem_singleton] at isItem
    exact absent (isItem ▸ inItems)

/-- The direct dependencies of one request. -/
structure DependencyList (Request : Type) where
  dependent : Request
  dependencies : List Request
deriving DecidableEq, Repr

/-- The recorded graph. Roots, dependents and dependencies are each in the order
of their first appearance. -/
structure Recorder (Request : Type) where
  roots : List Request := []
  edges : List (DependencyList Request) := []
deriving DecidableEq, Repr

namespace Recorder

variable {Request : Type} [DecidableEq Request]

def addEdge (dependent request : Request) :
    List (DependencyList Request) → List (DependencyList Request)
  | [] => [⟨dependent, [request]⟩]
  | entry :: rest =>
      if entry.dependent = dependent then
        { entry with dependencies := appendNew entry.dependencies request } :: rest
      else entry :: addEdge dependent request rest

/-- Records that a request was asked for, by another request or from outside. -/
def record (recorder : Recorder Request) (dependent : Option Request) (request : Request) :
    Recorder Request :=
  match dependent with
  | none => { recorder with roots := appendNew recorder.roots request }
  | some dependent => { recorder with edges := addEdge dependent request recorder.edges }

/-- Direct dependencies in the order in which they were first asked for. -/
def dependenciesOf (recorder : Recorder Request) (request : Request) : List Request :=
  ((recorder.edges.find? (·.dependent = request)).map (·.dependencies)).getD []

def edgeCount (recorder : Recorder Request) : Nat :=
  (recorder.edges.flatMap (·.dependencies)).length

def isEmpty (recorder : Recorder Request) : Bool :=
  recorder.roots.isEmpty && recorder.edges.isEmpty

omit [DecidableEq Request] in
@[simp]
theorem edgeCount_empty : edgeCount ({} : Recorder Request) = 0 := rfl

@[simp]
theorem dependenciesOf_record_none (recorder : Recorder Request) (request other : Request) :
    (recorder.record none request).dependenciesOf other = recorder.dependenciesOf other := rfl

/-- An edge adds its target to the dependencies of its source. -/
theorem dependenciesOf_record_self (recorder : Recorder Request) (dependent request : Request) :
    (recorder.record (some dependent) request).dependenciesOf dependent =
      appendNew (recorder.dependenciesOf dependent) request := by
  simp only [record, dependenciesOf]
  induction recorder.edges with
  | nil => simp [addEdge, appendNew]
  | cons entry rest inductionHypothesis =>
      by_cases same : entry.dependent = dependent
      · simp [addEdge, same]
      · simp [addEdge, same, inductionHypothesis]

/-- An edge leaves the dependencies of every other request as they were. -/
theorem dependenciesOf_record_other (recorder : Recorder Request)
    {dependent other : Request} (differs : dependent ≠ other) (request : Request) :
    (recorder.record (some dependent) request).dependenciesOf other =
      recorder.dependenciesOf other := by
  simp only [record, dependenciesOf]
  induction recorder.edges with
  | nil => simp [addEdge, differs]
  | cons entry rest inductionHypothesis =>
      by_cases same : entry.dependent = dependent
      · simp [addEdge, same, differs]
      · by_cases found : entry.dependent = other
        · simp [addEdge, found, differs.symm]
        · simp [addEdge, same, found, inductionHypothesis]

end Recorder

end RequestEngine
