import RequestEngine.Dependencies

/-!
Contract: the recorded graph in the DOT language.

Owns:
- the numbering of requests by first occurrence;
- the quoted labels;
- the printed graph.

Does not own: recording, or laying the graph out.
-/

namespace RequestEngine

/-- A label between quotes: the quote and the backslash take a backslash in
front. -/
def escapedLabel (label : List Char) : List Char :=
  label.flatMap fun character =>
    if character = '\\' ∨ character = '"' then ['\\', character] else [character]

@[simp]
theorem escapedLabel_nil : escapedLabel [] = [] := rfl

theorem escapedLabel_append (first second : List Char) :
    escapedLabel (first ++ second) = escapedLabel first ++ escapedLabel second := by
  simp [escapedLabel]

namespace Recorder

variable {Request : Type} [DecidableEq Request]

/-- All requests that occur in the graph, in the order of their first
occurrence: roots, then every dependent followed by its dependencies. -/
def nodes (recorder : Recorder Request) : List Request :=
  let occurrences := recorder.roots ++
    recorder.edges.flatMap fun entry => entry.dependent :: entry.dependencies
  occurrences.foldl appendNew []

/-- The edges as pairs of node numbers, in recorded order. -/
def numberedEdges (recorder : Recorder Request) : List (Nat × Nat) :=
  let nodes := recorder.nodes
  recorder.edges.flatMap fun entry =>
    entry.dependencies.map fun dependency =>
      (nodes.idxOf entry.dependent, nodes.idxOf dependency)

def nodeLine (display : Request → String) (number : Nat) (request : Request) : String :=
  "  request_" ++ toString number ++ " [label=\"" ++
    String.ofList (escapedLabel (display request).toList) ++ "\"];\n"

def edgeLine (edge : Nat × Nat) : String :=
  "  request_" ++ toString edge.1 ++ " -> request_" ++ toString edge.2 ++ ";\n"

/-- The printed graph: nodes, then edges after an empty line. -/
def toGraphviz (display : Request → String) (recorder : Recorder Request) : String :=
  let edges := recorder.numberedEdges
  "digraph Dependencies \x7b\n" ++
    String.join (recorder.nodes.mapIdx (nodeLine display)) ++
    (if edges.isEmpty then "" else "\n") ++
    String.join (edges.map edgeLine) ++ "\x7d\n"

/-- There is one numbered edge for every recorded one. -/
theorem length_numberedEdges (recorder : Recorder Request) :
    recorder.numberedEdges.length = recorder.edgeCount := by
  simp [numberedEdges, edgeCount, List.length_flatMap]

end Recorder

end RequestEngine
