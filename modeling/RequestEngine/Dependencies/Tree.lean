import RequestEngine.Dependencies

/-!
Contract: the dependency tree below recorded requests.

Owns:
- the traversal that expands every request at most once;
- the marks of lines that are not expanded;
- the printed form of the tree.

A request already expanded elsewhere in the tree is elided, and a request that
is its own ancestor is marked as cyclic; requests without dependencies carry no
mark.

Does not own: recording.
-/

namespace RequestEngine

/-- Why a line stands without the dependencies of its request. -/
inductive TreeMark where
  | none | cyclic | elided
deriving DecidableEq, Repr

def TreeMark.text : TreeMark → String
  | .none => ""
  | .cyclic => " (cyclic dependency)"
  | .elided => " (elided)"

/-- A line of the tree. `ancestors` tells for every enclosing line, outermost
first, whether it is the last one of its group, and `isLast` the same of the
line itself. -/
structure TreeLine (Request : Type) where
  ancestors : List Bool
  isLast : Bool
  request : Request
  mark : TreeMark
deriving DecidableEq, Repr

namespace TreeLine

variable {Request : Type}

def indentation (isLast : Bool) : String := if isLast then "   " else "|  "

def branch (isLast : Bool) : String := if isLast then "`--" else "|--"

def text (display : Request → String) (line : TreeLine Request) : String :=
  String.join (line.ancestors.map indentation) ++ branch line.isLast ++
    display line.request ++ line.mark.text ++ "\n"

end TreeLine

namespace Recorder

variable {Request : Type} [DecidableEq Request]

/-- The lines of a group of requests one below the other, given the lines of a
single request. The requests visited so far are passed along. -/
def groupLines
    (lines : Bool → Request → List Request → List (TreeLine Request) × List Request) :
    List Request → List Request → List (TreeLine Request) × List Request
  | [], visited => ([], visited)
  | request :: rest, visited =>
      let (here, visitedHere) := lines rest.isEmpty request visited
      let (below, visitedBelow) := groupLines lines rest visitedHere
      (here ++ below, visitedBelow)

/-- The lines of a request and of what it depends on, together with the visited
requests. `path` holds the ancestors. The first argument bounds the number of
nested expansions. -/
def requestLines (recorder : Recorder Request) :
    Nat → List Request → List Bool → Bool → Request → List Request →
      List (TreeLine Request) × List Request
  | 0, _, ancestors, isLast, request, visited =>
      ([⟨ancestors, isLast, request, .elided⟩], visited)
  | depth + 1, path, ancestors, isLast, request, visited =>
      let children := recorder.dependenciesOf request
      if request ∈ path then ([⟨ancestors, isLast, request, .cyclic⟩], visited)
      else if children.isEmpty then
        ([⟨ancestors, isLast, request, .none⟩], appendNew visited request)
      else if request ∈ visited then ([⟨ancestors, isLast, request, .elided⟩], visited)
      else
        let (below, visitedBelow) :=
          groupLines
            (fun isLastChild child =>
              recorder.requestLines depth (path ++ [request]) (ancestors ++ [isLast])
                isLastChild child)
            children (appendNew visited request)
        (⟨ancestors, isLast, request, .none⟩ :: below, visitedBelow)

/-- Nested expansions are of different dependents, so their number bounds the
depth; one more level holds the lines that are not expanded. -/
def expansionDepth (recorder : Recorder Request) : Nat := recorder.edges.length + 1

def treeLines (recorder : Recorder Request) (request : Request) : List (TreeLine Request) :=
  (recorder.requestLines recorder.expansionDepth [] [] true request []).1

/-- The trees below all roots. What one tree expands, later ones elide. -/
def forestLines (recorder : Recorder Request) : List (TreeLine Request) :=
  (groupLines (fun _ root => recorder.requestLines recorder.expansionDepth [] [] true root)
    recorder.roots []).1

def printTree (display : Request → String) (recorder : Recorder Request) (request : Request) :
    String :=
  String.join ((recorder.treeLines request).map (·.text display))

def printForest (display : Request → String) (recorder : Recorder Request) : String :=
  String.join (recorder.forestLines.map (·.text display))

@[simp]
theorem forestLines_empty : forestLines ({} : Recorder Request) = [] := rfl

end Recorder

end RequestEngine
