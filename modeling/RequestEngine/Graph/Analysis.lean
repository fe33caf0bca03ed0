import RequestEngine.Graph
import RequestEngine.Program
import RequestEngine.Text.Quoted

/-!
Contract: analyses of a declaration graph, expressed as requests.

Owns:
- three kinds of requests, one per caching policy: looking a name up, the total
  weight of a declaration, and its dependency depth;
- the analysis of all declarations of a graph, one line each.

The total weight of a declaration is its own weight and the total weights of
what it depends on, up to the greatest word. Its dependency depth is the length
of its longest chain of dependencies, and is kept on the declaration itself.

Does not own: reading graphs, or printing the lines.
-/

namespace RequestEngine

/-- A question about a declared name. -/
inductive AnalysisRequest where
  | lookup (name : String)
  | totalWeight (name : String)
  | dependencyDepth (name : String)
deriving DecidableEq, Repr

abbrev AnalysisValue : AnalysisRequest → Type
  | .lookup _ => Declaration
  | .totalWeight _ => UInt64
  | .dependencyDepth _ => UInt32

def analysisZone : ZoneDefinition where
  declaration := 1
  id := 1
  name := "Analysis"
  entries := ["LookupDeclaration", "TotalWeight", "DependencyDepth"].map (⟨.type, ·⟩)

/-- The depth kept on a declaration. -/
structure DepthCell where
  name : String
  depth : UInt32
deriving DecidableEq, Repr

/-- The depths kept so far, in the order in which they were found. -/
abbrev DepthCells := List DepthCell

def DepthCells.depth? (cells : DepthCells) (name : String) : Option UInt32 :=
  (cells.find? (·.name = name)).map (·.depth)

def DepthCells.keep (cells : DepthCells) (name : String) (depth : UInt32) : DepthCells :=
  if (cells.depth? name).isSome then cells else cells ++ [⟨name, depth⟩]

/-- A name keeps its first depth, and all other names are as they were. -/
theorem DepthCells.depth?_keep (cells : DepthCells) (name other : String) (depth : UInt32) :
    (cells.keep name depth).depth? other =
      if other = name then some ((cells.depth? name).getD depth) else cells.depth? other := by
  unfold keep
  by_cases same : other = name
  · subst same
    cases kept : cells.depth? other with
    | some found => simp [kept]
    | none =>
        have absent := Option.map_eq_none_iff.mp kept
        simp [depth?, List.find?_append, absent]
  · rw [if_neg same]
    split
    · rfl
    · simp [depth?, List.find?_append, Ne.symm same]

def greatestWeight : Nat := 18446744073709551615

/-- The sum of two weights, at most the greatest one. -/
def saturatingSum (left right : UInt64) : UInt64 :=
  UInt64.ofNat (min (left.toNat + right.toNat) greatestWeight)

@[simp]
theorem toNat_saturatingSum (left right : UInt64) :
    (saturatingSum left right).toNat = min (left.toNat + right.toNat) greatestWeight := by
  simp only [saturatingSum, greatestWeight, UInt64.toNat_ofNat']
  omega

namespace AnalysisRequest

def name : AnalysisRequest → String
  | .lookup name | .totalWeight name | .dependencyDepth name => name

def kind : AnalysisRequest → RequestKind
  | .lookup _ => ⟨"LookupDeclaration", analysisZone, 0, .uncached⟩
  | .totalWeight _ => ⟨"TotalWeight", analysisZone, 1, .cached⟩
  | .dependencyDepth _ => ⟨"DependencyDepth", analysisZone, 2, .separatelyCached⟩

/-- The templates with which a question takes part in cycles. -/
def templates : AnalysisRequest → CycleTemplates
  | .lookup _ => {}
  | .totalWeight _ =>
      ⟨.error 'E' 1 "weight of \x7b1\x7d depends on itself",
        .note 'N' 1 "through the weight of \x7b1\x7d"⟩
  | .dependencyDepth _ =>
      ⟨.error 'E' 1 "depth of \x7b1\x7d depends on itself",
        .note 'N' 1 "through the depth of \x7b1\x7d"⟩

/-- Where a cycle through a question is reported: at the declaration, except for
plain lookups. -/
def cycleSpan (graph : Graph) : AnalysisRequest → Span
  | .lookup _ => .unknown
  | .totalWeight name | .dependencyDepth name =>
      ((graph.find? name).map Declaration.span).getD .unknown

end AnalysisRequest

namespace Analysis

abbrev AnalysisComputation := Computation AnalysisRequest AnalysisValue DepthCells

/-- Adds the total weights of further dependencies. -/
def sumWeights (total : UInt64) : List String → AnalysisComputation UInt64
  | [] => .done total
  | name :: rest =>
      (Computation.evaluate (AnalysisRequest.totalWeight name)).bind fun weight =>
        sumWeights (saturatingSum total weight) rest

/-- Raises a depth above the depths of further dependencies. A depth has to fit
into its word. -/
def raiseDepth (depth : UInt32) : List String → AnalysisComputation UInt32
  | [] => .done depth
  | name :: rest =>
      (Computation.evaluate (AnalysisRequest.dependencyDepth name)).bind fun below =>
        if below.toNat + 1 < 4294967296 then raiseDepth (max depth (below + 1)) rest
        else .abort "attempt to add with overflow"

def compute (graph : Graph) : (request : AnalysisRequest) →
    AnalysisComputation (AnalysisValue request)
  | .lookup name =>
      match graph.find? name with
      | some declaration => .done declaration
      | none => .fail (.ofMessage ("unknown declaration '" ++ name ++ "'"))
  | .totalWeight name =>
      (Computation.evaluate (AnalysisRequest.lookup name)).bind fun declaration =>
        sumWeights declaration.weight declaration.dependsOn
  | .dependencyDepth name =>
      (Computation.evaluate (AnalysisRequest.lookup name)).bind fun declaration =>
        raiseDepth 0 declaration.dependsOn

/-- The depth kept on the declaration that a question is about. -/
def stored (graph : Graph) (cells : DepthCells) : (request : AnalysisRequest) →
    Option (AnalysisValue request)
  | .lookup _ | .totalWeight _ => none
  | .dependencyDepth name => if (graph.find? name).isSome then cells.depth? name else none

/-- Keeps a depth on the declaration that a question is about. -/
def store (graph : Graph) (cells : DepthCells) : (request : AnalysisRequest) →
    AnalysisValue request → DepthCells
  | .lookup _, _ | .totalWeight _, _ => cells
  | .dependencyDepth name, depth =>
      if (graph.find? name).isSome then cells.keep name depth else cells

def program (graph : Graph) : Program AnalysisRequest AnalysisValue DepthCells where
  kind := AnalysisRequest.kind
  arguments request := [Text.quoted graph.path, Text.quoted request.name]
  cycleDiagnostics request :=
    request.templates.cycleDiagnostics (request.cycleSpan graph)
      [Text.quoted graph.path, Text.quoted request.name]
  stepDiagnostics request :=
    request.templates.stepDiagnostics (request.cycleSpan graph)
      [Text.quoted graph.path, Text.quoted request.name]
  stored := stored graph
  store := store graph
  compute := compute graph

/-- Weight and depth of a declaration, unless one of them has no value. -/
structure Line where
  name : String
  result : Option (UInt64 × UInt32)
deriving DecidableEq, Repr

def Line.text (line : Line) : String :=
  match line.result with
  | some (weight, depth) =>
      line.name ++ " weight=" ++ toString weight.toNat ++ " depth=" ++ toString depth.toNat
  | none => line.name ++ " error"

/-- The line of a declaration without a result. A cycle has been diagnosed where
it was found; any other failure is reported at the declaration. -/
def withoutResult (declaration : Declaration) : Failure → AnalysisComputation Line
  | .cycle _ => .done ⟨declaration.name, none⟩
  | .computation error =>
      .report
        (.ofTemplate declaration.span .requestFailed
          ["declaration '" ++ declaration.name ++ "'", error.full])
        (.done ⟨declaration.name, none⟩)

/-- The line of a declaration: its weight first, then its depth. -/
def describe (declaration : Declaration) : AnalysisComputation Line :=
  .ask (.totalWeight declaration.name) fun
    | .error failure => withoutResult declaration failure
    | .ok weight =>
        .ask (.dependencyDepth declaration.name) fun
          | .error failure => withoutResult declaration failure
          | .ok depth => .done ⟨declaration.name, some (weight, depth)⟩

/-- The lines of a list of declarations, in order. -/
def describeAll : List Declaration → AnalysisComputation (List Line)
  | [] => .done []
  | declaration :: rest =>
      (describe declaration).bind fun line =>
        (describeAll rest).bind fun lines => .done (line :: lines)

/-- One line per declaration of the graph, in file order. -/
def analyze (graph : Graph) : AnalysisComputation (List Line) := describeAll graph.declarations

/-- A bound on how deeply the evaluations of an analysis nest: one level for
every declared name, one for a name that is not declared, and one for looking
that name up. -/
def depthBound (graph : Graph) : Nat := graph.declarations.length + 2

end Analysis

end RequestEngine
