import RequestEngine.Decimal.Shortest
import RequestEngine.Program
import RequestEngine.Text.Quoted

/-!
Contract: sample requests that exercise an evaluator.

Owns:
- requests that are computed at once, that recurse, that form cycles and that
  fail;
- counters of their computations;
- trees of nodes that keep their own depths.

Does not own: any real analysis.
-/

namespace RequestEngine

/-- A sample request. Floating-point inputs are words, so equality is equality
of words. A node is named by its index in a forest. -/
inductive FixtureRequest where
  | square (word : UInt64)
  | squareUncached (word : UInt64)
  | fibonacci (index : UInt32)
  | cycleA (number : UInt32)
  | cycleB (number : UInt32)
  | selfCycle (name : String)
  | failing
  | flaky (number : UInt32)
  | nodeDepth (node : Nat)
deriving DecidableEq, Repr

/-- The types of the values; squares are words of floating-point numbers. -/
abbrev FixtureValue : FixtureRequest → Type
  | .square _ | .squareUncached _ | .fibonacci _ => UInt64
  | .cycleA _ | .cycleB _ | .failing | .flaky _ | .nodeDepth _ => UInt32
  | .selfCycle _ => String

def fixturesZone : ZoneDefinition where
  declaration := 2
  id := 200
  name := "Fixtures"
  entries :=
    ["Square", "SquareUncached", "Fibonacci", "CycleA", "CycleB", "SelfCycle", "Failing",
      "Flaky", "NodeDepth"].map (⟨.type, ·⟩)

/-- The kinds whose computations are counted. -/
inductive FixtureCounter where
  | square
  | squareUncached
  | fibonacci
  | failing
  | flaky
  | nodeDepth
deriving DecidableEq, Repr

/-- How often the counted kinds were computed. -/
structure FixtureCounters where
  square : UInt32 := 0
  squareUncached : UInt32 := 0
  fibonacci : UInt32 := 0
  failing : UInt32 := 0
  flaky : UInt32 := 0
  nodeDepth : UInt32 := 0
deriving DecidableEq, Repr

namespace FixtureCounters

def calls (counters : FixtureCounters) : FixtureCounter → UInt32
  | .square => counters.square
  | .squareUncached => counters.squareUncached
  | .fibonacci => counters.fibonacci
  | .failing => counters.failing
  | .flaky => counters.flaky
  | .nodeDepth => counters.nodeDepth

def setCalls (counters : FixtureCounters) (calls : UInt32) : FixtureCounter → FixtureCounters
  | .square => { counters with square := calls }
  | .squareUncached => { counters with squareUncached := calls }
  | .fibonacci => { counters with fibonacci := calls }
  | .failing => { counters with failing := calls }
  | .flaky => { counters with flaky := calls }
  | .nodeDepth => { counters with nodeDepth := calls }

@[simp]
theorem calls_setCalls (counters : FixtureCounters) (calls : UInt32) (counter : FixtureCounter) :
    (counters.setCalls calls counter).calls counter = calls := by
  cases counter <;> rfl

def toList (counters : FixtureCounters) : List Nat :=
  [FixtureCounter.square, .squareUncached, .fibonacci, .failing, .flaky, .nodeDepth].map
    fun counter => (counters.calls counter).toNat

end FixtureCounters

/-- A node of a forest with the indices of its children. -/
structure TreeNode where
  name : String
  children : List Nat
deriving DecidableEq, Repr

/-- The depth kept on a node. -/
structure NodeDepthCell where
  node : Nat
  depth : UInt32
deriving DecidableEq, Repr

/-- The state of the sample requests. -/
structure FixtureState where
  counters : FixtureCounters := {}
  depths : List NodeDepthCell := []
deriving DecidableEq, Repr

namespace FixtureState

def depth? (state : FixtureState) (node : Nat) : Option UInt32 :=
  (state.depths.find? (·.node = node)).map (·.depth)

/-- Keeps a depth on a node, unless one is kept already. -/
def keepDepth (state : FixtureState) (node : Nat) (depth : UInt32) : FixtureState :=
  if (state.depth? node).isSome then state
  else { state with depths := state.depths ++ [⟨node, depth⟩] }

def calls (state : FixtureState) (counter : FixtureCounter) : UInt32 :=
  state.counters.calls counter

/-- Counts one more computation. -/
def count (counter : FixtureCounter) (state : FixtureState) : FixtureState :=
  { state with counters := state.counters.setCalls (state.calls counter + 1) counter }

end FixtureState

namespace FixtureRequest

def kind : FixtureRequest → RequestKind
  | .square _ => ⟨"Square", fixturesZone, 0, .cached⟩
  | .squareUncached _ => ⟨"SquareUncached", fixturesZone, 1, .uncached⟩
  | .fibonacci _ => ⟨"Fibonacci", fixturesZone, 2, .cached⟩
  | .cycleA _ => ⟨"CycleA", fixturesZone, 3, .cached⟩
  | .cycleB _ => ⟨"CycleB", fixturesZone, 4, .cached⟩
  | .selfCycle _ => ⟨"SelfCycle", fixturesZone, 5, .uncached⟩
  | .failing => ⟨"Failing", fixturesZone, 6, .cached⟩
  | .flaky _ => ⟨"Flaky", fixturesZone, 7, .cached⟩
  | .nodeDepth _ => ⟨"NodeDepth", fixturesZone, 8, .separatelyCached⟩

def arguments (forest : List TreeNode) : FixtureRequest → List String
  | .square word | .squareUncached word =>
      [(Decimal.BinaryLayout.double.decode word.toNat).text]
  | .fibonacci number | .cycleA number | .cycleB number | .flaky number =>
      [toString number.toNat]
  | .selfCycle name => [Text.quoted name]
  | .failing => []
  | .nodeDepth node => [Text.quoted ((forest[node]?.map (·.name)).getD "")]

/-- The diagnostics of the request that a cycle leads back to. -/
def cycleDiagnostics (forest : List TreeNode) : FixtureRequest → List Diagnostic
  | .cycleA number =>
      [.ofTemplate ⟨0, 0, number, 1⟩ (.error 'E' 1 "cycle through A(\x7b0\x7d)")
        (arguments forest (.cycleA number))]
  | .selfCycle name => [.plain .error .unknown ("'" ++ name ++ "' refers to itself")]
  | other => CycleTemplates.cycleDiagnostics {} .unknown (arguments forest other)

def stepDiagnostics (forest : List TreeNode) : FixtureRequest → List Diagnostic
  | .cycleA number =>
      [.ofTemplate ⟨0, 0, number, 1⟩ (.note 'N' 1 "A(\x7b0\x7d) is part of the cycle")
        (arguments forest (.cycleA number))]
  | .selfCycle _ => [.plain .note .unknown "self reference here"]
  | other => CycleTemplates.stepDiagnostics {} .unknown (arguments forest other)

end FixtureRequest

namespace Fixtures

abbrev FixtureComputation := Computation FixtureRequest FixtureValue FixtureState

/-- Counts a computation, which goes on with the new count. A counter that is full
stays as it is and ends everything. -/
def counting {α : Type} (counter : FixtureCounter) (next : UInt32 → FixtureComputation α) :
    FixtureComputation α :=
  .read fun state =>
    if (state.calls counter).toNat + 1 < 4294967296 then
      .update (FixtureState.count counter) (next (state.calls counter + 1))
    else .abort "attempt to add with overflow"

/-- The square of the floating-point number of a word, as a word. -/
def squareWord (word : UInt64) : UInt64 :=
  (Float.ofBits word * Float.ofBits word).toBits

/-- The sum of two Fibonacci numbers, which has to fit into a word. -/
def addNumbers (left right : UInt64) : FixtureComputation UInt64 :=
  if left.toNat + right.toNat < 18446744073709551616 then .done (left + right)
  else .abort "attempt to add with overflow"

def fibonacci (index : UInt32) : FixtureComputation UInt64 :=
  if index.toNat < 2 then .done (UInt64.ofNat index.toNat)
  else
    (Computation.evaluate (FixtureRequest.fibonacci (index - 1))).bind fun previous =>
      (Computation.evaluate (FixtureRequest.fibonacci (index - 2))).bind fun beforeThat =>
        addNumbers previous beforeThat

/-- Raises a depth above the depths of further children. -/
def raiseAbove (depth : UInt32) : List Nat → FixtureComputation UInt32
  | [] => .done depth
  | child :: rest =>
      (Computation.evaluate (FixtureRequest.nodeDepth child)).bind fun below =>
        if below.toNat + 1 < 4294967296 then raiseAbove (max depth (below + 1)) rest
        else .abort "attempt to add with overflow"

def compute (forest : List TreeNode) : (request : FixtureRequest) →
    FixtureComputation (FixtureValue request)
  | .square word => counting .square fun _ => .done (squareWord word)
  | .squareUncached word => counting .squareUncached fun _ => .done (squareWord word)
  | .fibonacci index => counting .fibonacci fun _ => fibonacci index
  | .cycleA number => Computation.evaluate (FixtureRequest.cycleB number)
  | .cycleB number => Computation.evaluate (FixtureRequest.cycleA number)
  | .selfCycle name => Computation.evaluate (FixtureRequest.selfCycle name)
  | .failing => counting .failing fun _ => .fail (.ofMessage "failing fixture")
  | .flaky number =>
      counting .flaky fun calls =>
        if calls = 1 then .fail (.ofMessage "first attempt fails") else .done number
  | .nodeDepth node =>
      counting .nodeDepth fun _ => raiseAbove 0 ((forest[node]?.map (·.children)).getD [])

/-- The depth kept on the node that a request is about. -/
def stored (state : FixtureState) : (request : FixtureRequest) → Option (FixtureValue request)
  | .nodeDepth node => state.depth? node
  | .square _ | .squareUncached _ | .fibonacci _ | .cycleA _ | .cycleB _ | .selfCycle _
  | .failing | .flaky _ => none

/-- Keeps a depth on the node that a request is about. -/
def store (state : FixtureState) : (request : FixtureRequest) → FixtureValue request →
    FixtureState
  | .nodeDepth node, depth => state.keepDepth node depth
  | .square _, _ | .squareUncached _, _ | .fibonacci _, _ | .cycleA _, _ | .cycleB _, _
  | .selfCycle _, _ | .failing, _ | .flaky _, _ => state

/-- The sample requests as a program over a forest. -/
def program (forest : List TreeNode) :
    Program FixtureRequest FixtureValue FixtureState where
  kind := FixtureRequest.kind
  arguments := FixtureRequest.arguments forest
  cycleDiagnostics := FixtureRequest.cycleDiagnostics forest
  stepDiagnostics := FixtureRequest.stepDiagnostics forest
  stored := stored
  store := store
  compute := compute forest

end Fixtures

end RequestEngine
