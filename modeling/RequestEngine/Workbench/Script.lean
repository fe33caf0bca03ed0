import RequestEngine.Workbench.Request

/-!
Contract: scripts, the computations of scripted requests.

Owns:
- the instructions of scripts;
- the state that scripts share, namely counters of their runs, the values kept
  for slots, and what they traced;
- running a script as a computation.

A script runs its instructions in order and sums up numbers in one word, which
wraps around. A nested value that is not a whole number counts as zero.

Does not own: how scripts are written down.
-/

namespace RequestEngine

/-- One instruction of a script. -/
inductive Instruction where
  /-- Adds a number. -/
  | add (number : Int64)
  /-- Adds the parameter of the scripted request. -/
  | addParameter
  /-- Adds the value of a request. -/
  | call (request : WorkbenchRequest)
  /-- Adds the value of a request, or a number in place of a failure. -/
  | attempt (request : WorkbenchRequest) (otherwise : Int64)
  /-- Adds the value of a request, or a default in place of a failure. -/
  | orDefault (request : WorkbenchRequest) (default : WorkbenchValue request)
  /-- Adds the value of a request; a failure gets a new outermost message. -/
  | withContext (request : WorkbenchRequest) (message : String)
  /-- Fails. -/
  | failWith (error : ErrorChain)
  /-- Fails during the first so many runs for the same request. -/
  | failAtFirst (runs : Nat) (error : ErrorChain)
  /-- Traces the requests being computed. -/
  | traceActive
  /-- Traces whether a request is being computed. -/
  | traceIsActive (request : WorkbenchRequest)
  /-- Traces whether a request has a cached value. -/
  | traceIsCached (request : WorkbenchRequest)
  /-- Reports a diagnostic without a code or a location. -/
  | diagnose (level : Severity) (message : String)
  /-- Adds the value of the same pair with a smaller parameter, while the
  parameter is positive. -/
  | descend (step : Int64)
  /-- Adds the value of the same pair with the parameter moved on in a circle. -/
  | rotate (step modulus : Int64)

/-- A traced fact. -/
inductive TraceEntry where
  | active (displays : List String)
  | flag (held : Bool)
deriving DecidableEq, Repr

/-- How often the script of a request has run. -/
structure ScriptRuns where
  request : WorkbenchRequest
  count : Nat
deriving DecidableEq, Repr

/-- The value kept for a slot. -/
structure SlotCell where
  name : String
  value : Int64
deriving DecidableEq, Repr

/-- The state that the requests of the workbench share. -/
structure WorkbenchState where
  fixtures : FixtureState := {}
  depths : DepthCells := []
  slots : List SlotCell := []
  runs : List ScriptRuns := []
  trace : List TraceEntry := []
deriving DecidableEq, Repr

namespace WorkbenchState

def slot? (state : WorkbenchState) (name : String) : Option Int64 :=
  (state.slots.find? (·.name = name)).map (·.value)

/-- Keeps a value for a slot in place of an earlier one. -/
def setSlot (state : WorkbenchState) (name : String) (value : Int64) : WorkbenchState :=
  { state with slots := ⟨name, value⟩ :: state.slots.filter (·.name ≠ name) }

def runCount (state : WorkbenchState) (request : WorkbenchRequest) : Nat :=
  ((state.runs.find? (·.request = request)).map (·.count)).getD 0

def countRun (state : WorkbenchState) (request : WorkbenchRequest) : WorkbenchState :=
  { state with
    runs := ⟨request, state.runCount request + 1⟩ ::
      state.runs.filter (·.request ≠ request) }

def traced (state : WorkbenchState) (entry : TraceEntry) : WorkbenchState :=
  { state with trace := state.trace ++ [entry] }

end WorkbenchState

abbrev WorkbenchComputation := Computation WorkbenchRequest WorkbenchValue WorkbenchState

namespace Script

/-- The whole number that a value stands for, if it stands for one. -/
def number : (request : WorkbenchRequest) → WorkbenchValue request → Int64
  | .task _, value | .probe _, value | .slot _, value | .pair .., value
  | .squatter _, value => value
  | .label _, _ | .intruder _, _ => 0
  | .analysis (.lookup _), _ => 0
  | .analysis (.totalWeight _), value => Int64.ofNat value.toNat
  | .analysis (.dependencyDepth _), value => Int64.ofNat value.toNat
  | .fixture (.square _), _ | .fixture (.squareUncached _), _ | .fixture (.selfCycle _), _ => 0
  | .fixture (.fibonacci _), value => Int64.ofNat value.toNat
  | .fixture (.cycleA _), value | .fixture (.cycleB _), value | .fixture .failing, value
  | .fixture (.flaky _), value | .fixture (.nodeDepth _), value => Int64.ofNat value.toNat

/-- What the script of a request knows about it. -/
structure Frame where
  display : WorkbenchRequest → String
  request : WorkbenchRequest
  name : String
  parameter : Int64

def callNumber (request : WorkbenchRequest) : WorkbenchComputation Int64 :=
  (Computation.evaluate request).bind fun value => .done (number request value)

/-- Runs one instruction; the result is added to the sum. -/
def step (frame : Frame) : Instruction → WorkbenchComputation Int64
  | .add value => .done value
  | .addParameter => .done frame.parameter
  | .call request => callNumber request
  | .attempt request otherwise =>
      .ask request fun
        | .ok value => .done (number request value)
        | .error _ => .done otherwise
  | .orDefault request default =>
      (Computation.evaluateOrDefault frame.display request default).bind fun value =>
        .done (number request value)
  | .withContext request message =>
      .ask request fun
        | .ok value => .done (number request value)
        | .error failure => .fail (.computation (failure.context message))
  | .failWith error => .fail (.computation error)
  | .failAtFirst runs error =>
      .read fun state =>
        if state.runCount frame.request ≤ runs then .fail (.computation error) else .done 0
  | .traceActive =>
      .activeRequests fun displays => .update (·.traced (.active displays)) (.done 0)
  | .traceIsActive request =>
      .isActive request fun held => .update (·.traced (.flag held)) (.done 0)
  | .traceIsCached request =>
      .isCached request fun held => .update (·.traced (.flag held)) (.done 0)
  | .diagnose level message => .report (.plain level .unknown message) (.done 0)
  | .descend stepSize =>
      if 0 < frame.parameter then callNumber (.pair frame.name (frame.parameter - stepSize))
      else .done 0
  | .rotate stepSize modulus =>
      if modulus = 0 then
        .abort "attempt to calculate the remainder with a divisor of zero"
      else
        callNumber
          (.pair frame.name
            (Int64.ofInt ((frame.parameter + stepSize).toInt % modulus.toInt)))

/-- Runs instructions one after the other and sums up their results. -/
def steps (frame : Frame) (sum : Int64) : List Instruction → WorkbenchComputation Int64
  | [] => .done sum
  | instruction :: rest =>
      (step frame instruction).bind fun value => steps frame (sum + value) rest

/-- The script of a request: the run is counted, and then its instructions are
run. Without a script the request fails. -/
def compute (scripts : String → Option (List Instruction)) (frame : Frame) :
    WorkbenchComputation Int64 :=
  .update (·.countRun frame.request)
    (match scripts frame.name with
    | some instructions => steps frame 0 instructions
    | none => .fail (.ofMessage ("no script '" ++ frame.name ++ "'")))

end Script

end RequestEngine
