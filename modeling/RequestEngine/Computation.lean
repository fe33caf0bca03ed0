import RequestEngine.Diagnostic
import RequestEngine.Failure

/-!
Contract: computations of requests as finite trees of interactions.

Owns:
- the interactions that a computation has with its evaluator and with the state
  around it;
- sequencing;
- carrying a computation over to a larger set of requests and a larger state.

A computation asks for other requests and goes on with what it is answered. It
is finite by construction: whatever the answers are, it ends after finitely
many interactions of its own.

Some things that a computation could do in principle are left out. It cannot
catch an abrupt end of a request that it asked for, and it cannot look at the
counters, the size of the result cache or the recorded dependencies of its
evaluator. Outside of computations all of these can be looked at, and abrupt
ends can be caught.

Does not own: what answers a request; `Evaluation` does that.
-/

namespace RequestEngine

/-- A computation over requests with values, inside some state. -/
inductive Computation (Request : Type) (Value : Request → Type) (World : Type) (α : Type) : Type
    where
  /-- Ends with a value. -/
  | done (value : α)
  /-- Ends with a failure. -/
  | fail (failure : Failure)
  /-- Ends the whole evaluation at once; nothing on the way out can recover. -/
  | abort (message : String)
  /-- Asks for a request and goes on with its value or its failure. -/
  | ask (request : Request)
      (resume : Except Failure (Value request) → Computation Request Value World α)
  /-- Goes on with the display forms of the requests being computed, outermost first. -/
  | activeRequests (resume : List String → Computation Request Value World α)
  /-- Goes on with whether a request is being computed. -/
  | isActive (request : Request) (resume : Bool → Computation Request Value World α)
  /-- Goes on with whether the result cache holds a value of a request. -/
  | isCached (request : Request) (resume : Bool → Computation Request Value World α)
  /-- Reports a diagnostic. -/
  | report (diagnostic : Diagnostic) (next : Computation Request Value World α)
  /-- Goes on with the current state. -/
  | read (resume : World → Computation Request Value World α)
  /-- Changes the state. -/
  | update (change : World → World) (next : Computation Request Value World α)

namespace Computation

variable {Request : Type} {Value : Request → Type} {World : Type} {α β : Type}

/-- Continues with the value of a computation, if it has one. -/
def bind (next : α → Computation Request Value World β) :
    Computation Request Value World α → Computation Request Value World β
  | .done value => next value
  | .fail failure => .fail failure
  | .abort message => .abort message
  | .ask request resume => .ask request fun answer => (resume answer).bind next
  | .activeRequests resume => .activeRequests fun displays => (resume displays).bind next
  | .isActive request resume => .isActive request fun held => (resume held).bind next
  | .isCached request resume => .isCached request fun held => (resume held).bind next
  | .report diagnostic rest => .report diagnostic (rest.bind next)
  | .read resume => .read fun world => (resume world).bind next
  | .update change rest => .update change (rest.bind next)

instance : Monad (Computation Request Value World) where
  pure := .done
  bind computation next := computation.bind next

@[simp]
theorem pure_eq (value : α) : (pure value : Computation Request Value World α) = .done value := rfl

@[simp]
theorem bind_eq (computation : Computation Request Value World α)
    (next : α → Computation Request Value World β) :
    computation >>= next = computation.bind next := rfl

@[simp]
theorem bind_done (computation : Computation Request Value World α) :
    computation.bind .done = computation := by
  induction computation <;> simp only [bind, *]

/-- The value of a request; its failure is passed on. -/
def evaluate (request : Request) : Computation Request Value World (Value request) :=
  .ask request fun
    | .ok value => .done value
    | .error failure => .fail failure

def attempt (request : Request) :
    Computation Request Value World (Except Failure (Value request)) :=
  .ask request .done

/-- The value of a request, or a default in place of its failure. A cycle has
been diagnosed where it was found; any other failure is reported here. -/
def evaluateOrDefault (display : Request → String) (request : Request) (default : Value request) :
    Computation Request Value World (Value request) :=
  .ask request fun
    | .ok value => .done value
    | .error (.cycle _) => .done default
    | .error (.computation error) =>
        .report
          (.ofTemplate .unknown .requestFailed [display request, error.full])
          (.done default)

/-- Carries a computation over to a larger set of requests and a larger state.
`request` says what becomes of its requests, `value` turns the answers back, and
`get` and `set` reach its part of the state. -/
def embed {Request' : Type} {Value' : Request' → Type} {World' : Type}
    (request : Request → Request') (value : ∀ r, Value' (request r) → Value r)
    (get : World' → World) (set : World → World' → World') :
    Computation Request Value World α → Computation Request' Value' World' α
  | .done result => .done result
  | .fail failure => .fail failure
  | .abort message => .abort message
  | .ask asked resume =>
      .ask (request asked) fun answer =>
        (resume (answer.map (value asked))).embed request value get set
  | .activeRequests resume =>
      .activeRequests fun displays => (resume displays).embed request value get set
  | .isActive asked resume =>
      .isActive (request asked) fun held => (resume held).embed request value get set
  | .isCached asked resume =>
      .isCached (request asked) fun held => (resume held).embed request value get set
  | .report diagnostic next => .report diagnostic (next.embed request value get set)
  | .read resume => .read fun world => (resume (get world)).embed request value get set
  | .update change next =>
      .update (fun world => set (change (get world)) world) (next.embed request value get set)

end Computation

end RequestEngine
