import RequestEngine.Text.Quoted

/-!
Contract: the ways an evaluation can fail.

Owns:
- cycle errors, with the requests that make up the cycle;
- computation errors as a message with the chain of its causes;
- the display forms of both.

Does not own: when a failure arises, or diagnostics about it.
-/

namespace RequestEngine

/-- A request was asked for again while it was still being computed. `chain`
holds the display forms of the requests of the cycle in the order in which they
asked for each other; it starts and ends with the rejected request. -/
structure CycleError where
  request : String
  chain : List String
deriving DecidableEq, Repr

namespace CycleError

def message (error : CycleError) : String :=
  "circular dependency detected: " ++ " -> ".intercalate error.chain

def describe (error : CycleError) : String :=
  "CycleError \x7b request: " ++ Text.quoted error.request ++ ", chain: [" ++
    ", ".intercalate (error.chain.map Text.quoted) ++ "] \x7d"

end CycleError

/-- An error message with the messages of its causes, outermost first. -/
structure ErrorChain where
  message : String
  causes : List String
deriving DecidableEq, Repr

namespace ErrorChain

def ofMessage (message : String) : ErrorChain := ⟨message, []⟩

def messages (error : ErrorChain) : List String := error.message :: error.causes

def context (error : ErrorChain) (message : String) : ErrorChain :=
  ⟨message, error.messages⟩

def full (error : ErrorChain) : String := ": ".intercalate error.messages

@[simp]
theorem messages_ofMessage (message : String) : (ofMessage message).messages = [message] := rfl

@[simp]
theorem messages_context (error : ErrorChain) (message : String) :
    (error.context message).messages = message :: error.messages := rfl

end ErrorChain

/-- Why a request has no value. -/
inductive Failure where
  | cycle (error : CycleError)
  | computation (error : ErrorChain)
deriving DecidableEq, Repr

namespace Failure

def ofMessage (message : String) : Failure := .computation (.ofMessage message)

def message : Failure → String
  | .cycle error => error.message
  | .computation error => error.message

def isCycle : Failure → Bool
  | .cycle _ => true
  | .computation _ => false

/-- The failure as the cause of a new message. A cycle becomes a computation
error, so whoever receives it no longer sees a cycle. -/
def context (failure : Failure) (message : String) : ErrorChain :=
  match failure with
  | .cycle error => ⟨message, [error.message]⟩
  | .computation error => error.context message

end Failure

end RequestEngine
