/-!
Contract: log events.

Owns:
- levels, events and their display form.

Does not own: which events are shown; `Log.Filter` decides that.
-/

namespace RequestEngine

/-- How important an event is, most important first. -/
inductive LogLevel where
  | error | warn | info | debug | trace
deriving DecidableEq, Repr

namespace LogLevel

def name : LogLevel → String
  | .error => "ERROR"
  | .warn => "WARN"
  | .info => "INFO"
  | .debug => "DEBUG"
  | .trace => "TRACE"

/-- How verbose a level is: the most important level has the least rank. -/
def rank : LogLevel → Nat
  | .error => 1
  | .warn => 2
  | .info => 3
  | .debug => 4
  | .trace => 5

end LogLevel

/-- A field of an event. -/
structure LogField where
  name : String
  value : String
deriving DecidableEq, Repr

/-- An event. The target names the part of the program that it comes from. -/
structure LogEvent where
  level : LogLevel
  target : String
  message : String
  fields : List LogField
deriving DecidableEq, Repr

namespace LogEvent

def body (event : LogEvent) : String :=
  event.message ++
    String.join (event.fields.map fun field => " " ++ field.name ++ "=" ++ field.value)

def display (event : LogEvent) : String :=
  event.level.name ++ " " ++ event.body

/-- The event with its target, as a line of a log. -/
def line (event : LogEvent) : String :=
  event.level.name ++ " " ++ event.target ++ ": " ++ event.body

end LogEvent

end RequestEngine
