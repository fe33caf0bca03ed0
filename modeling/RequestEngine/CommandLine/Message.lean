import RequestEngine.Diagnostic
import RequestEngine.Graph.Load
import RequestEngine.Log
import RequestEngine.Statistics

/-!
Contract: what the program tells its user besides its results.

Owns:
- the messages and their wording.

Does not own: when a message is sent.
-/

namespace RequestEngine.CommandLine

/-- A message to the user. -/
inductive Message where
  /-- A log event. -/
  | log (event : LogEvent)
  /-- A diagnostic, highlighted or not. -/
  | report (highlighted : Bool) (diagnostic : Diagnostic)
  /-- A file that could not be loaded. -/
  | unloadable (path : String) (error : Graph.LoadError)
  /-- The statistics at the end. -/
  | totals (statistics : Statistics)
  /-- What ends the program early, with the cause behind it. -/
  | fatal (message : String) (cause : Option String)
  /-- The arguments were refused. -/
  | refused

namespace Message

/-- A diagnostic for a terminal. Its heading is printed in bold if asked for. -/
def diagnosticText (highlighted : Bool) (diagnostic : Diagnostic) : String :=
  if highlighted then
    "\x1b[1m" ++ diagnostic.heading ++ "\x1b[0m at " ++ diagnostic.span.display ++ ": " ++
      diagnostic.message
  else diagnostic.display

/-- The cause of an error, in a paragraph of its own. -/
def causeText : Option String → String
  | some cause => "\nCaused by:\n    " ++ cause ++ "\n"
  | none => ""

def text : Message → String
  | .log event => event.line ++ "\n"
  | .report highlighted diagnostic => diagnosticText highlighted diagnostic ++ "\n"
  | .unloadable path error => "Error analyzing " ++ path ++ ": " ++ error.chain.full ++ "\n"
  | .totals statistics => statistics.summary
  | .fatal message cause => "Error: " ++ message ++ "\n" ++ causeText cause
  | .refused => "error: invalid arguments\n\nFor more information, try '--help'.\n"

end Message

end RequestEngine.CommandLine
