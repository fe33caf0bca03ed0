import RequestEngine.CommandLine.Message
import RequestEngine.Files

/-!
Contract: what a program does in its surroundings, step by step.

Owns:
- processes: trees of steps that read and write files and send text;
- running a process in a directory that is given as a value.

A process is plain data, so the same process can be run on a real machine and
reasoned about here.

Does not own: what any program does.
-/

namespace RequestEngine.CommandLine

/-- A process that ends with a value. -/
inductive Process (α : Type) where
  /-- Ends. -/
  | done (value : α)
  /-- Reads a file as text. -/
  | read (path : String) (resume : Except FileError String → Process α)
  /-- Tells whether a path leads to something. -/
  | probe (path : String) (resume : Bool → Process α)
  /-- Writes a file. -/
  | write (path content : String) (resume : Except FileError Unit → Process α)
  /-- Prints a result. -/
  | print (text : String) (next : Process α)
  /-- Sends a message to the user. -/
  | tell (message : Message) (next : Process α)

namespace Process

def bind {α β : Type} : Process α → (α → Process β) → Process β
  | .done value, continuation => continuation value
  | .read path resume, continuation => .read path fun content => (resume content).bind continuation
  | .probe path resume, continuation => .probe path fun found => (resume found).bind continuation
  | .write path content resume, continuation =>
      .write path content fun result => (resume result).bind continuation
  | .print text next, continuation => .print text (next.bind continuation)
  | .tell message next, continuation => .tell message (next.bind continuation)

instance : Monad Process where
  pure := .done
  bind := Process.bind

def printLine (line : String) : Process Unit := .print (line ++ "\n") (.done ())

def sendMessage (message : Message) : Process Unit := .tell message (.done ())

def readFile (path : String) : Process (Except FileError String) := .read path .done

/-- A step that tells whether a path leads to something. -/
def exists? (path : String) : Process Bool := .probe path .done

def writeFile (path content : String) : Process (Except FileError Unit) :=
  .write path content .done

end Process

/-- The surroundings of a process: its directory, and what it has sent so far. -/
structure Console where
  files : Files := []
  printed : String := ""
  messages : List Message := []

namespace Process

def runIn {α : Type} : Process α → Console → α × Console
  | .done value, console => (value, console)
  | .read path resume, console => (resume (console.files.read path)).runIn console
  | .probe path resume, console => (resume (console.files.contains path)).runIn console
  | .write path content resume, console =>
      match console.files.write path content with
      | .ok files => (resume (.ok ())).runIn { console with files := files }
      | .error error => (resume (.error error)).runIn console
  | .print text next, console => next.runIn { console with printed := console.printed ++ text }
  | .tell message next, console =>
      next.runIn { console with messages := console.messages ++ [message] }

/-- What follows a process starts in the surroundings that the process leaves. -/
theorem runIn_bind {α β : Type} (first : Process α) (second : α → Process β)
    (console : Console) :
    (first.bind second).runIn console =
      (second (first.runIn console).1).runIn (first.runIn console).2 := by
  induction first generalizing console with
  | done value => rfl
  | read path resume inductionHypothesis => exact inductionHypothesis _ console
  | probe path resume inductionHypothesis => exact inductionHypothesis _ console
  | write path content resume inductionHypothesis =>
      simp only [bind, runIn]
      split
      · exact inductionHypothesis _ _
      · exact inductionHypothesis _ _
  | print text next inductionHypothesis => exact inductionHypothesis _
  | tell message next inductionHypothesis => exact inductionHypothesis _

end Process

end RequestEngine.CommandLine
