import RequestEngine.CommandLine.Run

/-!
Contract: the program on a real machine.

Owns:
- performing the steps of a process with the files and streams of the machine.

Does not own: which steps the program takes.
-/

namespace RequestEngine.CommandLine

/-- What is wrong with a file that the machine does not give access to. -/
def fileErrorOf : IO.Error → FileError
  | .permissionDenied .. => .permissionDenied
  | .inappropriateType _ 20 _ => .notDirectory
  | .inappropriateType .. => .isDirectory
  | .invalidArgument .. => .nameTooLong
  | _ => .notFound

def perform {α : Type} : Process α → IO α
  | .done value => return value
  | .read path resume => do
      match ← (IO.FS.readBinFile path).toBaseIO with
      | .error error => perform (resume (.error (fileErrorOf error)))
      | .ok bytes =>
          match String.fromUTF8? bytes with
          | some text => perform (resume (.ok text))
          | none => perform (resume (.error .notText))
  | .probe path resume => do
      match ← (IO.FS.readBinFile path).toBaseIO with
      | .error error => perform (resume (fileErrorOf error = .isDirectory))
      | .ok _ => perform (resume true)
  | .write path content resume => do
      match ← (IO.FS.writeFile path content).toBaseIO with
      | .error error => perform (resume (.error (fileErrorOf error)))
      | .ok () => perform (resume (.ok ()))
  | .print text next => do
      IO.print text
      perform next
  | .tell message next => do
      IO.eprint message.text
      perform next

end RequestEngine.CommandLine

/-- Runs the program with the arguments of the machine. The log is filtered as the
environment asks for. -/
def main (arguments : List String) : IO UInt32 := do
  let filter := RequestEngine.LogFilter.ofSetting (← IO.getEnv "RUST_LOG")
  let status ← RequestEngine.CommandLine.perform (RequestEngine.CommandLine.run filter arguments)
  return UInt32.ofNat status.code
