/-!
Contract: the arguments of the program.

Owns:
- the switches and settings that the program knows, with their spellings;
- reading a list of arguments.

Arguments are read from left to right. The first one that cannot be understood
refuses the whole list, and the first one that asks for help or for the version
settles it. After two dashes on their own every argument is a file.

Does not own: what the program does.
-/

namespace RequestEngine.CommandLine

/-- What the program was asked to do. -/
structure Arguments where
  /-- The graph files, in order. -/
  files : List String := []
  /-- The configuration file. -/
  configuration : Option String := none
  /-- Whether to record and print dependencies. -/
  recordDependencies : Bool := false
  /-- The file to write the dependencies to. -/
  graphviz : Option String := none
  /-- Whether to print statistics. -/
  statistics : Bool := false
  /-- Whether to log every cycle as a warning. -/
  debugCycles : Bool := false
  /-- Whether to print diagnostics without highlighting. -/
  plain : Bool := false
  /-- Whether to set up a new project. -/
  setUp : Bool := false
deriving DecidableEq, Repr

/-- What a list of arguments asks for. -/
inductive Command where
  | help
  | version
  | run (arguments : Arguments)
deriving DecidableEq, Repr

/-- A switch can be turned on once. -/
inductive Switch where
  | recordDependencies | statistics | debugCycles | plain | setUp
deriving DecidableEq, Repr

/-- A setting can be given once, with a value. -/
inductive Setting where
  | configuration | graphviz
deriving DecidableEq, Repr

/-- An option. -/
inductive CommandOption where
  | help
  | version
  | switch (switch : Switch)
  | setting (setting : Setting)
deriving DecidableEq, Repr

def CommandOption.ofName? : String → Option CommandOption
  | "help" => some .help
  | "version" => some .version
  | "record-dependencies" => some (.switch .recordDependencies)
  | "stats" => some (.switch .statistics)
  | "debug-cycles" => some (.switch .debugCycles)
  | "no-pretty" => some (.switch .plain)
  | "init" => some (.switch .setUp)
  | "config" => some (.setting .configuration)
  | "graphviz" => some (.setting .graphviz)
  | _ => none

def CommandOption.ofLetter? : Char → Option CommandOption
  | 'h' => some .help
  | 'V' => some .version
  | 'c' => some (.setting .configuration)
  | _ => none

/-- An argument on its own. -/
inductive Argument where
  /-- Two dashes. -/
  | separator
  /-- An option, with the value attached to it. -/
  | option (known : CommandOption) (value : Option String)
  /-- Something that is no option. -/
  | text (text : String)
  /-- An option that the program does not know. -/
  | unknown
deriving DecidableEq, Repr

namespace Argument

/-- The value attached to a long name by an equals sign. -/
def valueAfterName? : List Char → Option String
  | '=' :: value => some (String.ofList value)
  | _ => none

/-- The value attached to a letter, with or without an equals sign. -/
def valueAfterLetter? : List Char → Option String
  | [] => none
  | '=' :: value => some (String.ofList value)
  | value => some (String.ofList value)

/-- Tells what an argument is. A single dash is no option, and what follows the
letter of an option without a value is not looked at. -/
def ofText (text : String) : Argument :=
  match text.toList with
  | ['-', '-'] => .separator
  | '-' :: '-' :: rest =>
      let name := rest.takeWhile (· ≠ '=')
      match CommandOption.ofName? (String.ofList name) with
      | some known => .option known (valueAfterName? (rest.drop name.length))
      | none => .unknown
  | '-' :: letter :: rest =>
      match CommandOption.ofLetter? letter with
      | some (.setting setting) => .option (.setting setting) (valueAfterLetter? rest)
      | some known => .option known none
      | none => .unknown
  | _ => .text text

end Argument

namespace Arguments

def turnOn? (arguments : Arguments) : Switch → Option Arguments
  | .recordDependencies =>
      if arguments.recordDependencies then none
      else some { arguments with recordDependencies := true }
  | .statistics => if arguments.statistics then none else some { arguments with statistics := true }
  | .debugCycles =>
      if arguments.debugCycles then none else some { arguments with debugCycles := true }
  | .plain => if arguments.plain then none else some { arguments with plain := true }
  | .setUp => if arguments.setUp then none else some { arguments with setUp := true }

/-- Gives a value to a setting, unless it has one. A value is not empty. -/
def assign? (arguments : Arguments) (setting : Setting) (value : String) : Option Arguments :=
  if value = "" then none
  else
    match setting with
    | .configuration =>
        if arguments.configuration.isSome then none
        else some { arguments with configuration := some value }
    | .graphviz =>
        if arguments.graphviz.isSome then none else some { arguments with graphviz := some value }

def addFile? (arguments : Arguments) (file : String) : Option Arguments :=
  if file = "" then none else some { arguments with files := arguments.files ++ [file] }

def addFiles? : Arguments → List String → Option Arguments
  | arguments, [] => some arguments
  | arguments, file :: rest => do addFiles? (← arguments.addFile? file) rest

/-- Reads further arguments. A setting without an attached value takes the next
argument, which must not look like an option. -/
def readFrom? (arguments : Arguments) : List String → Option Command
  | [] => some (.run arguments)
  | text :: rest =>
      match Argument.ofText text with
      | .unknown => none
      | .separator => (arguments.addFiles? rest).map .run
      | .text file => do readFrom? (← arguments.addFile? file) rest
      | .option .help none => some .help
      | .option .version none => some .version
      | .option (.switch switch) none => do readFrom? (← arguments.turnOn? switch) rest
      | .option (.setting setting) (some value) => do
          readFrom? (← arguments.assign? setting value) rest
      | .option (.setting setting) none =>
          match rest with
          | [] => none
          | value :: further =>
              match Argument.ofText value with
              | .text value => do readFrom? (← arguments.assign? setting value) further
              | _ => none
      | .option _ (some _) => none

def read? (arguments : List String) : Option Command := readFrom? {} arguments

end Arguments

end RequestEngine.CommandLine
