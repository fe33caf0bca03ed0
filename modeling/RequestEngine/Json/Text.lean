import RequestEngine.Span
import RequestEngine.Options

/-!
Contract: JSON texts of the records that the program writes.

Owns:
- the compact text of a record with numbers or truth values;
- the same on several lines, indented by two spaces.

Does not own: reading.
-/

namespace RequestEngine.Json

/-- A value that can be written. -/
inductive Written where
  | number (value : Nat)
  | boolean (value : Bool)
  | record (members : List (String × Written))

mutual

def Written.compact : Written → String
  | .number value => toString value
  | .boolean value => if value then "true" else "false"
  | .record members => "\x7b" ++ compactMembers members ++ "\x7d"

def compactMembers : List (String × Written) → String
  | [] => ""
  | [(name, value)] => "\"" ++ name ++ "\":" ++ value.compact
  | (name, value) :: rest => "\"" ++ name ++ "\":" ++ value.compact ++ "," ++ compactMembers rest

end

def newLine (depth : Nat) : String :=
  "\n" ++ String.join (List.replicate depth "  ")

mutual

/-- The text of a value with one member on a line. A record without members
stays on one line. -/
def Written.pretty (depth : Nat) : Written → String
  | .number value => toString value
  | .boolean value => if value then "true" else "false"
  | .record members =>
      if members.isEmpty then "\x7b\x7d"
      else "\x7b" ++ prettyMembers (depth + 1) members ++ newLine depth ++ "\x7d"

def prettyMembers (depth : Nat) : List (String × Written) → String
  | [] => ""
  | [(name, value)] => newLine depth ++ "\"" ++ name ++ "\": " ++ value.pretty depth
  | (name, value) :: rest =>
      newLine depth ++ "\"" ++ name ++ "\": " ++ value.pretty depth ++ "," ++
        prettyMembers depth rest

end

def ofSpan (span : Span) : Written :=
  .record
    [("start", .number span.start.toNat), ("end", .number span.stop.toNat),
      ("line", .number span.line.toNat), ("column", .number span.column.toNat)]

def ofOptions (options : Options) : Written :=
  .record
    [("recordDependencies", .boolean options.recordDependencies),
      ("debugCycles", .boolean options.debugCycles),
      ("collectStatistics", .boolean options.collectStatistics),
      ("pretty", .boolean options.pretty)]

end RequestEngine.Json
