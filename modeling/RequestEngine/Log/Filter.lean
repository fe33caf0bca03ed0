import RequestEngine.Log

/-!
Contract: filters that choose which log events are shown.

Owns:
- directives, each a level for the events of one part of the program;
- reading a filter from the setting that a user gives;
- the directive that decides about an event.

A setting is a list of directives with commas between them. Nothing in this
program opens a span, so a directive about spans never decides about an event.

Does not own: the events, or where they are shown.
-/

namespace RequestEngine

/-- A directive of a filter. -/
structure LogDirective where
  /-- What the target of an event has to begin with. -/
  target : String
  /-- A field that an event has to have. -/
  field : Option String := none
  /-- Whether the directive is about events within certain spans only. -/
  inSpan : Bool := false
  /-- The most verbose level that is shown, or none at all. -/
  level : Option LogLevel
deriving DecidableEq, Repr

/-- The directives of a filter, in the order in which they were given. -/
abbrev LogFilter := List LogDirective

namespace LogLevel

def all : List LogLevel := [.error, .warn, .info, .debug, .trace]

/-- Reads a number that is written with decimal digits, perhaps after a plus. -/
def readNumber? (text : List Char) : Option Nat :=
  let digits := match text with
    | '+' :: rest => rest
    | other => other
  if digits.isEmpty ∨ digits.any (fun digit => !digit.isDigit) then none
  else some (digits.foldl (fun number digit => 10 * number + (digit.toNat - '0'.toNat)) 0)

/-- Reads a level, or the absence of one: by its rank, or by its name in letters of
either case. -/
def read? (text : List Char) : Option (Option LogLevel) :=
  match readNumber? text with
  | some 0 => some none
  | some rank => (all.find? (·.rank = rank)).map some
  | none =>
      let name := String.ofList (text.map Char.toUpper)
      if name = "OFF" then some none else (all.find? (·.name = name)).map some

end LogLevel

namespace LogDirective

def everywhere (level : LogLevel) : LogDirective := { target := "", level := some level }

/-- Reads the level after an equals sign. Without a text it is the most verbose
one. -/
def readLevel? (text : List Char) : Option (Option LogLevel) :=
  if text.isEmpty then some (some .trace) else LogLevel.read? text

/-- Reads what follows the bracket that closes a span. -/
def readAfterSpan? : List Char → Option (Option LogLevel)
  | [] => some (some .trace)
  | '=' :: level => readLevel? level
  | _ :: _ => none

/-- Reads a span and what follows it. A span has a name or a field in braces, or
both. A field with a value is looked for in spans only. -/
def readSpan? (target : String) (text : List Char) : Option LogDirective :=
  let name := text.takeWhile fun char => char ≠ ']' ∧ char ≠ '\x7b'
  match text.drop name.length with
  | ']' :: rest => do
      return { target, inSpan := true, level := ← readAfterSpan? rest }
  | '\x7b' :: rest =>
      let field := rest.takeWhile (· ≠ '\x7d')
      if field.isEmpty then none
      else
        match rest.drop field.length with
        | '\x7d' :: ']' :: rest => do
            return {
              target
              field := some (String.ofList field)
              inSpan := !name.isEmpty || field.any (· = '=')
              level := ← readAfterSpan? rest }
        | _ => none
  | _ => none

/-- Whether a directive may begin with a character. -/
def isInitial (char : Char) : Bool :=
  ['-', ':', '_', '['].contains char || char.isAlphanum || 127 < char.toNat

/-- Reads a directive: a level for all events, or a target with a level for its
events. Blanks are not allowed where a level is given with a target. -/
def read? (text : String) : Option LogDirective :=
  let chars := text.toList
  let trimmed := chars.dropWhile Char.isWhitespace
  match trimmed with
  | [] => none
  | first :: _ =>
      if !isInitial first then none
      else
        let head := chars.takeWhile fun char => char ≠ '=' ∧ char ≠ '['
        let target := String.ofList head
        match chars.drop head.length with
        | '=' :: level =>
            if trimmed.length < chars.length then none
            else (readLevel? level).map fun level => { target, level }
        | '[' :: span => readSpan? target span
        | _ =>
            match LogLevel.read? head with
            | some level => some { target := "", level }
            | none => some { target, level := some .trace }

/-- Whether a directive says something about an event. -/
def concerns (directive : LogDirective) (event : LogEvent) : Bool :=
  !directive.inSpan && event.target.startsWith directive.target &&
    directive.field.all fun field => event.fields.any (·.name = field)

/-- Whether a directive takes precedence over one given before it: it does unless
its target is shorter, or as long but without a field where the other has one. -/
def overrides (later earlier : LogDirective) : Bool :=
  earlier.target.utf8ByteSize < later.target.utf8ByteSize ||
    (later.target.utf8ByteSize = earlier.target.utf8ByteSize &&
      (later.field.isSome || earlier.field.isNone))

/-- Whether a directive lets events of a level through. -/
def admits (directive : LogDirective) (level : LogLevel) : Bool :=
  match directive.level with
  | some verbosest => level.rank ≤ verbosest.rank
  | none => false

end LogDirective

namespace LogFilter

def fallback : LogFilter := [.everywhere .warn]

def withoutDirectives : LogFilter := [.everywhere .error]

def read? (setting : String) : Option LogFilter :=
  match (setting.splitToList (· = ',')).filter (· ≠ "") with
  | [] => some withoutDirectives
  | directives => directives.mapM LogDirective.read?

def ofSetting (setting : Option String) : LogFilter :=
  (setting.bind read?).getD fallback

def deciding? (filter : LogFilter) (event : LogEvent) : Option LogDirective :=
  (filter.filter (·.concerns event)).foldl
    (fun decided directive =>
      match decided with
      | some earlier => if directive.overrides earlier then some directive else decided
      | none => some directive)
    none

def admits (filter : LogFilter) (event : LogEvent) : Bool :=
  match filter.deciding? event with
  | some directive => directive.admits event.level
  | none => false

end LogFilter

end RequestEngine
