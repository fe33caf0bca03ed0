import RequestEngine.Json.Token

/-!
Contract: JSON values read from tokens.

Owns:
- values, with object members in the order in which they are written;
- assembling values from tokens, however deeply they nest;
- the text of strings.

Does not own: what the values mean.
-/

namespace RequestEngine.Json

/-- A value. Strings and member names are kept in pieces, because only some of
them can be read as text. -/
inductive Value where
  | null
  | boolean (value : Bool)
  | number (spelling : List Char)
  | string (pieces : List StringPiece)
  | array (items : List Value)
  | object (members : List (List StringPiece × Value))
deriving Repr, Inhabited

/-- A value that has been opened and not closed yet. The items so far are held
in reverse. -/
inductive Frame where
  | array (items : List Value)
  | object (members : List (List StringPiece × Value))
  | member (name : List StringPiece) (members : List (List StringPiece × Value))

/-- What may come next. -/
inductive Expectation where
  /-- A value. -/
  | value
  /-- A value, or the end of the array. -/
  | valueOrEnd
  /-- The name of a member. -/
  | name
  /-- The name of a member, or the end of the object. -/
  | nameOrEnd
  /-- The colon behind the name of a member. -/
  | colon
  /-- A comma, or the end of the innermost open value. -/
  | separator
  /-- Nothing: the value is complete. -/
  | nothing (value : Value)

/-- Open values, innermost first, and what may come next. -/
structure Assembly where
  frames : List Frame
  expectation : Expectation

namespace Assembly

def start : Assembly := ⟨[], .value⟩

/-- Adds a complete value to the innermost open one. -/
def complete (value : Value) : List Frame → Option Assembly
  | [] => some ⟨[], .nothing value⟩
  | .array items :: outer => some ⟨.array (value :: items) :: outer, .separator⟩
  | .member name members :: outer =>
      some ⟨.object ((name, value) :: members) :: outer, .separator⟩
  | .object _ :: _ => none

/-- Takes the next token into account where a value is expected. -/
def stepValue (frames : List Frame) : Token → Option Assembly
  | .null => complete .null frames
  | .boolean value => complete (.boolean value) frames
  | .number spelling => complete (.number spelling) frames
  | .string pieces => complete (.string pieces) frames
  | .openBracket => some ⟨.array [] :: frames, .valueOrEnd⟩
  | .openBrace => some ⟨.object [] :: frames, .nameOrEnd⟩
  | .closeBracket | .closeBrace | .colon | .comma => none

def close (token : Token) : List Frame → Option Assembly
  | .array items :: outer =>
      if token = .closeBracket then complete (.array items.reverse) outer else none
  | .object members :: outer =>
      if token = .closeBrace then complete (.object members.reverse) outer else none
  | .member .. :: _ | [] => none

def stepName (frames : List Frame) (token : Token) : Option Assembly :=
  match token, frames with
  | .string pieces, .object members :: outer => some ⟨.member pieces members :: outer, .colon⟩
  | _, _ => none

/-- Takes a comma between items or members into account. -/
def stepComma (frames : List Frame) : Option Assembly :=
  match frames with
  | .array _ :: _ => some ⟨frames, .value⟩
  | .object _ :: _ => some ⟨frames, .name⟩
  | .member .. :: _ | [] => none

def step (assembly : Assembly) (token : Token) : Option Assembly :=
  match assembly.expectation with
  | .value => stepValue assembly.frames token
  | .valueOrEnd =>
      if token = .closeBracket then close token assembly.frames
      else stepValue assembly.frames token
  | .name => stepName assembly.frames token
  | .nameOrEnd =>
      if token = .closeBrace then close token assembly.frames
      else stepName assembly.frames token
  | .colon => if token = .colon then some ⟨assembly.frames, .value⟩ else none
  | .separator =>
      if token = .comma then stepComma assembly.frames else close token assembly.frames
  | .nothing _ => none

/-- The complete value, if all that was opened has been closed. -/
def result? (assembly : Assembly) : Option Value :=
  match assembly.expectation with
  | .nothing value => some value
  | _ => none

end Assembly

def parse? (text : String) : Option Value := do
  let found ← tokens? text
  let assembly ← found.foldlM Assembly.step Assembly.start
  assembly.result?

/-- Joins escaped units to characters. A pair of surrogates is one character;
half a pair cannot be read. -/
def characters? : List StringPiece → Option (List Char)
  | [] => some []
  | .character character :: rest => (characters? rest).map (character :: ·)
  | .unit code :: rest =>
      if 0xd800 ≤ code ∧ code < 0xdc00 then
        match rest with
        | .unit low :: behind =>
            if 0xdc00 ≤ low ∧ low < 0xe000 then
              (characters? behind).map
                (Char.ofNat (0x10000 + (code - 0xd800) * 0x400 + (low - 0xdc00)) :: ·)
            else none
        | _ => none
      else if 0xdc00 ≤ code ∧ code < 0xe000 then none
      else (characters? rest).map (Char.ofNat code :: ·)

def text? (pieces : List StringPiece) : Option String :=
  (characters? pieces).map String.ofList

/-- The natural number of a spelling that consists of digits only. -/
def natural? (spelling : List Char) : Option Nat :=
  if spelling.all Char.isDigit ∧ ¬spelling.isEmpty then
    some (spelling.foldl (fun value digit => 10 * value + (digit.toNat - '0'.toNat)) 0)
  else none

end RequestEngine.Json
