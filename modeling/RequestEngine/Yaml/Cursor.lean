/-!
Contract: walking through a YAML text.

Owns:
- the classes of characters that the grammar distinguishes;
- a cursor that knows the offset, the line and the column it has reached.

Does not own: tokens.
-/

namespace RequestEngine.Yaml

/-- Whether a character may occur in a text at all. -/
def isAllowed (character : Char) : Bool :=
  let code := character.toNat
  code = 0x09 || code = 0x0a || code = 0x0d || (0x20 ≤ code && code ≤ 0x7e) ||
    code = 0x85 || (0xa0 ≤ code && code ≤ 0xd7ff) || (0xe000 ≤ code && code ≤ 0xfffd) ||
    0x10000 ≤ code

def isBreak (character : Char) : Bool :=
  character = '\n' || character = '\r' || character = '\u0085' || character = '\u2028' ||
    character = '\u2029'

def isBlank (character : Char) : Bool := character = ' ' || character = '\t'

/-- Whether a character may occur in a word: a letter, a digit, an underscore or
a hyphen. -/
def isWordCharacter (character : Char) : Bool :=
  character.isAlphanum || character = '_' || character = '-'

/-- Whether what comes next, if anything, ends a line. -/
def endsLine : Option Char → Bool
  | none => true
  | some character => isBreak character

/-- Whether what comes next, if anything, ends a word. -/
def endsWord : Option Char → Bool
  | none => true
  | some character => isBlank character || isBreak character

/-- A position in a text, with the characters from there on. -/
structure Cursor where
  rest : List Char
  index : Nat := 0
  line : Nat := 0
  column : Nat := 0
deriving Repr

namespace Cursor

def peek (cursor : Cursor) (ahead : Nat) : Option Char := cursor.rest[ahead]?

def startsWith (cursor : Cursor) (character : Char) : Bool := cursor.peek 0 = some character

def nextIs (cursor : Cursor) (property : Char → Bool) : Bool := (cursor.peek 0).any property

/-- The position so many characters further on the same line. -/
def advance (cursor : Cursor) (count : Nat) : Cursor :=
  { cursor with
    rest := cursor.rest.drop count
    index := cursor.index + count
    column := cursor.column + count }

def run (cursor : Cursor) (property : Char → Bool) : List Char :=
  cursor.rest.takeWhile property

/-- The position behind the characters in front that have a property. -/
def skipWhile (cursor : Cursor) (property : Char → Bool) : Cursor :=
  cursor.advance (cursor.run property).length

/-- The position at the start of the next line, if the cursor is at a line break. -/
def nextLine (cursor : Cursor) : Cursor :=
  let width := match cursor.rest with
    | '\r' :: '\n' :: _ => 2
    | _ => 1
  if cursor.nextIs isBreak then
    { rest := cursor.rest.drop width
      index := cursor.index + width
      line := cursor.line + 1
      column := 0 }
  else cursor

/-- The line break in front, as it counts in a scalar: the separators of lines
and paragraphs count as themselves, and every other break as a line feed. -/
def lineBreak (cursor : Cursor) : String :=
  match cursor.peek 0 with
  | none => ""
  | some character =>
      if character = '\u2028' ∨ character = '\u2029' then String.singleton character
      else if isBreak character then "\n"
      else ""

/-- Whether the cursor is at a line that holds one of the document markers. -/
def atMarker (cursor : Cursor) (mark : Char) : Bool :=
  cursor.column = 0 && cursor.rest.take 3 = [mark, mark, mark] && endsWord (cursor.peek 3)

/-- Whether the cursor is at a line that starts or ends a document. -/
def atDocumentBoundary (cursor : Cursor) : Bool := cursor.atMarker '-' || cursor.atMarker '.'

@[simp]
theorem rest_advance (cursor : Cursor) (count : Nat) :
    (cursor.advance count).rest = cursor.rest.drop count := rfl

end Cursor

end RequestEngine.Yaml
