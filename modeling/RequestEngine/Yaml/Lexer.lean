import RequestEngine.Yaml.Scalar
import RequestEngine.Yaml.Tag

/-!
Contract: splitting YAML texts into tokens.

Owns:
- the state of the scanner: indentation, nesting of flow collections, and the
  places where a key may have started;
- the tokens that follow from indentation;
- reading one token after the other.

A key is recognised only by the colon behind it, so the scanner remembers where
one may have started and adds the token for it later. Such a key has to end on
its line and within 1024 characters.

Does not own: how tokens make up nodes.
-/

namespace RequestEngine.Yaml

/-- A place where a key may have started: the number of the token there, and
whether there has to be a key. -/
structure PendingKey where
  tokenNumber : Nat
  required : Bool
  index : Nat
  line : Nat
  column : Nat
deriving Repr

/-- The state of the scanner. -/
structure Lexer where
  cursor : Cursor
  /-- The tokens so far, in order. -/
  tokens : List Token := [.streamStart]
  /-- The column of the innermost block collection, if there is one. -/
  indentation : Option Nat := none
  /-- The same of the collections around it, innermost first. -/
  outerIndentations : List (Option Nat) := []
  /-- How many flow collections are open. -/
  flowDepth : Nat := 0
  /-- Whether a key may start here. -/
  keyAllowed : Bool := true
  /-- Where a key may have started on the current level. -/
  pendingKey : Option PendingKey := none
  /-- The same on the levels around it, innermost first. -/
  outerKeys : List (Option PendingKey) := []

namespace Lexer

/-- The greatest distance between the start of a key and its colon. -/
def greatestKeyLength : Nat := 1024

def inFlow (lexer : Lexer) : Bool := 0 < lexer.flowDepth

def emit (lexer : Lexer) (token : Token) : Lexer :=
  { lexer with tokens := lexer.tokens ++ [token] }

/-- Adds a token in front of the one with a number. -/
def emitAt (lexer : Lexer) (number : Nat) (token : Token) : Lexer :=
  { lexer with tokens := lexer.tokens.take number ++ token :: lexer.tokens.drop number }

/-- The column below which block collections start. -/
def parentColumn (lexer : Lexer) : Nat := (lexer.indentation.map (· + 1)).getD 0

/-- Closes the block collections to the right of a column; without a column, all
of them. -/
def closeBlocks (column : Option Nat) : List (Option Nat) → Lexer → Lexer
  | [], lexer => lexer
  | outer :: further, lexer =>
      if ¬lexer.inFlow ∧ lexer.indentation.any (fun current => column.all (· < current)) then
        closeBlocks column further
          { lexer.emit .blockEnd with indentation := outer, outerIndentations := further }
      else lexer

/-- Closes the block collections to the right of a column. -/
def unroll (lexer : Lexer) (column : Option Nat) : Lexer :=
  closeBlocks column lexer.outerIndentations lexer

/-- Opens a block collection at a column to the right of the innermost one. Its
token goes to the end, or in front of the token with a number. -/
def roll (lexer : Lexer) (column : Nat) (number : Option Nat) (token : Token) : Lexer :=
  if ¬lexer.inFlow ∧ lexer.indentation.all (· < column) then
    let opened :=
      { lexer with
        indentation := some column
        outerIndentations := lexer.indentation :: lexer.outerIndentations }
    match number with
    | none => opened.emit token
    | some number => opened.emitAt number token
  else lexer

/-- Gives up the key that may have started on the current level. A required one
cannot be given up. -/
def dropKey (lexer : Lexer) : Option Lexer :=
  if lexer.pendingKey.any (·.required) then none else some { lexer with pendingKey := none }

def saveKey (lexer : Lexer) : Option Lexer :=
  if lexer.keyAllowed then do
    let cursor := lexer.cursor
    let dropped ← lexer.dropKey
    let required := ¬lexer.inFlow ∧ lexer.indentation = some cursor.column
    some { dropped with
      pendingKey := some ⟨lexer.tokens.length, required, cursor.index, cursor.line, cursor.column⟩ }
  else some lexer

def isStale (cursor : Cursor) (key : PendingKey) : Bool :=
  key.line < cursor.line || key.index + greatestKeyLength < cursor.index

/-- Gives up a key that can no longer be continued. -/
def refreshKey (cursor : Cursor) (key : Option PendingKey) : Option (Option PendingKey) :=
  match key with
  | none => some none
  | some pending =>
      if isStale cursor pending then (if pending.required then none else some none)
      else some key

/-- Gives up the keys on all levels that can no longer be continued. -/
def dropStaleKeys (lexer : Lexer) : Option Lexer := do
  let outer ← lexer.outerKeys.mapM (refreshKey lexer.cursor)
  let pending ← refreshKey lexer.cursor lexer.pendingKey
  some { lexer with pendingKey := pending, outerKeys := outer }

/-- Passes over blanks, comments and line breaks. A tab may stand only where no
key can start. Outside of flow collections, a key may start on a new line. -/
def skipGap : Nat → Lexer → Lexer
  | 0, lexer => lexer
  | steps + 1, lexer =>
      let start :=
        if lexer.cursor.column = 0 ∧ lexer.cursor.startsWith '\ufeff' then lexer.cursor.advance 1
        else lexer.cursor
      let mayTab := lexer.inFlow || !lexer.keyAllowed
      let spaced := start.skipWhile fun character =>
        character = ' ' || (mayTab && character = '\t')
      let behind :=
        if spaced.startsWith '#' then spaced.skipWhile fun character => ¬isBreak character
        else spaced
      if behind.nextIs isBreak then
        skipGap steps
          { lexer with
            cursor := behind.nextLine
            keyAllowed := lexer.keyAllowed || !lexer.inFlow }
      else { lexer with cursor := behind }

def goTo (lexer : Lexer) (cursor : Cursor) : Lexer := { lexer with cursor := cursor }

def allowKey (lexer : Lexer) (allowed : Bool) : Lexer := { lexer with keyAllowed := allowed }

/-- Adds a token that takes up so many characters. -/
def take (lexer : Lexer) (width : Nat) (token : Token) : Lexer :=
  (lexer.goTo (lexer.cursor.advance width)).emit token

def scanStreamEnd (lexer : Lexer) : Option Lexer := do
  let closed ← (lexer.unroll none).dropKey
  some (closed.emit .streamEnd)

def scanDirectiveLine (lexer : Lexer) : Option Lexer := do
  let closed ← (lexer.unroll none).dropKey
  let (token, behind) ← scanDirective closed.cursor
  let next ← scanLineEnd behind
  some (((closed.allowKey false).goTo next).emit token)

def scanDocumentMarker (lexer : Lexer) (token : Token) : Option Lexer := do
  let closed ← (lexer.unroll none).dropKey
  some ((closed.allowKey false).take 3 token)

def scanFlowStart (lexer : Lexer) (token : Token) : Option Lexer := do
  let saved ← lexer.saveKey
  some ({ saved with
    flowDepth := saved.flowDepth + 1
    outerKeys := saved.pendingKey :: saved.outerKeys
    pendingKey := none
    keyAllowed := true }.take 1 token)

def scanFlowEnd (lexer : Lexer) (token : Token) : Option Lexer := do
  let dropped ← lexer.dropKey
  let left :=
    match dropped.flowDepth, dropped.outerKeys with
    | depth + 1, pending :: outer =>
        { dropped with flowDepth := depth, pendingKey := pending, outerKeys := outer }
    | _, _ => dropped
  some ((left.allowKey false).take 1 token)

/-- The comma between the entries of a flow collection. -/
def scanFlowEntry (lexer : Lexer) : Option Lexer := do
  let dropped ← lexer.dropKey
  some ((dropped.allowKey true).take 1 .flowEntry)

def scanBlockEntry (lexer : Lexer) : Option Lexer :=
  if ¬lexer.inFlow ∧ ¬lexer.keyAllowed then none
  else do
    let dropped ← (lexer.roll lexer.cursor.column none .blockSequenceStart).dropKey
    some ((dropped.allowKey true).take 1 .blockEntry)

def scanExplicitKey (lexer : Lexer) : Option Lexer :=
  if ¬lexer.inFlow ∧ ¬lexer.keyAllowed then none
  else do
    let dropped ← (lexer.roll lexer.cursor.column none .blockMappingStart).dropKey
    some ((dropped.allowKey (!lexer.inFlow)).take 1 .key)

/-- The colon in front of a value. If a key may have started before, it did. -/
def scanValue (lexer : Lexer) : Option Lexer :=
  match lexer.pendingKey with
  | some pending =>
      let keyed := (lexer.emitAt pending.tokenNumber .key).roll pending.column
        (some pending.tokenNumber) .blockMappingStart
      some (({ keyed with pendingKey := none }.allowKey false).take 1 .value)
  | none =>
      if ¬lexer.inFlow ∧ ¬lexer.keyAllowed then none
      else
        let rolled := lexer.roll lexer.cursor.column none .blockMappingStart
        some ((rolled.allowKey (!lexer.inFlow)).take 1 .value)

def scanReference (lexer : Lexer) (token : String → Token) : Option Lexer := do
  let saved ← lexer.saveKey
  let (name, behind) ← scanName saved.cursor
  some (((saved.allowKey false).goTo behind).emit (token name))

def scanTagToken (lexer : Lexer) : Option Lexer := do
  let saved ← lexer.saveKey
  let (token, behind) ← scanTag lexer.inFlow saved.cursor
  some (((saved.allowKey false).goTo behind).emit token)

def scanBlockScalar (lexer : Lexer) (literal : Bool) : Option Lexer := do
  let dropped ← lexer.dropKey
  let (text, behind) ← scanBlock literal dropped.indentation dropped.cursor
  some (((dropped.allowKey true).goTo behind).emit
    (.scalar text (if literal then .literal else .folded)))

def scanQuotedScalar (lexer : Lexer) (single : Bool) : Option Lexer := do
  let saved ← lexer.saveKey
  let (text, behind) ← scanQuoted single saved.cursor
  some (((saved.allowKey false).goTo behind).emit
    (.scalar text (if single then .singleQuoted else .doubleQuoted)))

/-- A plain scalar. A key may start behind it if a line has ended. -/
def scanPlainScalar (lexer : Lexer) : Option Lexer := do
  let saved ← lexer.saveKey
  let scalar ← scanPlain lexer.inFlow lexer.parentColumn saved.cursor
  some (((saved.allowKey scalar.afterBreak).goTo scalar.cursor).emit (.scalar scalar.text .plain))

/-- Whether a character can only start something other than a plain scalar. -/
def isIndicator (character : Char) : Bool :=
  "-?:,[]\x7b\x7d#&*!|>'\"%@`".toList.contains character

def startsPlain (lexer : Lexer) : Bool :=
  let cursor := lexer.cursor
  (cursor.nextIs fun character => !isBlank character && !isBreak character &&
    !isIndicator character) ||
  (cursor.startsWith '-' && !(cursor.peek 1).any isBlank) ||
  (!lexer.inFlow && (cursor.startsWith '?' || cursor.startsWith ':') && !endsWord (cursor.peek 1))

/-- Reads the token at the cursor, which is not at a gap. -/
def scanToken (lexer : Lexer) : Option Lexer :=
  let cursor := lexer.cursor
  let alone := endsWord (cursor.peek 1)
  match cursor.rest with
  | [] => none
  | character :: _ =>
      if cursor.column = 0 ∧ character = '%' then lexer.scanDirectiveLine
      else if cursor.atMarker '-' then lexer.scanDocumentMarker .documentStart
      else if cursor.atMarker '.' then lexer.scanDocumentMarker .documentEnd
      else if character = '[' then lexer.scanFlowStart .flowSequenceStart
      else if character = '\x7b' then lexer.scanFlowStart .flowMappingStart
      else if character = ']' then lexer.scanFlowEnd .flowSequenceEnd
      else if character = '\x7d' then lexer.scanFlowEnd .flowMappingEnd
      else if character = ',' then lexer.scanFlowEntry
      else if character = '-' ∧ alone then lexer.scanBlockEntry
      else if character = '?' ∧ (lexer.inFlow ∨ alone) then lexer.scanExplicitKey
      else if character = ':' ∧ (lexer.inFlow ∨ alone) then lexer.scanValue
      else if character = '*' then lexer.scanReference .alias
      else if character = '&' then lexer.scanReference .anchor
      else if character = '!' then lexer.scanTagToken
      else if character = '|' ∧ ¬lexer.inFlow then lexer.scanBlockScalar true
      else if character = '>' ∧ ¬lexer.inFlow then lexer.scanBlockScalar false
      else if character = '\'' then lexer.scanQuotedScalar true
      else if character = '"' then lexer.scanQuotedScalar false
      else if lexer.startsPlain then lexer.scanPlainScalar
      else none

/-- Passes over the gap in front of the next token and closes what ends there. -/
def approach (lexer : Lexer) : Option Lexer := do
  let there := lexer.skipGap (lexer.cursor.rest.length + 1)
  let refreshed ← there.dropStaleKeys
  some (refreshed.unroll (some refreshed.cursor.column))

/-- Reads all tokens. Every turn passes over at least one character. -/
def scanAll : Nat → Lexer → Option (List Token)
  | 0, _ => none
  | steps + 1, lexer => do
      let there ← lexer.approach
      if there.cursor.rest.isEmpty then
        let ended ← there.scanStreamEnd
        some ended.tokens
      else
        let next ← there.scanToken
        scanAll steps next

end Lexer

/-- The tokens of a text, if it consists of tokens. -/
def tokens? (text : String) : Option (List Token) :=
  let characters := text.toList
  if characters.all isAllowed then
    Lexer.scanAll (characters.length + 1) { cursor := { rest := characters } }
  else none

end RequestEngine.Yaml
