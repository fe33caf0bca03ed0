import RequestEngine.Json.Token
import RequestEngine.Yaml.Cursor

/-!
Contract: the scalars of YAML texts.

Owns:
- plain scalars, quoted scalars and block scalars;
- folding line breaks inside of them.

Every scanner takes a number of steps that bounds its loop. Each turn of a loop
passes over at least one character, so the length of the text is enough.

Does not own: where a scalar may stand.
-/

namespace RequestEngine.Yaml

/-- The blanks and line breaks collected behind a part of a scalar. -/
structure Gap where
  blanks : String := ""
  firstBreak : String := ""
  furtherBreaks : String := ""
  /-- Whether a line has ended in the gap. -/
  broken : Bool := false
deriving DecidableEq, Repr

namespace Gap

/-- What a gap counts as inside a scalar. A single line feed becomes a space and
further ones stay; without a line break, the blanks stay. -/
def folded (gap : Gap) : String :=
  if gap.broken then
    if gap.firstBreak = "\n" then
      if gap.furtherBreaks = "" then " " else gap.furtherBreaks
    else gap.firstBreak ++ gap.furtherBreaks
  else gap.blanks

/-- Adds a blank; blanks at the start of a line do not count. -/
def addBlank (gap : Gap) (character : Char) : Gap :=
  if gap.broken then gap else { gap with blanks := gap.blanks.push character }

def addBreak (gap : Gap) (text : String) : Gap :=
  if gap.broken then { gap with furtherBreaks := gap.furtherBreaks ++ text }
  else { gap with blanks := "", firstBreak := text, broken := true }

@[simp]
theorem folded_of_not_broken {gap : Gap} (whole : gap.broken = false) :
    gap.folded = gap.blanks := by
  simp [folded, whole]

end Gap

/-- Passes over blanks and line breaks. Where an indentation is given, a tab in
front of it at the start of a line is refused. -/
def scanGap (indentation : Option Nat) : Nat → Gap → Cursor → Option (Gap × Cursor)
  | 0, gap, cursor => some (gap, cursor)
  | steps + 1, gap, cursor =>
      match cursor.peek 0 with
      | none => some (gap, cursor)
      | some character =>
          if isBlank character then
            if gap.broken ∧ character = '\t' ∧ indentation.any (cursor.column < ·) then none
            else scanGap indentation steps (gap.addBlank character) (cursor.advance 1)
          else if isBreak character then
            scanGap indentation steps (gap.addBreak cursor.lineBreak) cursor.nextLine
          else some (gap, cursor)

/-! ### Plain scalars -/

/-- Whether a character is one of the brackets and braces of flow collections, or
the comma between their entries. -/
def isFlowIndicator (character : Char) : Bool :=
  character = ',' || character = '[' || character = ']' || character = '\x7b' ||
    character = '\x7d'

/-- Whether a plain scalar ends in front of the cursor. -/
def endsPlain (inFlow : Bool) (cursor : Cursor) : Bool :=
  (cursor.startsWith ':' && endsWord (cursor.peek 1)) ||
    (inFlow && cursor.nextIs isFlowIndicator)

/-- Whether a colon stands in a flow collection where it can mean nothing. -/
def strayColon (inFlow : Bool) (cursor : Cursor) : Bool :=
  inFlow && cursor.startsWith ':' &&
    (cursor.peek 1).any fun character => isFlowIndicator character || character = '?'

/-- Passes over a part of a plain scalar without blanks. -/
def scanPlainPart (inFlow : Bool) : Nat → String → Cursor → Option (String × Cursor)
  | 0, part, cursor => some (part, cursor)
  | steps + 1, part, cursor =>
      match cursor.peek 0 with
      | none => some (part, cursor)
      | some character =>
          if endsWord (some character) then some (part, cursor)
          else if strayColon inFlow cursor then none
          else if endsPlain inFlow cursor then some (part, cursor)
          else scanPlainPart inFlow steps (part.push character) (cursor.advance 1)

/-- A plain scalar that has been read: its text, the position behind it, and
whether that position follows a line break. -/
structure PlainScalar where
  text : String
  cursor : Cursor
  afterBreak : Bool

/-- Reads parts of a plain scalar with the gaps between them. -/
def scanPlainFrom (inFlow : Bool) (indentation : Nat) :
    Nat → String → Gap → Cursor → Option PlainScalar
  | 0, text, gap, cursor => some ⟨text, cursor, gap.broken⟩
  | steps + 1, text, gap, cursor =>
      if cursor.atDocumentBoundary ∨ cursor.startsWith '#' then
        some ⟨text, cursor, gap.broken⟩
      else do
        let (part, behind) ← scanPlainPart inFlow cursor.rest.length "" cursor
        let (joined, pending) :=
          if part = "" then (text, gap) else (text ++ gap.folded ++ part, {})
        if ¬ behind.nextIs (fun character => isBlank character || isBreak character) then
          some ⟨joined, behind, pending.broken⟩
        else
          let (next, after) ← scanGap (some indentation) behind.rest.length pending behind
          if ¬inFlow ∧ after.column < indentation then some ⟨joined, after, next.broken⟩
          else scanPlainFrom inFlow indentation steps joined next after

def scanPlain (inFlow : Bool) (indentation : Nat) (cursor : Cursor) : Option PlainScalar :=
  scanPlainFrom inFlow indentation (cursor.rest.length + 1) "" {} cursor

/-! ### Quoted scalars -/

def simpleEscape? : Char → Option Char
  | '0' => some '\x00'
  | 'a' => some '\x07'
  | 'b' => some '\x08'
  | 't' | '\t' => some '\t'
  | 'n' => some '\n'
  | 'v' => some '\x0b'
  | 'f' => some '\x0c'
  | 'r' => some '\r'
  | 'e' => some '\x1b'
  | ' ' => some ' '
  | '"' => some '"'
  | '/' => some '/'
  | '\\' => some '\\'
  | 'N' => some '\u0085'
  | '_' => some '\u00a0'
  | 'L' => some '\u2028'
  | 'P' => some '\u2029'
  | _ => none

/-- The number of hexadecimal digits behind an escape letter. -/
def escapeWidth? : Char → Option Nat
  | 'x' => some 2
  | 'u' => some 4
  | 'U' => some 8
  | _ => none

def scanEscape (cursor : Cursor) : Option (Char × Cursor) := do
  let letter ← cursor.peek 1
  match simpleEscape? letter with
  | some character => some (character, cursor.advance 2)
  | none =>
      let width ← escapeWidth? letter
      let digits := (cursor.advance 2).rest.take width
      if digits.length < width then none
      else
        let code ← Json.hexNumber? digits
        if (0xd800 ≤ code ∧ code ≤ 0xdfff) ∨ 0x10ffff < code then none
        else some (Char.ofNat code, cursor.advance (2 + width))

def quoteOf (single : Bool) : Char := if single then '\'' else '"'

/-- Passes over a part of a quoted scalar without blanks. The result tells
whether the part ended with an escaped line break. -/
def scanQuotedPart (single : Bool) : Nat → String → Cursor → Option (String × Bool × Cursor)
  | 0, part, cursor => some (part, false, cursor)
  | steps + 1, part, cursor =>
      match cursor.peek 0 with
      | none => some (part, false, cursor)
      | some character =>
          if endsWord (some character) then some (part, false, cursor)
          else if single ∧ character = '\'' ∧ cursor.peek 1 = some '\'' then
            scanQuotedPart single steps (part.push '\'') (cursor.advance 2)
          else if character = quoteOf single then some (part, false, cursor)
          else if ¬single ∧ character = '\\' ∧ (cursor.peek 1).any isBreak then
            some (part, true, (cursor.advance 1).nextLine)
          else if ¬single ∧ character = '\\' then do
            let (escaped, behind) ← scanEscape cursor
            scanQuotedPart single steps (part.push escaped) behind
          else scanQuotedPart single steps (part.push character) (cursor.advance 1)

/-- Reads parts of a quoted scalar with the gaps between them, up to the closing
quote. -/
def scanQuotedFrom (single : Bool) : Nat → String → Cursor → Option (String × Cursor)
  | 0, _, _ => none
  | steps + 1, text, cursor =>
      if cursor.atDocumentBoundary ∨ cursor.rest.isEmpty then none
      else do
        let (part, broken, behind) ← scanQuotedPart single cursor.rest.length "" cursor
        if behind.startsWith (quoteOf single) then some (text ++ part, behind.advance 1)
        else
          let (gap, after) ←
            scanGap none behind.rest.length { broken := broken } behind
          scanQuotedFrom single steps (text ++ part ++ gap.folded) after

/-- Reads a quoted scalar from its opening quote on. -/
def scanQuoted (single : Bool) (cursor : Cursor) : Option (String × Cursor) :=
  scanQuotedFrom single (cursor.rest.length + 1) "" (cursor.advance 1)

/-! ### Block scalars -/

/-- What happens to the line breaks at the end of a block scalar. -/
inductive Chomping where
  | strip | clip | keep
deriving DecidableEq, Repr

/-- The indicators in front of a block scalar. -/
structure BlockHeader where
  chomping : Chomping := .clip
  increment : Option Nat := none
deriving DecidableEq, Repr

/-- Reads an indentation indicator, if there is one. Zero is refused. -/
def scanIncrement (cursor : Cursor) : Option (Option Nat × Cursor) :=
  match cursor.peek 0 with
  | some digit =>
      if digit = '0' then none
      else if digit.isDigit then some (some (digit.toNat - '0'.toNat), cursor.advance 1)
      else some (none, cursor)
  | none => some (none, cursor)

def scanChomping (cursor : Cursor) : Option Chomping × Cursor :=
  match cursor.peek 0 with
  | some '+' => (some .keep, cursor.advance 1)
  | some '-' => (some .strip, cursor.advance 1)
  | _ => (none, cursor)

/-- Reads the indicators of a block scalar, in either order. -/
def scanBlockHeader (cursor : Cursor) : Option (BlockHeader × Cursor) := do
  match scanChomping cursor with
  | (some chomping, behind) =>
      let (increment, after) ← scanIncrement behind
      some (⟨chomping, increment⟩, after)
  | (none, _) =>
      let (increment, behind) ← scanIncrement cursor
      match increment with
      | none => some ({}, behind)
      | some _ =>
          let (chomping, after) := scanChomping behind
          some (⟨chomping.getD .clip, increment⟩, after)

/-- Passes over the rest of a line that may hold a comment only. -/
def scanLineEnd (cursor : Cursor) : Option Cursor :=
  let spaced := cursor.skipWhile isBlank
  let behind :=
    if spaced.startsWith '#' then spaced.skipWhile fun character => ¬isBreak character
    else spaced
  if endsLine (behind.peek 0) then some behind.nextLine else none

/-- The state of passing over the line breaks between the lines of a block
scalar. Without a known indentation, `deepest` is the greatest column reached. -/
structure Breaks where
  text : String := ""
  deepest : Nat := 0

/-- Passes over indentation and empty lines. A tab inside the indentation is
refused. -/
def scanBreaks (indentation : Option Nat) : Nat → Breaks → Cursor → Option (Breaks × Cursor)
  | 0, breaks, cursor => some (breaks, cursor)
  | steps + 1, breaks, cursor =>
      let spaces := (cursor.run (· = ' ')).length
      let wanted := match indentation with
        | none => spaces
        | some column => min spaces (column - cursor.column)
      let indented := cursor.advance wanted
      let reached : Breaks := { breaks with deepest := max breaks.deepest indented.column }
      if indented.startsWith '\t' ∧ indentation.all (indented.column < ·) then none
      else if indented.nextIs isBreak then
        scanBreaks indentation steps { reached with text := reached.text ++ indented.lineBreak }
          indented.nextLine
      else some (reached, indented)

/-- Reads the lines of a block scalar. `pendingBreak` is the break behind the line
before, `breaks` the empty lines behind that, and `afterBlank` tells whether the
line before started with a blank. -/
def scanBlockLines (literal : Bool) (indentation : Nat) :
    Nat → String → String → String → Bool → Cursor → Option (String × String × String × Cursor)
  | 0, text, pendingBreak, breaks, _, cursor => some (text, pendingBreak, breaks, cursor)
  | steps + 1, text, pendingBreak, breaks, afterBlank, cursor =>
      if cursor.column ≠ indentation ∨ cursor.rest.isEmpty then
        some (text, pendingBreak, breaks, cursor)
      else
        let startsBlank := cursor.nextIs isBlank
        let joint :=
          if ¬literal ∧ pendingBreak = "\n" ∧ ¬afterBlank ∧ ¬startsBlank then
            if breaks = "" then " " else ""
          else pendingBreak
        let line := cursor.run fun character => ¬isBreak character
        let behind := cursor.advance line.length
        let grown := text ++ joint ++ breaks ++ String.ofList line
        match scanBreaks (some indentation) (behind.rest.length + 1) {} behind.nextLine with
        | none => none
        | some (further, after) =>
            scanBlockLines literal indentation steps grown behind.lineBreak further.text
              startsBlank after

/-- Reads a block scalar from its indicator on. `parent` is the indentation of the
collection around it, if there is one. -/
def scanBlock (literal : Bool) (parent : Option Nat) (cursor : Cursor) :
    Option (String × Cursor) := do
  let (header, behindHeader) ← scanBlockHeader (cursor.advance 1)
  let body ← scanLineEnd behindHeader
  let given := header.increment.map (parent.getD 0 + ·)
  let (leading, start) ← scanBreaks given (body.rest.length + 1) {} body
  let least := max 1 ((parent.map (· + 1)).getD 0)
  let indentation := given.getD (max leading.deepest least)
  let (text, pendingBreak, breaks, behind) ←
    scanBlockLines literal indentation (start.rest.length + 1) "" "" leading.text false start
  let tail := match header.chomping with
    | .strip => ""
    | .clip => pendingBreak
    | .keep => pendingBreak ++ breaks
  some (text ++ tail, behind)

end RequestEngine.Yaml
