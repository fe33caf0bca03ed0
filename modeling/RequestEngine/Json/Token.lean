/-!
Contract: the tokens of JSON texts.

Owns:
- tokens, with string contents in the units of their escapes;
- splitting a text into tokens.

A string may hold an escaped half of a surrogate pair that stands alone. Such a
string is well formed as a token, but no text can be read from it.

Does not own: how tokens make up values.
-/

namespace RequestEngine.Json

/-- A part of a string: a character that stands for itself, or an escaped unit
of sixteen bits. -/
inductive StringPiece where
  | character (character : Char)
  | unit (code : Nat)
deriving DecidableEq, Repr

/-- A token. Numbers keep their spelling. -/
inductive Token where
  | openBrace | closeBrace | openBracket | closeBracket | colon | comma
  | null
  | boolean (value : Bool)
  | number (spelling : List Char)
  | string (pieces : List StringPiece)
deriving DecidableEq, Repr

def hexValue? (character : Char) : Option Nat :=
  if '0' ≤ character ∧ character ≤ '9' then some (character.toNat - '0'.toNat)
  else if 'a' ≤ character ∧ character ≤ 'f' then some (character.toNat - 'a'.toNat + 10)
  else if 'A' ≤ character ∧ character ≤ 'F' then some (character.toNat - 'A'.toNat + 10)
  else none

def hexNumber? (digits : List Char) : Option Nat :=
  digits.foldl
    (fun value digit => do
      let value ← value
      let next ← hexValue? digit
      pure (16 * value + next))
    (some 0)

def simpleEscape? : Char → Option Char
  | '"' => some '"'
  | '\\' => some '\\'
  | '/' => some '/'
  | 'b' => some '\x08'
  | 'f' => some '\x0c'
  | 'n' => some '\n'
  | 'r' => some '\r'
  | 't' => some '\t'
  | _ => none

/-- Reads the pieces of a string up to its closing quote, and the rest behind
it. Control characters have to be escaped. -/
def scanString : List Char → Option (List StringPiece × List Char)
  | [] => none
  | '"' :: rest => some ([], rest)
  | '\\' :: 'u' :: first :: second :: third :: fourth :: rest => do
      let code ← hexNumber? [first, second, third, fourth]
      let (pieces, behind) ← scanString rest
      pure (.unit code :: pieces, behind)
  | '\\' :: letter :: rest => do
      let character ← simpleEscape? letter
      let (pieces, behind) ← scanString rest
      pure (.character character :: pieces, behind)
  | character :: rest =>
      if character.toNat < 0x20 ∨ character = '\\' then none
      else do
        let (pieces, behind) ← scanString rest
        pure (.character character :: pieces, behind)

def spanDigits (characters : List Char) : List Char × List Char :=
  characters.span Char.isDigit

def scanDigits (characters : List Char) : Option (List Char × List Char) :=
  match spanDigits characters with
  | ([], _) => none
  | found => some found

/-- Reads the integer part of a number: a single zero, or digits that do not
start with zero. -/
def scanInteger (characters : List Char) : Option (List Char × List Char) :=
  match characters with
  | '0' :: rest => some (['0'], rest)
  | _ => scanDigits characters

def scanFraction (characters : List Char) : Option (List Char × List Char) :=
  match characters with
  | '.' :: rest => (scanDigits rest).map fun (digits, behind) => ('.' :: digits, behind)
  | _ => some ([], characters)

def scanExponent (characters : List Char) : Option (List Char × List Char) :=
  let afterMark (mark : Char) (rest : List Char) :=
    match rest with
    | '+' :: behind =>
        (scanDigits behind).map fun (digits, behind) => (mark :: '+' :: digits, behind)
    | '-' :: behind =>
        (scanDigits behind).map fun (digits, behind) => (mark :: '-' :: digits, behind)
    | _ => (scanDigits rest).map fun (digits, behind) => (mark :: digits, behind)
  match characters with
  | 'e' :: rest => afterMark 'e' rest
  | 'E' :: rest => afterMark 'E' rest
  | _ => some ([], characters)

/-- Reads a number: an optional minus sign, the integer part, and optionally a
fraction and an exponent. -/
def scanNumber (characters : List Char) : Option (List Char × List Char) := do
  let (sign, unsigned) := match characters with
    | '-' :: rest => (['-'], rest)
    | _ => ([], characters)
  let (whole, afterWhole) ← scanInteger unsigned
  let (fraction, afterFraction) ← scanFraction afterWhole
  let (exponent, behind) ← scanExponent afterFraction
  pure (sign ++ whole ++ fraction ++ exponent, behind)

def isBlank (character : Char) : Bool :=
  character = ' ' || character = '\n' || character = '\t' || character = '\r'

/-- Reads the token at the start of a text that does not start with a blank. -/
def scanToken (characters : List Char) : Option (Token × List Char) :=
  match characters with
  | '\x7b' :: rest => some (.openBrace, rest)
  | '\x7d' :: rest => some (.closeBrace, rest)
  | '[' :: rest => some (.openBracket, rest)
  | ']' :: rest => some (.closeBracket, rest)
  | ':' :: rest => some (.colon, rest)
  | ',' :: rest => some (.comma, rest)
  | '"' :: rest => (scanString rest).map fun (pieces, behind) => (.string pieces, behind)
  | 'n' :: 'u' :: 'l' :: 'l' :: rest => some (.null, rest)
  | 't' :: 'r' :: 'u' :: 'e' :: rest => some (.boolean true, rest)
  | 'f' :: 'a' :: 'l' :: 's' :: 'e' :: rest => some (.boolean false, rest)
  | _ => (scanNumber characters).map fun (spelling, behind) => (.number spelling, behind)

/-- The tokens of a text. Every step passes over at least one character, so the
number of characters bounds the number of steps. -/
def tokensWithin : Nat → List Char → Option (List Token)
  | 0, characters => if characters.isEmpty then some [] else none
  | steps + 1, characters =>
      match characters with
      | [] => some []
      | character :: rest =>
          if isBlank character then tokensWithin steps rest
          else do
            let (token, behind) ← scanToken characters
            let later ← tokensWithin steps behind
            pure (token :: later)

/-- The tokens of a text, if it consists of tokens. -/
def tokens? (text : String) : Option (List Token) :=
  tokensWithin text.toList.length text.toList

end RequestEngine.Json
