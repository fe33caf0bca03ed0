/-!
Contract: message templates with positional placeholders.

Owns:
- rendering a format text with a list of arguments.

A doubled brace stands for one brace. A placeholder is an opening brace
followed, up to the next closing brace, by a decimal number that indexes an
argument; it is replaced by that argument, which is not scanned again. An
opening brace that starts neither is kept as it is.

Does not own: the templates of particular diagnostics.
-/

namespace RequestEngine.Template

def indexBound : Nat := 18446744073709551616

/-- Appends one decimal digit to a number that stays below the bound. -/
def appendDigit (value : Option Nat) (character : Char) : Option Nat :=
  value.bind fun value =>
    if character.isDigit then
      let next := value * 10 + (character.toNat - '0'.toNat)
      if next < indexBound then some next else none
    else none

/-- Reads an index: decimal digits below the bound, at least one, with an
optional plus sign in front. -/
def readIndex (characters : List Char) : Option Nat :=
  let digits := match characters with
    | '+' :: rest => rest
    | _ => characters
  if digits.isEmpty then none else digits.foldl appendDigit (some 0)

/-- The text before the next closing brace, if there is one. -/
def beforeBrace : List Char → Option (List Char)
  | [] => none
  | '\x7d' :: _ => some []
  | character :: rest => (beforeBrace rest).map (character :: ·)

/-- The argument that a placeholder names, with the number of characters that
the placeholder occupies after its opening brace. -/
def placeholder? (arguments : List String) (rest : List Char) : Option (String × Nat) := do
  let text ← beforeBrace rest
  let index ← readIndex text
  let argument ← arguments[index]?
  pure (argument, text.length + 1)

/-- Renders a format from the given characters on, after passing over the
first `skip` of them. -/
def renderFrom (arguments : List String) : Nat → List Char → String
  | _, [] => ""
  | skip + 1, _ :: rest => renderFrom arguments skip rest
  | 0, '\x7b' :: '\x7b' :: rest => "\x7b" ++ renderFrom arguments 0 rest
  | 0, '\x7d' :: '\x7d' :: rest => "\x7d" ++ renderFrom arguments 0 rest
  | 0, '\x7b' :: rest =>
      match placeholder? arguments rest with
      | some (argument, width) => argument ++ renderFrom arguments width rest
      | none => "\x7b" ++ renderFrom arguments 0 rest
  | 0, character :: rest => String.singleton character ++ renderFrom arguments 0 rest

def render (format : String) (arguments : List String) : String :=
  renderFrom arguments 0 format.toList

@[simp]
theorem renderFrom_nil (arguments : List String) (skip : Nat) :
    renderFrom arguments skip [] = "" := by
  cases skip <;> rfl

/-- Skipping passes over exactly that many characters. -/
@[simp]
theorem renderFrom_skip (arguments : List String) (skip : Nat) (characters : List Char) :
    renderFrom arguments skip characters = renderFrom arguments 0 (characters.drop skip) := by
  induction skip generalizing characters with
  | zero => rfl
  | succ skip inductionHypothesis =>
      cases characters with
      | nil => simp
      | cons character rest =>
          rw [renderFrom, inductionHypothesis, List.drop_succ_cons]

theorem renderFrom_cons_of_not_brace
    (arguments : List String)
    {character : Char}
    (notOpening : character ≠ '\x7b')
    (notClosing : character ≠ '\x7d')
    (rest : List Char) :
    renderFrom arguments 0 (character :: rest) =
      String.singleton character ++ renderFrom arguments 0 rest := by
  rw [renderFrom] <;> simp_all

end RequestEngine.Template
