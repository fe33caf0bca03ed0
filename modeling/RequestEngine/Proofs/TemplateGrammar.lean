import RequestEngine.Diagnostic

/-!
Contract: message templates, token by token.

Owns:
- the tokens that formats are made of, with what they look like and what they
  stand for;
- that a format of tokens is rendered to what its tokens stand for;
- that doubled braces protect a text.

Rendering knows no tokens. It looks ahead for closing braces, and after a
placeholder without an argument it reads the closing brace of that placeholder
together with the braces that follow. Both orders give the same text.

Does not own: formats with braces that belong to no token.
-/

namespace RequestEngine

namespace Template

/-- The number in a placeholder: decimal digits, at least one and as many as one
likes. -/
structure Numeral where
  digits : List Char
  nonempty : digits ≠ []
  decimal : ∀ digit ∈ digits, digit.isDigit = true

def Numeral.value (numeral : Numeral) : Nat := Nat.ofDigitChars 10 numeral.digits 0

inductive Token where
  | plain (character : Char) (notOpening : character ≠ '\x7b') (notClosing : character ≠ '\x7d')
  | openingBrace
  | closingBrace
  | placeholder (numeral : Numeral)

def Token.text : Token → List Char
  | .plain character _ _ => [character]
  | .openingBrace => ['\x7b', '\x7b']
  | .closingBrace => ['\x7d', '\x7d']
  | .placeholder numeral => '\x7b' :: (numeral.digits ++ ['\x7d'])

/-- What a token stands for. A placeholder that names no argument stands for
itself. -/
def Token.rendering (arguments : List String) : Token → String
  | .plain character _ _ => String.singleton character
  | .openingBrace => "\x7b"
  | .closingBrace => "\x7d"
  | .placeholder numeral =>
      match arguments[numeral.value]? with
      | some argument => argument
      | none => String.ofList (Token.placeholder numeral).text

def formatOf (tokens : List Token) : String := String.ofList (tokens.flatMap Token.text)

/-- A text with every brace doubled. -/
def doubled (text : List Char) : List Char :=
  text.flatMap fun character =>
    if character = '\x7b' ∨ character = '\x7d' then [character, character] else [character]

/-! ### Reading a number -/

private theorem le_ofDigitChars (digits : List Char) (start : Nat) :
    start ≤ Nat.ofDigitChars 10 digits start := by
  induction digits generalizing start with
  | nil => simp
  | cons digit rest inductionHypothesis =>
      rw [Nat.ofDigitChars_cons]
      have further := inductionHypothesis (10 * start + (digit.toNat - '0'.toNat))
      omega

private theorem foldl_appendDigit_none (digits : List Char) :
    digits.foldl appendDigit none = none := by
  induction digits with
  | nil => rfl
  | cons digit rest inductionHypothesis => exact inductionHypothesis

/-- Digits are read to their number, unless it grows beyond the bound. -/
private theorem foldl_appendDigit {digits : List Char}
    (decimal : ∀ digit ∈ digits, digit.isDigit = true) {start : Nat} (small : start < indexBound) :
    digits.foldl appendDigit (some start) =
      if Nat.ofDigitChars 10 digits start < indexBound then
        some (Nat.ofDigitChars 10 digits start) else none := by
  induction digits generalizing start with
  | nil => simp [small]
  | cons digit rest inductionHypothesis =>
      obtain ⟨isDigit, restDecimal⟩ := List.forall_mem_cons.mp decimal
      have next : appendDigit (some start) digit =
          if 10 * start + (digit.toNat - '0'.toNat) < indexBound then
            some (10 * start + (digit.toNat - '0'.toNat)) else none := by
        simp [appendDigit, isDigit, Nat.mul_comm start 10]
      rw [List.foldl_cons, next, Nat.ofDigitChars_cons]
      split
      · exact inductionHypothesis restDecimal ‹_›
      · -- What is too large already does not become smaller.
        have grows := le_ofDigitChars rest (10 * start + (digit.toNat - '0'.toNat))
        rw [foldl_appendDigit_none, if_neg (by omega)]

private theorem readIndex_digits (numeral : Numeral) :
    readIndex numeral.digits =
      if numeral.value < indexBound then some numeral.value else none := by
  have read := foldl_appendDigit numeral.decimal (by decide : 0 < indexBound)
  rw [Numeral.value, ← read]
  obtain ⟨digits, nonempty, decimal⟩ := numeral
  cases digits with
  | nil => exact absurd rfl nonempty
  | cons digit rest =>
      have notPlus : digit ≠ '+' := by
        rintro rfl
        exact absurd (decimal _ List.mem_cons_self) (by decide)
      simp [readIndex, notPlus]

private theorem beforeBrace_append {text : List Char} (noBrace : '\x7d' ∉ text)
    (rest : List Char) : beforeBrace (text ++ '\x7d' :: rest) = some text := by
  induction text with
  | nil => simp [beforeBrace]
  | cons character text inductionHypothesis =>
      rw [List.mem_cons, not_or] at noBrace
      rw [List.cons_append, beforeBrace, inductionHypothesis noBrace.2]
      · rfl
      · exact fun same => noBrace.1 same.symm

/-! ### Placeholders -/

variable {arguments : List String}

namespace Numeral

variable (numeral : Numeral)

theorem not_brace {digit : Char} (isDigit : digit ∈ numeral.digits) :
    digit ≠ '\x7b' ∧ digit ≠ '\x7d' := by
  constructor <;> rintro rfl <;> exact absurd (numeral.decimal _ isDigit) (by decide)

/-- A placeholder names the argument at its number. -/
theorem placeholder?_eq (fits : arguments.length ≤ indexBound) (rest : List Char) :
    placeholder? arguments (numeral.digits ++ '\x7d' :: rest) =
      (arguments[numeral.value]?).map (·, numeral.digits.length + 1) := by
  have before := beforeBrace_append (fun isDigit => (numeral.not_brace isDigit).2 rfl) rest
  unfold placeholder?
  simp only [before, Option.bind_eq_bind, Option.bind_some, readIndex_digits]
  by_cases small : numeral.value < indexBound
  · rw [if_pos small, Option.bind_some]
    cases arguments[numeral.value]? <;> rfl
  · rw [if_neg small, List.getElem?_eq_none (by omega)]
    rfl

end Numeral

/-! ### Rendering -/

variable (arguments) in
/-- Text without braces is copied. -/
private theorem renderFrom_append_of_no_brace {text : List Char}
    (noBrace : ∀ character ∈ text, character ≠ '\x7b' ∧ character ≠ '\x7d') (rest : List Char) :
    renderFrom arguments 0 (text ++ rest) = String.ofList text ++ renderFrom arguments 0 rest := by
  induction text with
  | nil => simp
  | cons character text inductionHypothesis =>
      obtain ⟨isPlain, further⟩ := List.forall_mem_cons.mp noBrace
      rw [List.cons_append, renderFrom_cons_of_not_brace arguments isPlain.1 isPlain.2,
        inductionHypothesis further, ← String.append_assoc, String.ofList_cons]

private theorem renderFrom_opening (rest : List Char) :
    renderFrom arguments 0 ('\x7b' :: '\x7b' :: rest) =
      "\x7b" ++ renderFrom arguments 0 rest := by
  rw [renderFrom]

private theorem renderFrom_closing (rest : List Char) :
    renderFrom arguments 0 ('\x7d' :: '\x7d' :: rest) =
      "\x7d" ++ renderFrom arguments 0 rest := by
  rw [renderFrom]

/-- A closing brace is copied when none follows. -/
private theorem renderFrom_lone_closing {rest : List Char} (noBrace : rest.head? ≠ some '\x7d') :
    renderFrom arguments 0 ('\x7d' :: rest) = "\x7d" ++ renderFrom arguments 0 rest := by
  rw [renderFrom]
  · rfl
  · exact fun further isOpening => absurd isOpening (by decide)
  · rintro further _ rfl
    exact noBrace rfl
  · exact fun isOpening => absurd isOpening (by decide)

private theorem renderFrom_placeholder (numeral : Numeral)
    (fits : arguments.length ≤ indexBound) (rest : List Char) :
    renderFrom arguments 0 ('\x7b' :: (numeral.digits ++ '\x7d' :: rest)) =
      match arguments[numeral.value]? with
      | some argument => argument ++ renderFrom arguments 0 rest
      | none =>
          "\x7b" ++ String.ofList numeral.digits ++ renderFrom arguments 0 ('\x7d' :: rest) := by
  have copied := renderFrom_append_of_no_brace arguments
    (fun _ isDigit => numeral.not_brace isDigit) ('\x7d' :: rest)
  rw [renderFrom, numeral.placeholder?_eq fits]
  · cases arguments[numeral.value]? with
    | none =>
        simp only [Option.map_none]
        rw [copied, String.append_assoc]
    | some argument => simp
  · intro further starts
    obtain ⟨digit, digits, parts⟩ := List.exists_cons_of_ne_nil numeral.nonempty
    have isFirst : digit ∈ numeral.digits := parts ▸ List.mem_cons_self
    rw [parts] at starts
    exact (numeral.not_brace isFirst).1 (List.cons.inj starts).1

/-- The text of a token begins with a closing brace only if it stands for one. -/
private theorem head?_text (token : Token) (rest : List Char) :
    token = .closingBrace ∨ (token.text ++ rest).head? ≠ some '\x7d' := by
  cases token with
  | plain character _ notClosing => exact .inr fun same => notClosing (Option.some.inj same)
  | openingBrace => exact .inr fun same => absurd (Option.some.inj same) (by decide)
  | closingBrace => exact .inl rfl
  | placeholder numeral => exact .inr fun same => absurd (Option.some.inj same) (by decide)

/-- How a token is rendered in front of a text that a closing brace can be taken
from, in whatever way it is read. -/
private theorem renderFrom_token (token : Token) (fits : arguments.length ≤ indexBound)
    {rest : List Char}
    (closing : renderFrom arguments 0 ('\x7d' :: rest) = "\x7d" ++ renderFrom arguments 0 rest) :
    renderFrom arguments 0 (token.text ++ rest) =
      token.rendering arguments ++ renderFrom arguments 0 rest := by
  cases token with
  | plain character notOpening notClosing =>
      exact renderFrom_cons_of_not_brace arguments notOpening notClosing rest
  | openingBrace => exact renderFrom_opening rest
  | closingBrace => exact renderFrom_closing rest
  | placeholder numeral =>
      have rendered := renderFrom_placeholder numeral fits rest
      rw [Token.text, List.cons_append, List.append_assoc, List.singleton_append, rendered,
        Token.rendering]
      cases arguments[numeral.value]? with
      | some argument => rfl
      | none =>
          simp only [closing, Token.text, String.ofList_cons, String.ofList_append]
          simp [String.append_assoc]

/-- Tokens are rendered one after the other, also after a closing brace that is
left from a placeholder without argument. -/
private theorem renderFrom_tokens (fits : arguments.length ≤ indexBound) (tokens : List Token) :
    let rest := tokens.flatMap Token.text
    renderFrom arguments 0 rest = String.join (tokens.map (Token.rendering arguments)) ∧
      renderFrom arguments 0 ('\x7d' :: rest) = "\x7d" ++ renderFrom arguments 0 rest := by
  induction tokens with
  | nil => exact ⟨renderFrom_nil arguments 0, renderFrom_lone_closing (by simp)⟩
  | cons token rest inductionHypothesis =>
      obtain ⟨rendered, closing⟩ := inductionHypothesis
      have here := renderFrom_token token fits closing
      refine ⟨by rw [List.flatMap_cons, here, rendered, List.map_cons, String.join_cons], ?_⟩
      rw [List.flatMap_cons]
      rcases head?_text token (rest.flatMap Token.text) with rfl | differs
      · -- The brace that is left pairs with the first one of the token, and the
        -- second one of the token is left instead.
        rw [here, Token.rendering, ← closing]
        exact renderFrom_closing ('\x7d' :: rest.flatMap Token.text)
      · exact renderFrom_lone_closing differs

variable (arguments) in
private theorem renderFrom_doubled (text : List Char) :
    renderFrom arguments 0 (doubled text) = String.ofList text := by
  induction text with
  | nil => rfl
  | cons character text inductionHypothesis =>
      rw [String.ofList_cons, ← inductionHypothesis]
      by_cases isOpening : character = '\x7b'
      · subst isOpening
        exact renderFrom_opening (doubled text)
      by_cases isClosing : character = '\x7d'
      · subst isClosing
        exact renderFrom_closing (doubled text)
      have single : doubled (character :: text) = character :: doubled text := by
        simp [doubled, isOpening, isClosing]
      rw [single, renderFrom_cons_of_not_brace arguments isOpening isClosing]

end Template

namespace DiagnosticTemplate

open Template

/-- A template whose format consists of tokens is rendered token by token: plain
characters and doubled braces stand for themselves, a placeholder for the argument
at its number, exactly as it is, or for itself if there is none. No list of
arguments is longer than there are numbers that can be read. A text with doubled
braces is rendered to that text, whatever the arguments are. -/
theorem render_follows_tokens (code : DiagnosticCode) (level : Severity)
    (arguments : List String) :
    (arguments.length ≤ indexBound → ∀ tokens : List Token,
      (⟨code, level, formatOf tokens⟩ : DiagnosticTemplate).render arguments =
        String.join (tokens.map (Token.rendering arguments))) ∧
    ∀ text : String,
      (⟨code, level, String.ofList (doubled text.toList)⟩ : DiagnosticTemplate).render arguments =
        text := by
  constructor
  · intro fits tokens
    have rendered := (renderFrom_tokens fits tokens).1
    rwa [← String.toList_ofList (l := tokens.flatMap Token.text)] at rendered
  · intro text
    have rendered := renderFrom_doubled arguments text.toList
    rwa [← String.toList_ofList (l := doubled text.toList), String.ofList_toList] at rendered

/-- An argument with braces, and a placeholder without argument in front of a
doubled brace. -/
theorem render_follows_tokens_out_of_step :
    let arguments := ["a\x7b0\x7d"]
    let tokens : List Token :=
      [.openingBrace, .placeholder ⟨['0', '0'], by decide, by simp⟩, .closingBrace,
        .plain 'é' (by decide) (by decide), .placeholder ⟨['7'], by decide, by simp⟩,
        .closingBrace]
    let template := note 'N' 1 "\x7b\x7b\x7b00\x7d\x7d\x7dé\x7b7\x7d\x7d\x7d"
    arguments.length ≤ indexBound ∧ template.format = formatOf tokens ∧
      template.render arguments = "\x7ba\x7b0\x7d\x7dé\x7b7\x7d\x7d" := by
  intro arguments tokens template
  have fits : arguments.length ≤ indexBound := by decide
  have isFormat : template.format = formatOf tokens := by decide
  have rendered := (render_follows_tokens template.code template.level arguments).1 fits tokens
  rw [← isFormat] at rendered
  exact ⟨fits, isFormat, rendered.trans (by decide)⟩

end DiagnosticTemplate

end RequestEngine
