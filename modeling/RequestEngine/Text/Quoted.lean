import RequestEngine.Text.Unprintable

/-!
Contract: text between quotes, with everything that could be misread escaped.

Owns:
- the escape of a single character;
- quoted strings and quoted characters.

A quoted text is printable throughout: line breaks, tabs, NUL and the
backslash have two-character escapes, the delimiter is escaped where it occurs,
and every other unprintable character is written by its code point in
lower-case hexadecimal.

Does not own: reading quoted text back.
-/

namespace RequestEngine.Text

/-- Hexadecimal digits in lower case, without leading zeros. -/
def hexDigits (code : Nat) : String :=
  String.ofList (Nat.toDigits 16 code)

/-- The form of a character inside text delimited by `delimiter`. -/
def escaped (delimiter character : Char) : String :=
  if character = '\x00' then "\\0"
  else if character = '\t' then "\\t"
  else if character = '\r' then "\\r"
  else if character = '\n' then "\\n"
  else if character = '\\' then "\\\\"
  else if character = delimiter then String.ofList ['\\', character]
  else if isUnprintable character then "\\u\x7b" ++ hexDigits character.toNat ++ "\x7d"
  else String.singleton character

/-- The escaped forms of all characters, one after the other. -/
def escapedBody (delimiter : Char) (characters : List Char) : String :=
  String.join (characters.map (escaped delimiter))

def quoted (text : String) : String :=
  "\"" ++ escapedBody '"' text.toList ++ "\""

def quotedChar (character : Char) : String :=
  "'" ++ escaped '\'' character ++ "'"

@[simp]
theorem escapedBody_nil (delimiter : Char) : escapedBody delimiter [] = "" := rfl

end RequestEngine.Text
