import RequestEngine.Json.Token
import RequestEngine.Yaml.Cursor
import RequestEngine.Yaml.Token

/-!
Contract: the names in YAML texts, namely anchors, tags and directives.

Owns:
- reading the name of an anchor or an alias;
- reading tags with their handles and escaped characters;
- reading the directives in front of a document.

An escaped byte of a tag is kept as the character with that code, so tags can
be compared byte by byte.

Does not own: what tags mean.
-/

namespace RequestEngine.Yaml

/-- Whether a character may follow a name directly. -/
def mayFollowName (character : Char) : Bool :=
  character = '?' || character = ':' || character = ',' || character = ']' ||
    character = '\x7d' || character = '%' || character = '@' || character = '`'

/-- Reads the name behind the indicator of an anchor or an alias. -/
def scanName (cursor : Cursor) : Option (String × Cursor) :=
  let start := cursor.advance 1
  let name := start.run isWordCharacter
  let behind := start.advance name.length
  if ¬name.isEmpty ∧ (endsWord (behind.peek 0) ∨ behind.nextIs mayFollowName) then
    some (String.ofList name, behind)
  else none

/-- Reads a handle: an exclamation mark, a word, and usually another exclamation
mark. In a directive, the second mark can be missing only if the word is too. -/
def scanHandle (inDirective : Bool) (cursor : Cursor) : Option (List Char × Cursor) :=
  if ¬cursor.startsWith '!' then none
  else
    let start := cursor.advance 1
    let word := start.run isWordCharacter
    let behind := start.advance word.length
    if behind.startsWith '!' then some ('!' :: word ++ ['!'], behind.advance 1)
    else if inDirective ∧ ¬word.isEmpty then none
    else some ('!' :: word, behind)

/-- Whether a character may occur in a tag. Inside angle brackets and in
directives, commas and square brackets may occur too. -/
def isTagCharacter (verbatim : Bool) (character : Char) : Bool :=
  isWordCharacter character || ";/?:@&=+$.%!~*'()".toList.contains character ||
    (verbatim && (character = ',' || character = '[' || character = ']'))

/-- The number of bytes of an encoded character, told from its first byte. -/
def encodedWidth? (byte : Nat) : Option Nat :=
  if byte < 0x80 then some 1
  else if byte / 0x20 = 6 then some 2
  else if byte / 0x10 = 14 then some 3
  else if byte / 8 = 30 then some 4
  else none

def scanByte (cursor : Cursor) : Option (Nat × Cursor) :=
  match cursor.rest with
  | '%' :: first :: second :: _ =>
      (Json.hexNumber? [first, second]).map fun byte => (byte, cursor.advance 3)
  | _ => none

/-- Reads the further bytes of an encoded character. -/
def scanFurtherBytes : Nat → String → Cursor → Option (String × Cursor)
  | 0, text, cursor => some (text, cursor)
  | count + 1, text, cursor => do
      let (byte, behind) ← scanByte cursor
      if byte / 0x40 = 2 then scanFurtherBytes count (text.push (Char.ofNat byte)) behind
      else none

def scanTagText (verbatim : Bool) : Nat → String → Cursor → Option (String × Cursor)
  | 0, text, cursor => some (text, cursor)
  | steps + 1, text, cursor =>
      match cursor.peek 0 with
      | none => some (text, cursor)
      | some character =>
          if ¬isTagCharacter verbatim character then some (text, cursor)
          else if character = '%' then do
            let (byte, behind) ← scanByte cursor
            let width ← encodedWidth? byte
            let (grown, after) ←
              scanFurtherBytes (width - 1) (text.push (Char.ofNat byte)) behind
            scanTagText verbatim steps grown after
          else scanTagText verbatim steps (text.push character) (cursor.advance 1)

/-- Reads the text of a tag, which must not be empty. -/
def scanTagUri (verbatim : Bool) (cursor : Cursor) : Option (String × Cursor) := do
  let (text, behind) ← scanTagText verbatim cursor.rest.length "" cursor
  if text = "" then none else some (text, behind)

def scanVerbatimTag (cursor : Cursor) : Option (Token × Cursor) := do
  let (suffix, behind) ← scanTagUri true (cursor.advance 2)
  if behind.startsWith '>' then some (.tag "" suffix, behind.advance 1) else none

/-- Reads a tag with a handle, or a tag that is relative to the primary handle. A
single exclamation mark is a tag of its own. -/
def scanShortTag (cursor : Cursor) : Option (Token × Cursor) := do
  let (handle, behind) ← scanHandle false cursor
  if 1 < handle.length ∧ handle.getLast? = some '!' then
    let (suffix, after) ← scanTagUri false behind
    some (.tag (String.ofList handle) suffix, after)
  else
    let (text, after) ←
      scanTagText false behind.rest.length (String.ofList (handle.drop 1)) behind
    some (if text = "" then .tag "" "!" else .tag "!" text, after)

/-- Reads a tag. It ends with its word, or in front of a comma in a flow
collection. -/
def scanTag (inFlow : Bool) (cursor : Cursor) : Option (Token × Cursor) := do
  let (token, behind) ←
    if cursor.peek 1 = some '<' then scanVerbatimTag cursor else scanShortTag cursor
  if endsWord (behind.peek 0) ∨ (inFlow ∧ behind.startsWith ',') then some (token, behind)
  else none

/-- The greatest number of digits in a part of a version. -/
def greatestVersionDigits : Nat := 9

def scanVersionPart (cursor : Cursor) : Option (Nat × Cursor) :=
  let digits := cursor.run Char.isDigit
  if digits.isEmpty ∨ greatestVersionDigits < digits.length then none
  else
    some (digits.foldl (fun value digit => 10 * value + (digit.toNat - '0'.toNat)) 0,
      cursor.advance digits.length)

def scanVersionDirective (cursor : Cursor) : Option (Token × Cursor) := do
  let (major, behindMajor) ← scanVersionPart (cursor.skipWhile isBlank)
  if ¬behindMajor.startsWith '.' then none
  else
    let (minor, behind) ← scanVersionPart (behindMajor.advance 1)
    some (.versionDirective major minor, behind)

/-- Reads the handle and what it stands for behind their directive. -/
def scanTagDirective (cursor : Cursor) : Option (Token × Cursor) := do
  let (handle, behindHandle) ← scanHandle true (cursor.skipWhile isBlank)
  if ¬behindHandle.nextIs isBlank then none
  else
    let (leader, behind) ← scanTagUri true (behindHandle.skipWhile isBlank)
    if endsWord (behind.peek 0) then
      some (.tagDirective (String.ofList handle) leader, behind)
    else none

def scanDirective (cursor : Cursor) : Option (Token × Cursor) :=
  let start := cursor.advance 1
  let name := start.run isWordCharacter
  let behind := start.advance name.length
  if ¬endsWord (behind.peek 0) then none
  else if name = "YAML".toList then scanVersionDirective behind
  else if name = "TAG".toList then scanTagDirective behind
  else none

end RequestEngine.Yaml
