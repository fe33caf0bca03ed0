import RequestEngine.Document
import RequestEngine.Json.Value

/-!
Contract: JSON values as documents.

Owns:
- how records, lists, texts, truth values and numbers are read from values.

A record is an object, or an array of its fields in order; missing fields at
the end of the array are absent, and surplus items are refused.

Does not own: the grammar of JSON.
-/

namespace RequestEngine.Json

def namedMembers? (members : List (List StringPiece × Value)) : Option (List (String × Value)) :=
  members.mapM fun (pieces, value) => (text? pieces).map fun name => (name, value)

def record? (names : List String) : Value → Option (List (Option Value))
  | .object members => (namedMembers? members).bind (Document.fieldsOf names)
  | .array items =>
      if items.length ≤ names.length then
        some (items.map some ++ List.replicate (names.length - items.length) none)
      else none
  | _ => none

def items? : Value → Option (List Value)
  | .array items => some items
  | _ => none

def stringText? : Value → Option String
  | .string pieces => text? pieces
  | _ => none

def boolean? : Value → Option Bool
  | .boolean value => some value
  | _ => none

def naturalUpTo? (greatest : Nat) : Value → Option Nat
  | .number spelling => (natural? spelling).filter (· ≤ greatest)
  | _ => none

/-- JSON values as a document format. Nothing in JSON refers to anything else. -/
def document : Document Value where
  record names node := (record? names node : Option _)
  items node := (items? node : Option _)
  text node := (stringText? node : Option _)
  boolean node := (boolean? node : Option _)
  natural greatest node := (naturalUpTo? greatest node : Option _)

end RequestEngine.Json
