/-!
Contract: reading structured documents without looking at their format.

Owns:
- the operations that every document format offers for its nodes;
- readings, which may fail and which count how often they follow a reference.

A document says only that it cannot be read, and not why.

Does not own: any format, or what documents are about.
-/

namespace RequestEngine

/-- A reading of a document. It may fail, and it counts followed references. -/
abbrev Reading := StateT Nat Option

/-- What can be asked of the nodes of a document. -/
structure Document (Node : Type) where
  /-- The nodes of the named fields of a record, in the order of the names. A field
  may be absent but not repeated; fields with other names are passed over. -/
  record : List String → Node → Reading (List (Option Node))
  /-- The items of a list. -/
  items : Node → Reading (List Node)
  /-- A text. -/
  text : Node → Reading String
  /-- A truth value. -/
  boolean : Node → Reading Bool
  /-- A natural number up to a greatest one. -/
  natural : Nat → Node → Reading Nat

namespace Document

variable {Node α : Type}

def required (read : Node → Reading α) : Option Node → Reading α
  | some node => read node
  | none => failure

/-- Reads a field, or takes a default in its place. -/
def optional (default : α) (read : Node → Reading α) : Option Node → Reading α
  | some node => read node
  | none => pure default

/-- The fields of a record from the members of a document. A name that occurs
twice is refused. -/
def fieldsOf (names : List String) (members : List (String × Node)) :
    Option (List (Option Node)) :=
  names.mapM fun name =>
    match members.filter (·.1 = name) with
    | [] => some none
    | [member] => some (some member.2)
    | _ :: _ :: _ => none

def Reading.result? (reading : Reading α) : Option α := (reading.run 0).map (·.1)

@[simp]
theorem required_some (read : Node → Reading α) (node : Node) :
    required read (some node) = read node := rfl

@[simp]
theorem optional_none (default : α) (read : Node → Reading α) :
    optional default read none = pure default := rfl

end Document

end RequestEngine
