import RequestEngine.Document
import RequestEngine.Yaml.Lexer
import RequestEngine.Yaml.Node

/-!
Contract: YAML nodes as documents.

Owns:
- what aliases lead to;
- how records, lists, texts, truth values and numbers are read from nodes.

Anchors are numbered by how many different names there were before. A name that
is used again gets a new number, and the last node with a number is the one that
every alias with that number leads to. An alias may stand inside the node that
it leads to.

A record or a list may be left empty. Following aliases too often is refused.

Does not own: the grammar of YAML.
-/

namespace RequestEngine.Yaml

/-- A node whose aliases hold the numbers of anchors. -/
abbrev LinkedNode := Node Nat

/-- The current number of an anchor. -/
structure AnchorName where
  name : String
  number : Nat
deriving DecidableEq, Repr

/-- A node with an anchor, and its place among all parts of the document. -/
structure AnchoredNode where
  number : Nat
  place : Nat
  node : LinkedNode

/-- The state of linking. Every scalar and alias is one part of a document; every
collection is two, its start and its end. -/
structure Linking where
  names : List AnchorName := []
  anchored : List AnchoredNode := []
  parts : Nat := 0

namespace Linking

/-- Numbers the anchor of a node that starts here. -/
def enter (linking : Linking) (anchor : Option String) : Option Nat × Linking :=
  let entered := { linking with parts := linking.parts + 1 }
  match anchor with
  | none => (none, entered)
  | some name =>
      let number := linking.names.length
      (some number,
        { entered with names := ⟨name, number⟩ :: linking.names.filter (·.name ≠ name) })

/-- Keeps a node that started at a place, if it has an anchor. -/
def keep (linking : Linking) (number : Option Nat) (place : Nat) (node : LinkedNode) : Linking :=
  match number with
  | none => linking
  | some number => { linking with anchored := linking.anchored ++ [⟨number, place, node⟩] }

def leave (linking : Linking) : Linking := { linking with parts := linking.parts + 1 }

def number? (linking : Linking) (name : String) : Option Nat :=
  (linking.names.find? (·.name = name)).map (·.number)

end Linking

mutual

/-- Links the aliases of a node. An alias has to follow its anchor. -/
def linkNode : WrittenNode → Linking → Option (LinkedNode × Linking)
  | .alias name, linking =>
      (linking.number? name).map fun number => (.alias number, (linking.enter none).2)
  | .scalar properties text style, linking =>
      let (number, entered) := linking.enter properties.anchor
      let node := .scalar properties text style
      some (node, entered.keep number linking.parts node)
  | .sequence properties items, linking =>
      let (number, entered) := linking.enter properties.anchor
      (linkItems items entered).map fun (linked, behind) =>
        (.sequence properties linked,
          behind.leave.keep number linking.parts (.sequence properties linked))
  | .mapping properties members, linking =>
      let (number, entered) := linking.enter properties.anchor
      (linkMembers members entered).map fun (linked, behind) =>
        (.mapping properties linked,
          behind.leave.keep number linking.parts (.mapping properties linked))

def linkItems : List WrittenNode → Linking → Option (List LinkedNode × Linking)
  | [], linking => some ([], linking)
  | item :: rest, linking =>
      match linkNode item linking with
      | none => none
      | some (linked, behind) =>
          (linkItems rest behind).map fun (further, after) => (linked :: further, after)

/-- Links the members of a mapping in order, every key before its value. -/
def linkMembers : List (WrittenNode × WrittenNode) → Linking →
    Option (List (LinkedNode × LinkedNode) × Linking)
  | [], linking => some ([], linking)
  | (key, value) :: rest, linking =>
      match linkNode key linking with
      | none => none
      | some (linkedKey, behindKey) =>
          match linkNode value behindKey with
          | none => none
          | some (linkedValue, behind) =>
              (linkMembers rest behind).map fun (further, after) =>
                ((linkedKey, linkedValue) :: further, after)

end

/-- A document with everything that its aliases need. -/
structure Source where
  root : LinkedNode
  anchored : List AnchoredNode
  /-- How often aliases may be followed. -/
  greatestJumps : Nat

/-- Aliases may be followed so many times for every part of the document. -/
def jumpsPerPart : Nat := 100

/-- The document that a text holds. An empty text holds a node where nothing is
written. -/
def source? (text : String) : Option Source := do
  let tokens ← tokens? text
  let written ← nodeOf? tokens
  let (root, linking) ← linkNode (written.getD .blank) {}
  some ⟨root, linking.anchored, linking.parts * jumpsPerPart⟩

namespace Source

def anchoredNode? (source : Source) (number : Nat) : Option LinkedNode :=
  let candidates := source.anchored.filter (·.number = number)
  (candidates.foldl
    (fun latest candidate =>
      match latest with
      | none => some candidate
      | some other => if other.place < candidate.place then some candidate else some other)
    none).map (·.node)

/-- What a node stands for: itself, or what it leads to. -/
def follow (source : Source) : LinkedNode → Reading LinkedNode
  | .alias number => do
      let jumps := (← get) + 1
      set jumps
      if source.greatestJumps < jumps then failure
      else (source.anchoredNode? number : Option LinkedNode)
  | node => pure node

def text (source : Source) (node : LinkedNode) : Reading String := do
  match ← source.follow node with
  | .scalar _ text _ => pure text
  | _ => failure

/-- The items of a sequence; a node where nothing is written has none. -/
def items (source : Source) (node : LinkedNode) : Reading (List LinkedNode) := do
  match ← source.follow node with
  | .sequence _ items => pure items
  | .scalar _ "" .plain => pure []
  | _ => failure

/-- The fields of a mapping; a node where nothing is written has none. -/
def record (source : Source) (names : List String) (node : LinkedNode) :
    Reading (List (Option LinkedNode)) := do
  match ← source.follow node with
  | .mapping _ members =>
      let named ← members.mapM fun (key, value) => do pure (← source.text key, value)
      (Document.fieldsOf names named : Option _)
  | .scalar _ "" .plain => pure (names.map fun _ => none)
  | _ => failure

/-- The text of a scalar that may denote a value: a plain one, or a literal one
with the tag of the value. -/
def literalText (source : Source) (tag : String) (node : LinkedNode) : Reading String := do
  match ← source.follow node with
  | .scalar properties text style =>
      if style = .plain ∨ (style = .literal ∧ properties.tag = some tag) then pure text
      else failure
  | _ => failure

end Source

def boolean? (text : String) : Option Bool :=
  if text ∈ ["true", "True", "TRUE"] then some true
  else if text ∈ ["false", "False", "FALSE"] then some false
  else none

/-- The value of a digit, if it is below the base. -/
def digitValue? (base : Nat) (digit : Char) : Option Nat :=
  (Json.hexValue? digit).filter (· < base)

/-- The number that digits denote. There has to be one. -/
def digitsValue? (base : Nat) (digits : List Char) : Option Nat :=
  if digits.isEmpty then none
  else
    digits.foldl
      (fun value digit => do
        let value ← value
        let next ← digitValue? base digit
        some (base * value + next))
      (some 0)

/-- The natural number of a spelling: hexadecimal, octal, binary or decimal digits
behind an optional plus sign. Decimal digits must not start with a zero. -/
def natural? (text : String) : Option Nat :=
  let unsigned := match text.toList with
    | '+' :: rest => rest
    | characters => characters
  match unsigned with
  | '0' :: 'x' :: digits => digitsValue? 16 digits
  | '0' :: 'o' :: digits => digitsValue? 8 digits
  | '0' :: 'b' :: digits => digitsValue? 2 digits
  | '0' :: _ :: _ => none
  | digits => digitsValue? 10 digits

def document (source : Source) : Document LinkedNode where
  record := source.record
  items := source.items
  text := source.text
  boolean node := do (boolean? (← source.literalText "tag:yaml.org,2002:bool" node) : Option _)
  natural greatest node := do
    let text ← source.literalText "tag:yaml.org,2002:int" node
    ((natural? text).filter (· ≤ greatest) : Option _)

end RequestEngine.Yaml
