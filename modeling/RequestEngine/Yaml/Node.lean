import RequestEngine.Yaml.Token

/-!
Contract: the nodes of YAML documents.

Owns:
- nodes with their anchors and tags;
- assembling the node of the only document in a stream of tokens.

The parsing functions take a number of steps that bounds how deeply they call
each other. Every second call passes over a token, so a few steps per token are
enough.

Does not own: what aliases lead to, or what scalars mean.
-/

namespace RequestEngine.Yaml

/-- What may stand in front of the content of a node. -/
structure Properties where
  anchor : Option String := none
  tag : Option String := none
deriving DecidableEq, Repr

/-- A node. Its aliases hold references. -/
inductive Node (Reference : Type) where
  | scalar (properties : Properties) (text : String) (style : ScalarStyle)
  | sequence (properties : Properties) (items : List (Node Reference))
  | mapping (properties : Properties) (members : List (Node Reference × Node Reference))
  | alias (reference : Reference)
deriving Repr

def Node.blank {Reference : Type} : Node Reference := .scalar {} "" .plain

/-- A node as it is written: its aliases hold names. -/
abbrev WrittenNode := Node String

/-- A handle with the text that it stands for. -/
structure TagHandle where
  handle : String
  leader : String
deriving DecidableEq, Repr

def standardHandles : List TagHandle := [⟨"!", "!"⟩, ⟨"!!", "tag:yaml.org,2002:"⟩]

def fullTag? (handles : List TagHandle) (handle suffix : String) : Option String :=
  if handle = "" then some suffix
  else (handles.find? (·.handle = handle)).map fun known => known.leader ++ suffix

/-- Reads the anchor and the tag in front of a node, in either order. -/
def takeProperties (handles : List TagHandle) : List Token → Option (Properties × List Token)
  | .anchor name :: .tag handle suffix :: rest
  | .tag handle suffix :: .anchor name :: rest => do
      let tag ← fullTag? handles handle suffix
      some (⟨some name, some tag⟩, rest)
  | .anchor name :: rest => some (⟨some name, none⟩, rest)
  | .tag handle suffix :: rest => do
      let tag ← fullTag? handles handle suffix
      some (⟨none, some tag⟩, rest)
  | tokens => some ({}, tokens)

/-- The tag that a scalar has. A single exclamation mark says only that there is
no other one. -/
def scalarTag (tag : Option String) : Option String := tag.filter (· ≠ "!")

def startsWithAny (tokens expected : List Token) : Bool :=
  (tokens.head?).any expected.contains

mutual

/-- Reads a node. Block collections may stand only where `block` allows them, and
a sequence without indentation only where `indentless` does. -/
def parseNode (handles : List TagHandle) :
    Nat → Bool → Bool → List Token → Option (WrittenNode × List Token)
  | 0, _, _, _ => none
  | _ + 1, _, _, .alias name :: rest => some (.alias name, rest)
  | steps + 1, block, indentless, tokens => do
      let (properties, content) ← takeProperties handles tokens
      match content with
      | .blockEntry :: _ =>
          if indentless then
            let (items, rest) ← parseIndentless handles steps content
            some (.sequence properties items, rest)
          else if properties = {} then none
          else some (.scalar properties "" .plain, content)
      | .scalar text style :: rest =>
          some (.scalar { properties with tag := scalarTag properties.tag } text style, rest)
      | .flowSequenceStart :: rest =>
          let (items, behind) ← parseFlowItems handles steps true rest
          some (.sequence properties items, behind)
      | .flowMappingStart :: rest =>
          let (members, behind) ← parseFlowMembers handles steps true rest
          some (.mapping properties members, behind)
      | .blockSequenceStart :: rest =>
          if block then
            let (items, behind) ← parseBlockItems handles steps rest
            some (.sequence properties items, behind)
          else if properties = {} then none
          else some (.scalar properties "" .plain, content)
      | .blockMappingStart :: rest =>
          if block then
            let (members, behind) ← parseBlockMembers handles steps rest
            some (.mapping properties members, behind)
          else if properties = {} then none
          else some (.scalar properties "" .plain, content)
      | _ =>
          if properties = {} then none else some (.scalar properties "" .plain, content)

/-- Reads a node, or nothing in front of one of some tokens. -/
def parseOptional (handles : List TagHandle) :
    Nat → Bool → Bool → List Token → List Token → Option (WrittenNode × List Token)
  | 0, _, _, _, _ => none
  | steps + 1, block, indentless, absentBefore, tokens =>
      if startsWithAny tokens absentBefore then some (.blank, tokens)
      else parseNode handles steps block indentless tokens

/-- Reads the entries of a block sequence up to its end. -/
def parseBlockItems (handles : List TagHandle) :
    Nat → List Token → Option (List WrittenNode × List Token)
  | 0, _ => none
  | steps + 1, .blockEntry :: rest => do
      let (item, behind) ← parseOptional handles steps true false [.blockEntry, .blockEnd] rest
      let (items, after) ← parseBlockItems handles steps behind
      some (item :: items, after)
  | _ + 1, .blockEnd :: rest => some ([], rest)
  | _ + 1, _ => none

/-- Reads the entries of a sequence without indentation. -/
def parseIndentless (handles : List TagHandle) :
    Nat → List Token → Option (List WrittenNode × List Token)
  | 0, _ => none
  | steps + 1, .blockEntry :: rest => do
      let (item, behind) ←
        parseOptional handles steps true false [.blockEntry, .key, .value, .blockEnd] rest
      let (items, after) ← parseIndentless handles steps behind
      some (item :: items, after)
  | _ + 1, tokens => some ([], tokens)

/-- Reads the value behind a key of a block mapping. -/
def parseBlockValue (handles : List TagHandle) :
    Nat → List Token → Option (WrittenNode × List Token)
  | 0, _ => none
  | steps + 1, .value :: rest =>
      parseOptional handles steps true true [.key, .value, .blockEnd] rest
  | _ + 1, tokens => some (.blank, tokens)

/-- Reads the members of a block mapping up to its end. -/
def parseBlockMembers (handles : List TagHandle) :
    Nat → List Token → Option (List (WrittenNode × WrittenNode) × List Token)
  | 0, _ => none
  | steps + 1, .key :: rest => do
      let (key, behindKey) ←
        parseOptional handles steps true true [.key, .value, .blockEnd] rest
      let (value, behind) ← parseBlockValue handles steps behindKey
      let (members, after) ← parseBlockMembers handles steps behind
      some ((key, value) :: members, after)
  | _ + 1, .blockEnd :: rest => some ([], rest)
  | _ + 1, _ => none

/-- Reads the value behind a key in a flow collection, up to a comma or the end. -/
def parseFlowValue (handles : List TagHandle) :
    Nat → Token → List Token → Option (WrittenNode × List Token)
  | 0, _, _ => none
  | steps + 1, closing, .value :: rest =>
      parseOptional handles steps false false [.flowEntry, closing] rest
  | _ + 1, _, tokens => some (.blank, tokens)

/-- Reads the key of a pair inside a flow sequence. In front of a missing key, one
token is passed over. -/
def parsePairKey (handles : List TagHandle) :
    Nat → List Token → Option (WrittenNode × List Token)
  | 0, _ => none
  | steps + 1, tokens =>
      if startsWithAny tokens [.value, .flowEntry, .flowSequenceEnd] then
        some (.blank, tokens.drop 1)
      else parseNode handles steps false false tokens

/-- Reads an entry of a flow sequence: a node, or a pair that makes up a mapping. -/
def parseFlowItem (handles : List TagHandle) :
    Nat → List Token → Option (WrittenNode × List Token)
  | 0, _ => none
  | steps + 1, .key :: rest => do
      let (key, behindKey) ← parsePairKey handles steps rest
      let (value, behind) ← parseFlowValue handles steps .flowSequenceEnd behindKey
      some (.mapping {} [(key, value)], behind)
  | steps + 1, tokens => parseNode handles steps false false tokens

/-- Reads the entries of a flow sequence up to its end. A comma stands between
entries and may stand behind the last one. -/
def parseFlowItems (handles : List TagHandle) :
    Nat → Bool → List Token → Option (List WrittenNode × List Token)
  | 0, _, _ => none
  | steps + 1, first, tokens =>
      match tokens, first with
      | .flowSequenceEnd :: rest, _ | .flowEntry :: .flowSequenceEnd :: rest, false =>
          some ([], rest)
      | .flowEntry :: rest, false => do
          let (item, behind) ← parseFlowItem handles steps rest
          let (items, after) ← parseFlowItems handles steps false behind
          some (item :: items, after)
      | tokens, true => do
          let (item, behind) ← parseFlowItem handles steps tokens
          let (items, after) ← parseFlowItems handles steps false behind
          some (item :: items, after)
      | _, false => none

/-- Reads a member of a flow mapping. A key without a colon has no value. -/
def parseFlowMember (handles : List TagHandle) :
    Nat → List Token → Option ((WrittenNode × WrittenNode) × List Token)
  | 0, _ => none
  | steps + 1, .key :: rest => do
      let (key, behindKey) ←
        parseOptional handles steps false false [.value, .flowEntry, .flowMappingEnd] rest
      let (value, behind) ← parseFlowValue handles steps .flowMappingEnd behindKey
      some ((key, value), behind)
  | steps + 1, tokens => do
      let (key, behind) ← parseNode handles steps false false tokens
      some ((key, .blank), behind)

/-- Reads the members of a flow mapping up to its end. -/
def parseFlowMembers (handles : List TagHandle) :
    Nat → Bool → List Token → Option (List (WrittenNode × WrittenNode) × List Token)
  | 0, _, _ => none
  | steps + 1, first, tokens =>
      match tokens, first with
      | .flowMappingEnd :: rest, _ | .flowEntry :: .flowMappingEnd :: rest, false =>
          some ([], rest)
      | .flowEntry :: rest, false => do
          let (member, behind) ← parseFlowMember handles steps rest
          let (members, after) ← parseFlowMembers handles steps false behind
          some (member :: members, after)
      | tokens, true => do
          let (member, behind) ← parseFlowMember handles steps tokens
          let (members, after) ← parseFlowMembers handles steps false behind
          some (member :: members, after)
      | _, false => none

end

/-- The directives read so far. -/
structure Directives where
  versioned : Bool := false
  handles : List TagHandle := []

/-- Reads the directives in front of a document. A version may be given once, and
has to be one of two; a handle may be given once. -/
def takeDirectives (directives : Directives) : List Token → Option (Directives × List Token)
  | .versionDirective major minor :: rest =>
      if directives.versioned ∨ major ≠ 1 ∨ (minor ≠ 1 ∧ minor ≠ 2) then none
      else takeDirectives { directives with versioned := true } rest
  | .tagDirective handle leader :: rest =>
      if directives.handles.any (·.handle = handle) then none
      else
        takeDirectives { directives with handles := directives.handles ++ [⟨handle, leader⟩] } rest
  | tokens => some (directives, tokens)

/-- Whether a token can only stand outside of the content of a document. -/
def endsContent : Token → Bool
  | .versionDirective .. | .tagDirective .. | .documentStart | .documentEnd | .streamEnd => true
  | _ => false

/-- The number of steps that is enough for so many tokens. -/
def stepsFor (tokens : List Token) : Nat := 8 * tokens.length + 32

/-- Reads a document that starts with directives or with its marker. -/
def parseExplicit (tokens : List Token) : Option (WrittenNode × List Token) := do
  let (directives, behind) ← takeDirectives {} tokens
  match behind with
  | .documentStart :: content =>
      if (content.head?).any endsContent then some (.blank, content)
      else
        parseNode (directives.handles ++ standardHandles) (stepsFor content) true false content
  | _ => none

/-- Whether the stream has ended behind a document. -/
def streamEnds (tokens : List Token) : Bool :=
  tokens.dropWhile (· = .documentEnd) = [.streamEnd]

/-- The node of the document in a stream. A stream can be empty, but it must not
hold a second document. -/
def nodeOf? : List Token → Option (Option WrittenNode)
  | .streamStart :: [.streamEnd] => some none
  | .streamStart :: tokens => do
      let explicit := (tokens.head?).any fun token => token ≠ .documentEnd && endsContent token
      let (node, behind) ←
        if explicit then parseExplicit tokens
        else parseNode standardHandles (stepsFor tokens) true false tokens
      if streamEnds behind then some (some node) else none
  | _ => none

end RequestEngine.Yaml
