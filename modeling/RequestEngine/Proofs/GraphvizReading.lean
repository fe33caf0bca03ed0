import Mathlib.Data.List.Basic
import RequestEngine.Proofs.NodeNumbers
import RequestEngine.Proofs.PrintedLines

/-!
Contract: reading a recorded graph back from its DOT text.

Owns:
- a reader of quoted labels, of node lines and of edge lines;
- that the text of a graph is read back to its labelled nodes and its edges.

Does not own: how numbers are given, or DOT files of other origin.
-/

namespace RequestEngine

/-! ### Quoted labels -/

/-- Every occurrence of a character replaced by a text. -/
def replaced (target : Char) (replacement label : List Char) : List Char :=
  label.flatMap fun character => if character = target then replacement else [character]

/-- A label is escaped by replacing backslashes first, and quotes after that. -/
theorem escapedLabel_eq_replaced (label : List Char) :
    escapedLabel label = replaced '"' ['\\', '"'] (replaced '\\' ['\\', '\\'] label) := by
  unfold escapedLabel replaced
  rw [List.flatMap_assoc]
  refine List.flatMap_congr fun character _ => ?_
  by_cases isBackslash : character = '\\'
  · subst isBackslash
    rfl
  · by_cases isQuote : character = '"' <;> simp [isBackslash, isQuote]

/-- Reads a label up to its closing quote. A backslash stands in front of a backslash
or a quote, and is dropped. -/
def readQuoted : List Char → Option (List Char × List Char)
  | [] => none
  | '"' :: rest => some ([], rest)
  | '\\' :: character :: rest =>
      if character = '\\' ∨ character = '"' then
        (readQuoted rest).map fun (label, behind) => (character :: label, behind)
      else none
  | character :: rest =>
      (readQuoted rest).map fun (label, behind) => (character :: label, behind)

/-- An escaped label is read back, and reading ends at its closing quote. -/
theorem readQuoted_escapedLabel (label rest : List Char) :
    readQuoted (escapedLabel label ++ '"' :: rest) = some (label, rest) := by
  induction label with
  | nil => rfl
  | cons character label inductionHypothesis =>
      have further : escapedLabel (character :: label) =
          escapedLabel [character] ++ escapedLabel label := escapedLabel_append [character] label
      rw [further, List.append_assoc]
      by_cases isEscaped : character = '\\' ∨ character = '"'
      · have written : escapedLabel [character] = ['\\', character] := by
          simp [escapedLabel, isEscaped]
        rw [written, List.cons_append, List.singleton_append, readQuoted, if_pos isEscaped,
          inductionHypothesis]
        rfl
      · have written : escapedLabel [character] = [character] := by
          simp [escapedLabel, isEscaped]
        rw [not_or] at isEscaped
        rw [written, List.singleton_append, readQuoted, inductionHypothesis]
        · rfl
        · exact isEscaped.2
        · exact fun _ _ isBackslash => absurd isBackslash isEscaped.1

theorem mem_escapedLabel {label : List Char} {character : Char}
    (notEscape : character ≠ '\\') : character ∈ escapedLabel label ↔ character ∈ label := by
  unfold escapedLabel
  rw [List.mem_flatMap]
  constructor
  · rintro ⟨source, isSource, written⟩
    split at written
    · rcases List.mem_cons.mp written with isBackslash | same
      · exact absurd isBackslash notEscape
      · exact List.mem_singleton.mp same ▸ isSource
    · exact List.mem_singleton.mp written ▸ isSource
  · intro isSource
    refine ⟨character, isSource, ?_⟩
    split <;> simp

/-! ### Node lines and edge lines -/

/-- Reads a decimal number. -/
def readNumber (text : List Char) : Option (Nat × List Char) :=
  let digits := text.takeWhile Char.isDigit
  if digits.isEmpty then none
  else some (Nat.ofDigitChars 10 digits 0, text.dropWhile Char.isDigit)

/-- Reads the number of the node that a line begins with. -/
def readNumbered (line : List Char) : Option (Nat × List Char) :=
  ("  request_".toList.isPrefixOf? line).bind readNumber

/-- Reads the number and the label of a node. -/
def readNodeLine (line : List Char) : Option (Nat × List Char) := do
  let (number, afterNumber) ← readNumbered line
  let afterQuote ← " [label=\"".toList.isPrefixOf? afterNumber
  let (label, behind) ← readQuoted afterQuote
  if behind = "];".toList then some (number, label) else none

/-- Reads the numbers of both ends of an edge. -/
def readEdgeLine (line : List Char) : Option (Nat × Nat) := do
  let (source, afterSource) ← readNumbered line
  let afterArrow ← " -> request_".toList.isPrefixOf? afterSource
  let (target, behind) ← readNumber afterArrow
  if behind = [';'] then some (source, target) else none

def numberedText (number : Nat) (behind : List Char) : List Char :=
  "  request_".toList ++ (Nat.toDigits 10 number ++ behind)

def labelText (label : List Char) : List Char :=
  " [label=\"".toList ++ (escapedLabel label ++ '"' :: "];".toList)

def arrowText (target : Nat) : List Char :=
  " -> request_".toList ++ (Nat.toDigits 10 target ++ [';'])

/-- The line of a node, without its line break. -/
def nodeText (number : Nat) (label : List Char) : List Char :=
  numberedText number (labelText label)

/-- The line of an edge, without its line break. -/
def edgeText (edge : Nat × Nat) : List Char := numberedText edge.1 (arrowText edge.2)

/-- A printed number is read back if no digit follows. -/
private theorem readNumber_toDigits (number : Nat) (rest : List Char)
    (noDigit : ∀ next ∈ rest.head?, next.isDigit = false) :
    readNumber (Nat.toDigits 10 number ++ rest) = some (number, rest) := by
  have decimal : ∀ digit ∈ Nat.toDigits 10 number, digit.isDigit = true :=
    fun digit isDigit => Nat.isDigit_of_mem_toDigits (by decide) (by decide) isDigit
  have nothing : rest.takeWhile Char.isDigit = [] ∧ rest.dropWhile Char.isDigit = rest := by
    cases rest with
    | nil => exact ⟨rfl, rfl⟩
    | cons next rest => simp [noDigit next rfl]
  have taken :
      (Nat.toDigits 10 number ++ rest).takeWhile Char.isDigit = Nat.toDigits 10 number := by
    rw [List.takeWhile_append_of_pos decimal, nothing.1, List.append_nil]
  have behind : (Nat.toDigits 10 number ++ rest).dropWhile Char.isDigit = rest := by
    rw [List.dropWhile_append_of_pos decimal, nothing.2]
  simp only [readNumber, taken, behind, Nat.ofDigitChars_ten_toDigits]
  simp [Nat.toDigits_ne_nil]

private theorem isPrefixOf?_append (start rest : List Char) :
    start.isPrefixOf? (start ++ rest) = some rest :=
  List.isPrefixOf?_eq_some_iff_append_eq.mpr rfl

private theorem readNumbered_numberedText (number : Nat) {behind : List Char}
    (isBlank : behind.head? = some ' ') :
    readNumbered (numberedText number behind) = some (number, behind) := by
  have numbered := readNumber_toDigits number behind (by simp [isBlank])
  unfold readNumbered numberedText
  rw [isPrefixOf?_append, Option.bind_some, numbered]

private theorem head?_labelText (label : List Char) : (labelText label).head? = some ' ' :=
  List.head?_append_of_ne_nil _ (by decide)

private theorem head?_arrowText (target : Nat) : (arrowText target).head? = some ' ' :=
  List.head?_append_of_ne_nil _ (by decide)

@[simp]
theorem readNodeLine_nodeText (number : Nat) (label : List Char) :
    readNodeLine (nodeText number label) = some (number, label) := by
  have numbered := readNumbered_numberedText number (head?_labelText label)
  unfold readNodeLine nodeText
  rw [numbered]
  unfold labelText
  simp only [isPrefixOf?_append, readQuoted_escapedLabel, Option.bind_eq_bind, Option.bind_some,
    if_true]

@[simp]
theorem readEdgeLine_edgeText (edge : Nat × Nat) : readEdgeLine (edgeText edge) = some edge := by
  have source := readNumbered_numberedText edge.1 (head?_arrowText edge.2)
  have target := readNumber_toDigits edge.2 [';'] (by simp)
  unfold readEdgeLine edgeText
  rw [source]
  unfold arrowText
  simp only [isPrefixOf?_append, target, Option.bind_eq_bind, Option.bind_some, if_true]

/-- Lines of edges are not read as lines of nodes. -/
@[simp]
theorem readNodeLine_edgeText (edge : Nat × Nat) : readNodeLine (edgeText edge) = none := by
  have source := readNumbered_numberedText edge.1 (head?_arrowText edge.2)
  have differs : " [label=\"".toList.isPrefixOf? (arrowText edge.2) = none := rfl
  simp only [readNodeLine, edgeText, source, differs, Option.bind_eq_bind, Option.bind_some,
    Option.bind_none]

/-- Lines of nodes are not read as lines of edges. -/
@[simp]
theorem readEdgeLine_nodeText (number : Nat) (label : List Char) :
    readEdgeLine (nodeText number label) = none := by
  have numbered := readNumbered_numberedText number (head?_labelText label)
  have differs : " -> request_".toList.isPrefixOf? (labelText label) = none := rfl
  simp only [readEdgeLine, nodeText, numbered, differs, Option.bind_eq_bind, Option.bind_some,
    Option.bind_none]

private theorem newline_not_mem_toDigits (number : Nat) : '\n' ∉ Nat.toDigits 10 number := by
  intro isDigit
  have decimal := Nat.isDigit_of_mem_toDigits (by decide) (by decide) isDigit
  exact absurd decimal (by decide)

private theorem newline_not_mem_numberedText {number : Nat} {behind : List Char}
    (noBreak : '\n' ∉ behind) : '\n' ∉ numberedText number behind := by
  unfold numberedText
  rw [List.mem_append, List.mem_append, not_or, not_or]
  exact ⟨by decide, newline_not_mem_toDigits number, noBreak⟩

theorem newline_not_mem_nodeText {number : Nat} {label : List Char} (noBreak : '\n' ∉ label) :
    '\n' ∉ nodeText number label := by
  refine newline_not_mem_numberedText ?_
  unfold labelText
  rw [List.mem_append, List.mem_append, not_or, not_or, mem_escapedLabel (by decide)]
  exact ⟨by decide, noBreak, by decide⟩

theorem newline_not_mem_edgeText (edge : Nat × Nat) : '\n' ∉ edgeText edge := by
  refine newline_not_mem_numberedText ?_
  unfold arrowText
  rw [List.mem_append, List.mem_append, not_or, not_or]
  exact ⟨by decide, newline_not_mem_toDigits edge.2, by decide⟩

/-! ### The whole text -/

namespace Recorder

variable {Request : Type} [DecidableEq Request] {recorder : Recorder Request}
variable {display : Request → String}

/-- The lines of the printed graph. -/
def graphvizLines (display : Request → String) (recorder : Recorder Request) : List (List Char) :=
  ["digraph Dependencies \x7b".toList] ++
    recorder.nodes.mapIdx (fun number request => nodeText number (display request).toList) ++
    (if recorder.numberedEdges.isEmpty then [] else [[]]) ++
    recorder.numberedEdges.map edgeText ++ ["\x7d".toList]

omit [DecidableEq Request] in
theorem toList_nodeLine (number : Nat) (request : Request) :
    (nodeLine display number request).toList =
      nodeText number (display request).toList ++ ['\n'] := by
  have closes : "\"];\n".toList = '"' :: "];".toList ++ ['\n'] := by decide
  unfold nodeLine nodeText numberedText labelText
  simp only [String.toList_append, String.toList_ofList, Nat.toString_eq_repr, Nat.toList_repr,
    closes, List.append_assoc, List.cons_append]

theorem toList_edgeLine (edge : Nat × Nat) : (edgeLine edge).toList = edgeText edge ++ ['\n'] := by
  have closes : ";\n".toList = [';'] ++ ['\n'] := by decide
  unfold edgeLine edgeText numberedText arrowText
  simp only [String.toList_append, Nat.toString_eq_repr, Nat.toList_repr, closes, List.append_assoc]

/-- The printed graph consists of its lines. -/
theorem toList_toGraphviz (display : Request → String) (recorder : Recorder Request) :
    (recorder.toGraphviz display).toList =
      (recorder.graphvizLines display).flatMap (· ++ ['\n']) := by
  have opened : "digraph Dependencies \x7b\n".toList =
      "digraph Dependencies \x7b".toList ++ ['\n'] := by decide
  have closed : "\x7d\n".toList = "\x7d".toList ++ ['\n'] := by decide
  have separated : (if recorder.numberedEdges.isEmpty then "" else "\n").toList =
      (if recorder.numberedEdges.isEmpty then ([] : List (List Char)) else [[]]).flatMap
        (· ++ ['\n']) := by
    split <;> decide
  have nodeLines : (String.join (recorder.nodes.mapIdx (nodeLine display))).toList =
      (recorder.nodes.mapIdx fun number request =>
        nodeText number (display request).toList).flatMap (· ++ ['\n']) := by
    rw [String.toList_join, List.mapIdx_eq_zipIdx_map, List.mapIdx_eq_zipIdx_map,
      List.flatMap_map, List.flatMap_map]
    exact List.flatMap_congr fun node _ => toList_nodeLine node.2 node.1
  have edgeLines : (String.join (recorder.numberedEdges.map edgeLine)).toList =
      (recorder.numberedEdges.map edgeText).flatMap (· ++ ['\n']) := by
    rw [String.toList_join, List.flatMap_map, List.flatMap_map]
    exact List.flatMap_congr fun edge _ => toList_edgeLine edge
  unfold toGraphviz graphvizLines
  simp only [String.toList_append, opened, nodeLines, separated, edgeLines, closed,
    List.flatMap_append, List.flatMap_singleton]

/-- Nothing that is printed breaks a line unless a label does. -/
theorem newline_not_mem_graphvizLines
    (noBreak : ∀ request ∈ recorder.nodes, '\n' ∉ (display request).toList) :
    ∀ line ∈ recorder.graphvizLines display, '\n' ∉ line := by
  intro line isLine
  simp only [graphvizLines, List.mem_append, List.mem_singleton] at isLine
  rcases isLine with (((rfl | isNode) | isBlank) | isEdge) | rfl
  · decide
  · obtain ⟨number, inBounds, rfl⟩ := List.mem_mapIdx.mp isNode
    exact newline_not_mem_nodeText (noBreak _ (List.getElem_mem inBounds))
  · split at isBlank
    · cases isBlank
    · simp [List.mem_singleton.mp isBlank]
  · obtain ⟨edge, _, rfl⟩ := List.mem_map.mp isEdge
    exact newline_not_mem_edgeText edge
  · decide

theorem linesOf_toGraphviz
    (noBreak : ∀ request ∈ recorder.nodes, '\n' ∉ (display request).toList) :
    Text.linesOf (recorder.toGraphviz display).toList = recorder.graphvizLines display := by
  have printed := Text.linesOf_flatMap (newline_not_mem_graphvizLines noBreak) []
  rw [toList_toGraphviz]
  simpa using printed

/-- A reader that skips the other lines reads the nodes and then the edges. -/
private theorem filterMap_graphvizLines {Item : Type} {read : List Char → Option Item}
    (display : Request → String) (recorder : Recorder Request)
    (opened : read "digraph Dependencies \x7b".toList = none) (blank : read [] = none)
    (closed : read "\x7d".toList = none) :
    (recorder.graphvizLines display).filterMap read =
      recorder.nodes.zipIdx.filterMap
          (fun node => read (nodeText node.2 (display node.1).toList)) ++
        recorder.numberedEdges.filterMap (fun edge => read (edgeText edge)) := by
  have separated : (if recorder.numberedEdges.isEmpty then ([] : List (List Char))
      else [[]]).filterMap read = [] := by
    split <;> simp [blank]
  simp only [graphvizLines, List.mapIdx_eq_zipIdx_map, List.filterMap_append, List.filterMap_map,
    separated, List.filterMap_cons, List.filterMap_nil, opened, closed, List.nil_append,
    List.append_nil]
  rfl

/-- Reading the lines gives the number and the label of every request. -/
theorem filterMap_readNodeLine (display : Request → String) (recorder : Recorder Request) :
    (recorder.graphvizLines display).filterMap readNodeLine =
      recorder.nodes.mapIdx fun number request => (number, (display request).toList) := by
  rw [filterMap_graphvizLines display recorder (by decide +kernel) rfl (by decide +kernel)]
  simp [List.mapIdx_eq_zipIdx_map]

/-- Reading the lines gives both numbers of every edge. -/
theorem filterMap_readEdgeLine (display : Request → String) (recorder : Recorder Request) :
    (recorder.graphvizLines display).filterMap readEdgeLine = recorder.numberedEdges := by
  rw [filterMap_graphvizLines display recorder (by decide +kernel) rfl (by decide +kernel)]
  simp

/-- What is guaranteed of the text that a graph is printed as. -/
structure Encodes (recorder : Recorder Request) (display : Request → String)
    (text : String) : Prop where
  /-- Walking through the graph hands out the numbers of first occurrence. -/
  numbered : recorder.handOut = (recorder.nodes, recorder.numberedEdges)
  /-- There is one node for every request that occurs in the graph. -/
  distinct : recorder.nodes.Nodup
  requests : ∀ request, request ∈ recorder.nodes ↔ request ∈ recorder.roots ∨
    ∃ entry ∈ recorder.edges, request = entry.dependent ∨ request ∈ entry.dependencies
  ordered : recorder.nodes.Pairwise fun first second =>
    recorder.occurrences.idxOf first < recorder.occurrences.idxOf second
  /-- The text consists of complete lines, and of no others. -/
  printed : text.toList = (recorder.graphvizLines display).flatMap (· ++ ['\n'])
  lines : Text.linesOf text.toList = recorder.graphvizLines display
  /-- The lines of nodes are read back to the numbers from zero on and the labels. -/
  nodes : (Text.linesOf text.toList).filterMap readNodeLine =
    recorder.nodes.mapIdx fun number request => (number, (display request).toList)
  /-- The lines of edges are read back to one pair of numbers for every edge. -/
  edges : (Text.linesOf text.toList).filterMap readEdgeLine = recorder.numberedEdges
  edgeCount : recorder.numberedEdges.length = recorder.edgeCount
  /-- The numbers of an edge are those of its dependent and of its dependency. -/
  ends : recorder.numberedEdges.map
      (fun edge => (recorder.nodes[edge.1]?, recorder.nodes[edge.2]?)) =
    recorder.recordedEdges.map fun edge => (some edge.1, some edge.2)

/-- A printed graph tells its labelled nodes and its edges if no label breaks a line.
Whatever a label is, it is read back, and reading it ends at its closing quote. In a
graph that was recorded, the nodes are the roots and the ends of the edges. -/
theorem graphviz_encodes (recorder : Recorder Request) (display : Request → String)
    (noBreak : ∀ request ∈ recorder.nodes, '\n' ∉ (display request).toList) :
    recorder.Encodes display (recorder.toGraphviz display) ∧
    (∀ label, escapedLabel label = replaced '"' ['\\', '"'] (replaced '\\' ['\\', '\\'] label) ∧
      ∀ rest, readQuoted (escapedLabel label ++ '"' :: rest) = some (label, rest)) ∧
    ∀ calls, recorder = recordAll calls → ∀ request, request ∈ recorder.nodes ↔
      request ∈ recorder.roots ∨
        ∃ edge ∈ recorder.recordedEdges, request = edge.1 ∨ request = edge.2 := by
  have lines := linesOf_toGraphviz noBreak
  refine ⟨?_, fun label => ⟨escapedLabel_eq_replaced label, readQuoted_escapedLabel label⟩, ?_⟩
  · exact {
      numbered := recorder.handOut_eq
      distinct := recorder.nodup_nodes
      requests := fun _ => mem_nodes.trans mem_occurrences
      ordered := recorder.pairwise_nodes
      printed := recorder.toList_toGraphviz display
      lines := lines
      nodes := lines ▸ recorder.filterMap_readNodeLine display
      edges := lines ▸ recorder.filterMap_readEdgeLine display
      edgeCount := recorder.length_numberedEdges
      ends := recorder.ends_of_numberedEdges }
  · rintro calls rfl request
    exact (filled_recordAll calls).mem_nodes

/-- A request whose form ends in a backslash, and another one whose form is quoted. -/
theorem graphviz_encodes_quoted :
    let recorder : Recorder String := ⟨["Read(\"a\")"], [⟨"Read(\"a\")", ["b\\", "Read(\"a\")"]⟩]⟩
    (∀ request ∈ recorder.nodes, '\n' ∉ request.toList) ∧
      (Text.linesOf (recorder.toGraphviz id).toList).filterMap readNodeLine =
        [(0, "Read(\"a\")".toList), (1, "b\\".toList)] ∧
      (Text.linesOf (recorder.toGraphviz id).toList).filterMap readEdgeLine = [(0, 1), (0, 0)] := by
  intro recorder
  have noBreak : ∀ request ∈ recorder.nodes, '\n' ∉ request.toList := by decide +kernel
  obtain ⟨encodes, _⟩ := recorder.graphviz_encodes id noBreak
  exact ⟨noBreak, encodes.nodes.trans (by decide +kernel), encodes.edges.trans (by decide +kernel)⟩

end Recorder

end RequestEngine
