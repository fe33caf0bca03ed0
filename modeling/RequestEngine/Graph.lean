import RequestEngine.Span

/-!
Contract: declaration graphs.

Owns:
- declarations with their weights and the names they depend on;
- graphs, whose declarations have distinct names;
- building a graph from a list of declarations, which refuses repeated names.

A name that a declaration depends on need not be declared; whoever asks for it
finds out.

Does not own: files that hold graphs, or the analyses of a graph.
-/

namespace RequestEngine

/-- A declaration as it is written down. -/
structure DeclarationEntry where
  name : String
  weight : UInt64 := 0
  dependsOn : List String := []
deriving DecidableEq, Repr

/-- A declaration of a graph. Its line is its position in the list, from one on. -/
structure Declaration extends DeclarationEntry where
  line : UInt32
deriving DecidableEq, Repr

def Declaration.span (declaration : Declaration) : Span := ⟨0, 0, declaration.line, 1⟩

/-- The line of the declaration at an index; lines that do not fit into a word
all become the last one. -/
def lineOfIndex (index : Nat) : UInt32 := UInt32.ofNat (min (index + 1) 4294967295)

/-- The first name that has occurred before, in `seen` or earlier in the list. -/
def firstRepeated? (seen : List String) : List String → Option String
  | [] => none
  | name :: rest => if name ∈ seen then some name else firstRepeated? (name :: seen) rest

/-- Without a repeated name, the names are distinct and new. -/
theorem nodup_of_firstRepeated?_eq_none {seen names : List String}
    (noneRepeated : firstRepeated? seen names = none) :
    names.Nodup ∧ ∀ name ∈ names, name ∉ seen := by
  induction names generalizing seen with
  | nil => simp
  | cons name rest inductionHypothesis =>
      unfold firstRepeated? at noneRepeated
      split at noneRepeated
      · cases noneRepeated
      · rename_i notSeen
        have later := inductionHypothesis noneRepeated
        refine ⟨List.nodup_cons.mpr ⟨fun inRest => ?_, later.1⟩, ?_⟩
        · exact later.2 name inRest (List.mem_cons_self ..)
        · intro other inNames
          rcases List.mem_cons.mp inNames with rfl | inRest
          · exact notSeen
          · exact fun inSeen => later.2 other inRest (List.mem_cons_of_mem _ inSeen)

theorem firstRepeated?_eq_none_of_nodup {seen names : List String} (distinct : names.Nodup)
    (new : ∀ name ∈ names, name ∉ seen) : firstRepeated? seen names = none := by
  induction names generalizing seen with
  | nil => rfl
  | cons name rest inductionHypothesis =>
      obtain ⟨notInRest, restDistinct⟩ := List.nodup_cons.mp distinct
      rw [firstRepeated?, if_neg (new name List.mem_cons_self)]
      refine inductionHypothesis restDistinct fun other inRest isSeen => ?_
      rcases List.mem_cons.mp isSeen with rfl | inSeen
      · exact notInRest inRest
      · exact new other (List.mem_cons_of_mem _ inRest) inSeen

/-- A graph of declarations. The path names it in messages. -/
structure Graph where
  path : String
  declarations : List Declaration
  distinct : (declarations.map (·.name)).Nodup

namespace Graph

/-- A name is declared twice. -/
structure RepeatedName where
  name : String
deriving DecidableEq, Repr

def RepeatedName.message (error : RepeatedName) : String :=
  "Duplicate declaration '" ++ error.name ++ "'"

def numbered (entries : List DeclarationEntry) : List Declaration :=
  entries.mapIdx fun index entry => { entry with line := lineOfIndex index }

@[simp]
theorem map_name_numbered (entries : List DeclarationEntry) :
    (numbered entries).map (·.name) = entries.map (·.name) := by
  apply List.ext_getElem
  · simp [numbered]
  · intro index _ _
    simp [numbered]

/-- Numbering keeps everything that was written down. -/
@[simp]
theorem map_toEntry_numbered (entries : List DeclarationEntry) :
    (numbered entries).map (·.toDeclarationEntry) = entries := by
  apply List.ext_getElem
  · simp [numbered]
  · intro index _ _
    simp [numbered]

def ofEntries (path : String) (entries : List DeclarationEntry) : Except RepeatedName Graph :=
  match repeated : firstRepeated? [] (entries.map (·.name)) with
  | some name => .error ⟨name⟩
  | none =>
      .ok
        { path := path
          declarations := numbered entries
          distinct := by
            rw [map_name_numbered]
            exact (nodup_of_firstRepeated?_eq_none repeated).1 }

/-- A graph holds the declarations that it was built from. -/
theorem map_toEntry_of_ofEntries {path : String} {entries : List DeclarationEntry} {graph : Graph}
    (builds : ofEntries path entries = .ok graph) :
    graph.declarations.map (·.toDeclarationEntry) = entries := by
  unfold ofEntries at builds
  split at builds
  · cases builds
  · cases builds
    exact map_toEntry_numbered entries

/-- A graph can be built from declarations with distinct names. -/
theorem exists_ofEntries (path : String) {entries : List DeclarationEntry}
    (distinct : (entries.map (·.name)).Nodup) : ∃ graph, ofEntries path entries = .ok graph := by
  have noneRepeated := firstRepeated?_eq_none_of_nodup distinct fun _ _ => List.not_mem_nil
  unfold ofEntries
  split
  case h_1 name repeated =>
    rw [noneRepeated] at repeated
    cases repeated
  case h_2 => exact ⟨_, rfl⟩

def empty (path : String) : Graph where
  path := path
  declarations := []
  distinct := by simp

def find? (graph : Graph) (name : String) : Option Declaration :=
  graph.declarations.find? (·.name = name)

/-- A declaration that is found has the name it was looked up by. -/
theorem name_of_find? {graph : Graph} {name : String} {declaration : Declaration}
    (found : graph.find? name = some declaration) : declaration.name = name := by
  have held := List.find?_some found
  simpa using held

end Graph

end RequestEngine
