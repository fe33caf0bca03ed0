import Mathlib.Algebra.BigOperators.Fin
import Mathlib.Algebra.BigOperators.Finprod
import Mathlib.Data.Set.Card
import Mathlib.Logic.Relation
import Mathlib.Order.CompletePartialOrder
import RequestEngine.Graph

/-!
Contract: dependency paths of declarations.

Owns:
- what a name depends on, and the names that are sound: everything that they
  reach is declared, and they reach no cycle;
- the dependency paths that start at a name, with the weight at their ends;
- induction over sound names;
- the paths of a name in terms of the paths of its dependencies;
- what a graph declares.

Nothing here computes anything. The analyses of a graph are measured by these
definitions.

Does not own: evaluations.
-/

namespace RequestEngine

/-- What the declared names are declared as. -/
abbrev Declarations := String → Option DeclarationEntry

namespace Declarations

variable (declared : Declarations)

def names : Set String := {name | (declared name).isSome}

/-- A declaration mentions a name among its dependencies. -/
def DependsOn (name needed : String) : Prop :=
  ∃ entry, declared name = some entry ∧ needed ∈ entry.dependsOn

/-- A name can be reached through dependencies. A name reaches itself. -/
def Reaches : String → String → Prop := Relation.ReflTransGen declared.DependsOn

/-- Everything that a name reaches is declared, and it reaches no cycle. -/
structure Sound (name : String) : Prop where
  declares : ∀ other, declared.Reaches name other → other ∈ declared.names
  acyclic : ∀ other, declared.Reaches name other →
    ¬ Relation.TransGen declared.DependsOn other other

/-- The declaration that a dependency path leads to. A path lists positions: which
dependency of the first declaration it takes, which one of the second, and so on.
A dependency that is listed twice is on two paths. -/
def follow (name : String) : List Nat → Option DeclarationEntry
  | [] => declared name
  | position :: rest => do
      let entry ← declared name
      let needed ← entry.dependsOn[position]?
      follow needed rest

/-- The dependency paths that start at a name. -/
def paths (name : String) : Set (List Nat) := {path | (declared.follow name path).isSome}

/-- The weight of the last declaration of a path. -/
def endWeight (name : String) (path : List Nat) : Nat :=
  ((declared.follow name path).map (·.weight.toNat)).getD 0

/-- The weights at the ends of all paths that start at a name. -/
noncomputable def weightOver (name : String) : Nat :=
  ∑ᶠ path ∈ declared.paths name, declared.endWeight name path

def lengths (name : String) : Set Nat := List.length '' declared.paths name

/-- The lengths of the paths from somewhere that go through one of several names first. -/
def lengthsThrough (names : List String) : Set Nat :=
  {length | ∃ needed ∈ names, ∃ below ∈ declared.lengths needed, length = below + 1}

variable {declared} {name needed other : String} {entry : DeclarationEntry}

/-! ### Sound names -/

theorem Sound.declaration (sound : declared.Sound name) : ∃ entry, declared name = some entry :=
  Option.isSome_iff_exists.mp (sound.declares name .refl)

theorem Sound.of_reaches (sound : declared.Sound name) (reaches : declared.Reaches name other) :
    declared.Sound other where
  declares further onward := sound.declares further (reaches.trans onward)
  acyclic further onward := sound.acyclic further (reaches.trans onward)

theorem Sound.reachable_subset (sound : declared.Sound name) :
    {other | declared.Reaches name other} ⊆ declared.names :=
  fun other reaches => sound.declares other reaches

/-- A sound name reaches more than the names that it depends on. -/
theorem Sound.reachable_ssubset (sound : declared.Sound name)
    (depends : declared.DependsOn name needed) :
    {other | declared.Reaches needed other} ⊂ {other | declared.Reaches name other} := by
  have below : {other | declared.Reaches needed other} ⊆ {other | declared.Reaches name other} :=
    fun other reaches => .head depends reaches
  refine (Set.ssubset_iff_of_subset below).mpr ⟨name, .refl, fun back => ?_⟩
  exact sound.acyclic name .refl (.head' depends back)

/-- Induction over the names that a sound name reaches. -/
theorem Sound.induction (motive : String → Prop) (finite : declared.names.Finite)
    (step : ∀ name entry, declared.Sound name → declared name = some entry →
      (∀ needed ∈ entry.dependsOn, declared.Sound needed ∧ motive needed) → motive name)
    (sound : declared.Sound name) : motive name := by
  -- The number of names that are reached decreases along every dependency.
  induction size : {other | declared.Reaches name other}.ncard using Nat.strong_induction_on
    generalizing name with
  | _ size inductionHypothesis =>
      obtain ⟨entry, found⟩ := sound.declaration
      refine step name entry sound found fun needed isNeeded => ?_
      have depends : declared.DependsOn name needed := ⟨entry, found, isNeeded⟩
      have neededSound := sound.of_reaches (.single depends)
      have smaller := Set.ncard_lt_ncard (sound.reachable_ssubset depends)
        (finite.subset sound.reachable_subset)
      rw [size] at smaller
      exact ⟨neededSound, inductionHypothesis _ smaller neededSound rfl⟩

/-! ### Paths -/

theorem nil_mem_paths (found : declared name = some entry) : [] ∈ declared.paths name := by
  show (declared name).isSome = true
  rw [found]
  rfl

theorem cons_mem_paths {position : Nat} {rest : List Nat} (found : declared name = some entry) :
    position :: rest ∈ declared.paths name ↔
      ∃ needed, entry.dependsOn[position]? = some needed ∧ rest ∈ declared.paths needed := by
  show (declared.follow name (position :: rest)).isSome = true ↔ _
  rw [follow, found]
  cases taken : entry.dependsOn[position]? with
  | none => simp [taken]
  | some needed => simp [taken, paths]

/-- The paths from a name are the empty one, and those that go on from a dependency. -/
theorem paths_eq (found : declared name = some entry) :
    declared.paths name = insert [] (⋃ position : Fin entry.dependsOn.length,
      (position.val :: ·) '' declared.paths entry.dependsOn[position]) := by
  ext path
  cases path with
  | nil => simp [nil_mem_paths found]
  | cons position rest =>
      rw [cons_mem_paths found]
      constructor
      · rintro ⟨needed, taken, isPath⟩
        obtain ⟨inside, rfl⟩ := List.getElem?_eq_some_iff.mp taken
        exact .inr (Set.mem_iUnion.mpr ⟨⟨position, inside⟩, rest, isPath, rfl⟩)
      · rintro (isNil | onward)
        · cases isNil
        · obtain ⟨taken, rest, isPath, same⟩ := Set.mem_iUnion.mp onward
          cases same
          exact ⟨_, List.getElem?_eq_getElem taken.isLt, isPath⟩

theorem Sound.finite_paths (finite : declared.names.Finite) (sound : declared.Sound name) :
    (declared.paths name).Finite := by
  refine sound.induction (fun name => (declared.paths name).Finite) finite
    fun name entry _ found below => ?_
  rw [paths_eq found]
  refine (Set.finite_iUnion fun position => ?_).insert _
  exact (below _ (List.getElem_mem _)).2.image _

/-- The weight over all paths from a name is its own weight and the weight over
all paths from its dependencies. -/
theorem weightOver_eq (found : declared name = some entry)
    (finite : ∀ needed ∈ entry.dependsOn, (declared.paths needed).Finite) :
    declared.weightOver name =
      entry.weight.toNat + (entry.dependsOn.map declared.weightOver).sum := by
  -- The paths fall apart into the empty one and one branch for every position.
  have branchFinite : ∀ position : Fin entry.dependsOn.length,
      ((position.val :: ·) '' declared.paths entry.dependsOn[position]).Finite :=
    fun position => (finite _ (List.getElem_mem _)).image _
  have apart : Pairwise (Function.onFun Disjoint fun position : Fin entry.dependsOn.length =>
      (position.val :: ·) '' declared.paths entry.dependsOn[position]) := by
    intro left right differs
    refine Set.disjoint_left.mpr ?_
    rintro _ ⟨_, _, rfl⟩ ⟨_, _, same⟩
    exact differs (Fin.ext (List.cons.inj same).1.symm)
  have isNew : ([] : List Nat) ∉ ⋃ position : Fin entry.dependsOn.length,
      (position.val :: ·) '' declared.paths entry.dependsOn[position] := by
    simp
  have emptyWeight : declared.endWeight name [] = entry.weight.toNat := by
    rw [endWeight, follow, found]
    rfl
  have branchWeight : ∀ position : Fin entry.dependsOn.length,
      ∑ᶠ path ∈ (position.val :: ·) '' declared.paths entry.dependsOn[position],
        declared.endWeight name path = declared.weightOver entry.dependsOn[position] := by
    intro position
    rw [finsum_mem_image (fun _ _ _ _ same => (List.cons.inj same).2)]
    refine finsum_mem_congr rfl fun rest _ => ?_
    rw [endWeight, follow, found]
    simp [endWeight]
  calc declared.weightOver name
      = declared.endWeight name [] + ∑ᶠ position : Fin entry.dependsOn.length,
          ∑ᶠ path ∈ (position.val :: ·) '' declared.paths entry.dependsOn[position],
            declared.endWeight name path := by
        rw [weightOver, paths_eq found, finsum_mem_insert _ isNew (Set.finite_iUnion branchFinite),
          finsum_mem_iUnion apart branchFinite]
    _ = entry.weight.toNat + ∑ position : Fin entry.dependsOn.length,
          declared.weightOver entry.dependsOn[position] := by
        rw [emptyWeight, finsum_congr branchWeight, finsum_eq_sum_of_fintype]
    _ = entry.weight.toNat + (entry.dependsOn.map declared.weightOver).sum := by
        rw [← Fin.sum_univ_fun_getElem]
        rfl

theorem lengths_eq (found : declared name = some entry) :
    declared.lengths name = insert 0 (declared.lengthsThrough entry.dependsOn) := by
  ext length
  constructor
  · rintro ⟨path, isPath, rfl⟩
    cases path with
    | nil => exact .inl rfl
    | cons position rest =>
        obtain ⟨needed, taken, restIsPath⟩ := (cons_mem_paths found).mp isPath
        exact .inr ⟨needed, List.mem_of_getElem? taken, _, ⟨rest, restIsPath, rfl⟩, rfl⟩
  · rintro (rfl | ⟨needed, isNeeded, _, ⟨rest, isPath, rfl⟩, rfl⟩)
    · exact ⟨[], nil_mem_paths found, rfl⟩
    · obtain ⟨position, taken⟩ := List.getElem?_of_mem isNeeded
      exact ⟨position :: rest, (cons_mem_paths found).mpr ⟨needed, taken, isPath⟩, rfl⟩

/-- The longest path through one of several names is found by going through them
one after the other. -/
theorem isGreatest_lengthsThrough_cons {rest : List String} {start longest greatest : Nat}
    (isLongest : IsGreatest (declared.lengths name) longest)
    (isGreatest : IsGreatest (insert (max start (longest + 1)) (declared.lengthsThrough rest))
      greatest) :
    IsGreatest (insert start (declared.lengthsThrough (name :: rest))) greatest := by
  have throughName : longest + 1 ∈ declared.lengthsThrough (name :: rest) :=
    ⟨name, List.mem_cons_self, longest, isLongest.1, rfl⟩
  have atLeast : max start (longest + 1) ≤ greatest := isGreatest.2 (Set.mem_insert _ _)
  constructor
  · rcases isGreatest.1 with same | ⟨needed, inRest, below, isBelow, same⟩
    · rcases le_total (longest + 1) start with early | late
      · rw [max_eq_left early] at same
        exact .inl same
      · rw [max_eq_right late] at same
        rw [same]
        exact .inr throughName
    · exact .inr ⟨needed, List.mem_cons_of_mem _ inRest, below, isBelow, same⟩
  · rintro length (rfl | ⟨needed, isNeeded, below, isBelow, rfl⟩)
    · exact (le_max_left _ _).trans atLeast
    · rcases List.mem_cons.mp isNeeded with rfl | inRest
      · have shorter := isLongest.2 isBelow
        omega
      · exact isGreatest.2 (.inr ⟨needed, inRest, below, isBelow, rfl⟩)

/-- A path from a sound name is shorter than there are names that it reaches. -/
theorem Sound.length_lt_ncard_reachable (finite : declared.names.Finite)
    (sound : declared.Sound name) :
    ∀ length ∈ declared.lengths name, length < {other | declared.Reaches name other}.ncard := by
  refine sound.induction (fun name => ∀ length ∈ declared.lengths name,
    length < {other | declared.Reaches name other}.ncard) finite
    fun name entry sound found below length isLength => ?_
  have reachableFinite := finite.subset sound.reachable_subset
  rw [lengths_eq found] at isLength
  rcases isLength with rfl | ⟨needed, isNeeded, before, isBefore, rfl⟩
  · exact (Set.ncard_pos reachableFinite).mpr ⟨name, .refl⟩
  · have shorter := (below needed isNeeded).2 before isBefore
    have fewer := Set.ncard_lt_ncard (sound.reachable_ssubset ⟨entry, found, isNeeded⟩)
      reachableFinite
    omega

theorem Sound.length_lt_ncard (finite : declared.names.Finite) (sound : declared.Sound name)
    {length : Nat} (isLength : length ∈ declared.lengths name) :
    length < declared.names.ncard :=
  (sound.length_lt_ncard_reachable finite length isLength).trans_le
    (Set.ncard_le_ncard sound.reachable_subset finite)

/-! ### Declarations in a list -/

def ofEntries (entries : List DeclarationEntry) : Declarations :=
  fun name => entries.find? (·.name = name)

/-- In a list of declarations with distinct names, each of them is found. -/
theorem ofEntries_eq_some_iff {entries : List DeclarationEntry}
    (distinct : (entries.map (·.name)).Nodup) :
    ofEntries entries name = some entry ↔ entry ∈ entries ∧ entry.name = name := by
  constructor
  · intro found
    have sameName := List.find?_some found
    exact ⟨List.mem_of_find?_eq_some found, of_decide_eq_true sameName⟩
  · rintro ⟨isListed, rfl⟩
    cases found : ofEntries entries entry.name with
    | none =>
        have absent := List.find?_eq_none.mp found entry isListed
        simp at absent
    | some other =>
        have sameName := List.find?_some found
        rw [List.inj_on_of_nodup_map distinct (List.mem_of_find?_eq_some found) isListed
          (of_decide_eq_true sameName)]

/-- The order of declarations does not matter. -/
theorem ofEntries_perm {left right : List DeclarationEntry} (perm : left.Perm right)
    (distinct : (left.map (·.name)).Nodup) : ofEntries left = ofEntries right := by
  funext name
  apply Option.ext
  intro entry
  have otherDistinct := (perm.map (·.name)).nodup_iff.mp distinct
  rw [ofEntries_eq_some_iff distinct, ofEntries_eq_some_iff otherDistinct, perm.mem_iff]

end Declarations

/-! ### The declarations of a graph -/

namespace Graph

variable (graph : Graph)

def declared : Declarations := fun name => (graph.find? name).map (·.toDeclarationEntry)

variable {graph} {name : String} {declaration : Declaration}

theorem declared_of_find? (found : graph.find? name = some declaration) :
    graph.declared name = some declaration.toDeclarationEntry := by
  rw [declared, found]
  rfl

theorem mem_names_declared :
    name ∈ graph.declared.names ↔ name ∈ graph.declarations.map (·.name) := by
  show ((graph.find? name).map _).isSome = true ↔ _
  rw [Option.isSome_map, find?, List.find?_isSome, List.mem_map]
  simp

theorem declared_of_ofEntries {path : String} {entries : List DeclarationEntry}
    (builds : ofEntries path entries = .ok graph) : graph.declared = .ofEntries entries := by
  funext name
  rw [← map_toEntry_of_ofEntries builds, Declarations.ofEntries, List.find?_map]
  rfl

theorem names_declared :
    graph.declared.names = ((graph.declarations.map (·.name)).toFinset : Set String) := by
  ext name
  rw [mem_names_declared]
  simp

variable (graph)

theorem finite_names_declared : graph.declared.names.Finite := by
  rw [names_declared]
  exact Finset.finite_toSet _

theorem ncard_names_declared : graph.declared.names.ncard ≤ graph.declarations.length := by
  rw [names_declared, Set.ncard_coe_finset]
  have fewer := List.toFinset_card_le (graph.declarations.map (·.name))
  rwa [List.length_map] at fewer

end Graph

end RequestEngine
