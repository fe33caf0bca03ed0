import RequestEngine.Proofs.AnalysisProgram
import RequestEngine.Proofs.DependencyPaths

/-!
Contract: what the analyses of a graph settle on.

Owns:
- the total weight of a name settles exactly if the name is sound, on the weight
  over all of its dependency paths, as far as a word can hold it;
- the depth of a name settles exactly if the name is sound, on the length of its
  longest dependency path.

Nothing here depends on an evaluator, on what it keeps, or on the order of its
evaluations.

Does not own: running the analyses.
-/

namespace RequestEngine.Analysis

open Program

variable {graph : Graph} {name needed : String} {α : Type}

/-- A question settles on a value. -/
def HasValue (graph : Graph) (request : AnalysisRequest) : Prop :=
  ∃ value, Settles (program graph) ((program graph).compute request) (.ok value)

theorem settles_lookup {declaration : Declaration} :
    Settles (program graph) ((program graph).compute (.lookup name)) (.ok declaration) ↔
      graph.find? name = some declaration := by
  show Settles (program graph) (compute graph (.lookup name)) (.ok declaration) ↔ _
  unfold compute
  constructor
  · intro settles
    cases found : graph.find? name with
    | none =>
        simp only [found] at settles
        cases settles
    | some other =>
        simp only [found] at settles
        cases settles
        rfl
  · intro found
    simp only [found]
    exact .done

/-! ### Visiting dependencies -/

section Visit

variable {question : String → AnalysisRequest}
variable {add : α → {name : String} → AnalysisValue (question name) → AnalysisComputation α}
variable {start : Declaration → α} {found result : α} {names : List String}

/-- Every question that a visit asks is needed and has a value. -/
theorem asks_of_settles_visit
    (settles : Settles (program graph) (visit question add found names) (.ok result)) :
    ∀ needed ∈ names, HasValue graph (question needed) ∧
      Asks (program graph) (visit question add found names) (question needed) := by
  induction names generalizing found with
  | nil => simp
  | cons name rest inductionHypothesis =>
      obtain ⟨answer, evaluates, goesOn⟩ := settles_bind.mp settles
      obtain ⟨next, adds, visits⟩ := settles_bind.mp goesOn
      intro needed isNeeded
      rcases List.mem_cons.mp isNeeded with rfl | inRest
      · exact ⟨⟨answer, settles_evaluate.mp evaluates⟩, .now⟩
      · obtain ⟨hasValue, asks⟩ := inductionHypothesis visits needed inRest
        exact ⟨hasValue, .bind evaluates (.bind adds asks)⟩

theorem settles_examine :
    Settles (program graph) (examine question add start name) (.ok result) ↔
      ∃ declaration, graph.find? name = some declaration ∧
        Settles (program graph) (visit question add (start declaration) declaration.dependsOn)
          (.ok result) := by
  refine settles_bind.trans (exists_congr fun declaration => and_congr_left' ?_)
  exact settles_evaluate.trans settles_lookup

theorem asks_of_settles_examine
    (settles : Settles (program graph) (examine question add start name) (.ok result)) :
    name ∈ graph.declared.names ∧ ∀ needed, graph.declared.DependsOn name needed →
      HasValue graph (question needed) ∧
        Asks (program graph) (examine question add start name) (question needed) := by
  obtain ⟨declaration, isFound, visits⟩ := settles_examine.mp settles
  have isDeclared := Graph.declared_of_find? isFound
  refine ⟨Option.isSome_iff_exists.mpr ⟨_, isDeclared⟩, ?_⟩
  rintro needed ⟨entry, sameName, isNeeded⟩
  rw [isDeclared] at sameName
  cases sameName
  obtain ⟨hasValue, asks⟩ := asks_of_settles_visit visits needed isNeeded
  exact ⟨hasValue, .bind (settles_evaluate.mpr (settles_lookup.mpr isFound)) asks⟩

end Visit

/-! ### Soundness -/

/-- A question that asks the same about every dependency before it has a value. -/
def Pervades (graph : Graph) (question : String → AnalysisRequest) : Prop :=
  ∀ name, HasValue graph (question name) →
    name ∈ graph.declared.names ∧ ∀ needed, graph.declared.DependsOn name needed →
      HasValue graph (question needed) ∧
        Needs (program graph) (question name) (question needed)

theorem pervades_totalWeight : Pervades graph .totalWeight := by
  rintro name ⟨weight, settles⟩
  change Settles (program graph) (compute graph (.totalWeight name)) (.ok weight) at settles
  unfold Needs
  change _ ∧ ∀ needed, _ → _ ∧ Asks (program graph) (compute graph (.totalWeight name)) _
  rw [compute_totalWeight] at settles ⊢
  exact asks_of_settles_examine settles

theorem pervades_dependencyDepth : Pervades graph .dependencyDepth := by
  rintro name ⟨depth, settles⟩
  change Settles (program graph) (compute graph (.dependencyDepth name)) (.ok depth) at settles
  unfold Needs
  change _ ∧ ∀ needed, _ → _ ∧ Asks (program graph) (compute graph (.dependencyDepth name)) _
  rw [compute_dependencyDepth] at settles ⊢
  exact asks_of_settles_examine settles

/-- Only sound names have values of pervasive questions. -/
theorem Pervades.sound {question : String → AnalysisRequest} (pervades : Pervades graph question)
    (hasValue : HasValue graph (question name)) : graph.declared.Sound name := by
  have reached : ∀ other, graph.declared.Reaches name other → HasValue graph (question other) := by
    intro other reaches
    induction reaches with
    | refl => exact hasValue
    | tail _ depends inductionHypothesis =>
        exact ((pervades _ inductionHypothesis).2 _ depends).1
  -- A cycle of dependencies would be a cycle of needs, and what settles has none.
  have needs : ∀ other further, HasValue graph (question other) →
      Relation.TransGen graph.declared.DependsOn other further →
      HasValue graph (question further) ∧
        Relation.TransGen (Needs (program graph)) (question other) (question further) := by
    intro other further otherHasValue depends
    induction depends with
    | single depends =>
        obtain ⟨nextHasValue, needs⟩ := (pervades _ otherHasValue).2 _ depends
        exact ⟨nextHasValue, .single needs⟩
    | tail _ depends inductionHypothesis =>
        obtain ⟨middleHasValue, before⟩ := inductionHypothesis
        obtain ⟨nextHasValue, needs⟩ := (pervades _ middleHasValue).2 _ depends
        exact ⟨nextHasValue, before.tail needs⟩
  refine ⟨fun other reaches => (pervades other (reached other reaches)).1, ?_⟩
  intro other reaches cycle
  obtain ⟨⟨value, settles⟩, back⟩ := needs other other (reached other reaches) cycle
  exact Settled.not_transGen ⟨_, settles⟩ back

/-! ### Weights -/

/-- Visiting names for their weights adds up what they weigh, as far as a word can hold it. -/
private theorem settles_visit_weights (total : UInt64) {names : List String}
    (settle : ∀ needed ∈ names, ∃ weight,
      Settles (program graph) ((program graph).compute (.totalWeight needed)) (.ok weight) ∧
        weight.toNat = min greatestWeight (graph.declared.weightOver needed)) :
    ∃ weight, Settles (program graph)
        (visit .totalWeight (fun total _ weight => addWeight total weight) total names)
        (.ok weight) ∧
      weight.toNat =
        min greatestWeight (total.toNat + (names.map graph.declared.weightOver).sum) := by
  induction names generalizing total with
  | nil =>
      have isWord : total.toNat ≤ greatestWeight := by
        have bound := total.toNat_lt
        unfold greatestWeight
        omega
      refine ⟨total, .done, ?_⟩
      simp [isWord]
  | cons name rest inductionHypothesis =>
      obtain ⟨first, firstSettles, firstWeight⟩ := settle name List.mem_cons_self
      obtain ⟨weight, restSettles, restWeight⟩ :=
        inductionHypothesis (saturatingSum total first)
          fun needed inRest => settle needed (List.mem_cons_of_mem _ inRest)
      refine ⟨weight, settles_bind.mpr ⟨first, settles_evaluate.mpr firstSettles, ?_⟩, ?_⟩
      · exact settles_bind.mpr ⟨_, .done, restSettles⟩
      · -- A sum that has been cut off once stays cut off.
        rw [restWeight, toNat_saturatingSum, firstWeight, List.map_cons, List.sum_cons]
        omega

/-- The total weight of a sound name is what its dependency paths weigh. -/
theorem settles_totalWeight (sound : graph.declared.Sound name) :
    ∃ weight,
      Settles (program graph) ((program graph).compute (.totalWeight name)) (.ok weight) ∧
        weight.toNat = min greatestWeight (graph.declared.weightOver name) := by
  refine sound.induction (fun name => ∃ weight,
    Settles (program graph) ((program graph).compute (.totalWeight name)) (.ok weight) ∧
      weight.toNat = min greatestWeight (graph.declared.weightOver name))
    graph.finite_names_declared fun name entry sound isDeclared below => ?_
  obtain ⟨declaration, isFound, rfl⟩ := Option.map_eq_some_iff.mp isDeclared
  obtain ⟨weight, visits, isWeight⟩ := settles_visit_weights declaration.weight
    fun needed isNeeded => (below needed isNeeded).2
  refine ⟨weight, ?_, ?_⟩
  · show Settles (program graph) (compute graph (.totalWeight name)) (.ok weight)
    rw [compute_totalWeight]
    exact settles_examine.mpr ⟨declaration, isFound, visits⟩
  · rw [isWeight, Declarations.weightOver_eq isDeclared fun needed isNeeded =>
      (below needed isNeeded).1.finite_paths graph.finite_names_declared]

/-! ### Depths -/

private theorem depth_fits (few : graph.declarations.length < 4294967296)
    (sound : graph.declared.Sound name) {length : Nat}
    (isLength : length ∈ graph.declared.lengths name) : length + 1 < 4294967296 := by
  have shorter := sound.length_lt_ncard graph.finite_names_declared isLength
  have atMost := graph.ncard_names_declared
  omega

/-- Visiting names for their depths finds the longest path that goes through one of them. -/
private theorem settles_visit_depths (depth : UInt32) {names : List String}
    (settle : ∀ needed ∈ names, ∃ below : UInt32,
      Settles (program graph) ((program graph).compute (.dependencyDepth needed)) (.ok below) ∧
        below.toNat + 1 < 4294967296 ∧ IsGreatest (graph.declared.lengths needed) below.toNat) :
    ∃ greatest : UInt32, Settles (program graph)
        (visit .dependencyDepth (fun depth _ below => addDepth depth below) depth names)
        (.ok greatest) ∧
      IsGreatest (insert depth.toNat (graph.declared.lengthsThrough names)) greatest.toNat := by
  induction names generalizing depth with
  | nil =>
      refine ⟨depth, .done, .inl rfl, ?_⟩
      rintro length (rfl | ⟨needed, isNeeded, _⟩)
      · exact le_rfl
      · cases isNeeded
  | cons name rest inductionHypothesis =>
      obtain ⟨below, belowSettles, fits, isLongest⟩ := settle name List.mem_cons_self
      obtain ⟨greatest, restSettles, isGreatest⟩ :=
        inductionHypothesis (max depth (below + 1))
          fun needed inRest => settle needed (List.mem_cons_of_mem _ inRest)
      refine ⟨greatest, settles_bind.mpr ⟨below, settles_evaluate.mpr belowSettles, ?_⟩, ?_⟩
      · show Settles (program graph) ((addDepth depth below).bind _) (.ok greatest)
        rw [addDepth, if_pos fits]
        exact settles_bind.mpr ⟨_, .done, restSettles⟩
      · have raised : (max depth (below + 1)).toNat = max depth.toNat (below.toNat + 1) := by
          rw [UInt32.toNat_max, UInt32.toNat_add]
          congr 1
          exact Nat.mod_eq_of_lt fits
        rw [raised] at isGreatest
        exact Declarations.isGreatest_lengthsThrough_cons isLongest isGreatest

/-- The depth of a sound name is the length of its longest dependency path. Depths
fit into their words when there are not more declarations than words. -/
theorem settles_dependencyDepth (few : graph.declarations.length < 4294967296)
    (sound : graph.declared.Sound name) :
    ∃ depth : UInt32,
      Settles (program graph) ((program graph).compute (.dependencyDepth name)) (.ok depth) ∧
        IsGreatest (graph.declared.lengths name) depth.toNat := by
  refine sound.induction (fun name => ∃ depth : UInt32,
    Settles (program graph) ((program graph).compute (.dependencyDepth name)) (.ok depth) ∧
      IsGreatest (graph.declared.lengths name) depth.toNat)
    graph.finite_names_declared fun name entry sound isDeclared below => ?_
  obtain ⟨declaration, isFound, rfl⟩ := Option.map_eq_some_iff.mp isDeclared
  obtain ⟨greatest, visits, isGreatest⟩ := settles_visit_depths 0 fun needed isNeeded => by
    obtain ⟨neededSound, depth, settles, isLongest⟩ := below needed isNeeded
    exact ⟨depth, settles, depth_fits few neededSound isLongest.1, isLongest⟩
  refine ⟨greatest, ?_, ?_⟩
  · show Settles (program graph) (compute graph (.dependencyDepth name)) (.ok greatest)
    rw [compute_dependencyDepth]
    exact settles_examine.mpr ⟨declaration, isFound, visits⟩
  · rw [Declarations.lengths_eq isDeclared]
    exact isGreatest

/-! ### Values -/

/-- A weight is found exactly if the name is sound. -/
theorem settles_totalWeight_iff {weight : UInt64} :
    Settles (program graph) ((program graph).compute (.totalWeight name)) (.ok weight) ↔
      graph.declared.Sound name ∧
        weight.toNat = min greatestWeight (graph.declared.weightOver name) := by
  constructor
  · intro settles
    have sound := pervades_totalWeight.sound ⟨weight, settles⟩
    obtain ⟨other, otherSettles, isWeight⟩ := settles_totalWeight sound
    cases settles.unique otherSettles
    exact ⟨sound, isWeight⟩
  · rintro ⟨sound, isWeight⟩
    obtain ⟨other, settles, otherIsWeight⟩ := settles_totalWeight sound
    rw [← otherIsWeight] at isWeight
    rwa [UInt64.toNat_inj.mp isWeight]

/-- A depth is found exactly if the name is sound. -/
theorem settles_dependencyDepth_iff (few : graph.declarations.length < 4294967296)
    {depth : UInt32} :
    Settles (program graph) ((program graph).compute (.dependencyDepth name)) (.ok depth) ↔
      graph.declared.Sound name ∧ IsGreatest (graph.declared.lengths name) depth.toNat := by
  constructor
  · intro settles
    have sound := pervades_dependencyDepth.sound ⟨depth, settles⟩
    obtain ⟨other, otherSettles, isGreatest⟩ := settles_dependencyDepth few sound
    cases settles.unique otherSettles
    exact ⟨sound, isGreatest⟩
  · rintro ⟨sound, isGreatest⟩
    obtain ⟨other, settles, otherIsGreatest⟩ := settles_dependencyDepth few sound
    have sameLength := isGreatest.unique otherIsGreatest
    rwa [UInt32.toNat_inj.mp sameLength]

/-- Depths never overflow. -/
theorem depth_fits_of_settles (few : graph.declarations.length < 4294967296) {depth : UInt32}
    (settles : Settles (program graph) ((program graph).compute (.dependencyDepth name))
      (.ok depth)) : depth.toNat + 1 < 4294967296 := by
  obtain ⟨sound, isGreatest⟩ := (settles_dependencyDepth_iff few).mp settles
  exact depth_fits few sound isGreatest.1

end RequestEngine.Analysis
