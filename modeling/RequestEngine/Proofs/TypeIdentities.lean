import Mathlib.Algebra.Group.Nat.Defs
import Mathlib.Data.List.Nodup
import RequestEngine.Fixtures
import RequestEngine.Zone.TypeTerm

/-!
Contract: identities of type terms decode to the terms that they were built from.

Owns:
- the registries that hold the primitive zone and zones with ids of their own;
- the terms whose entries have the kinds that they are used with;
- reading a term back from an identity, and the agreement of names with it.

The encoding carries no length, and the word of zeros is the first primitive
type. Reading stops at the first chunk of a plain type, so terms of the right
kinds form a prefix code.

Does not own: when a zone is registered; the evaluator does that on first use.
-/

namespace RequestEngine

namespace Identity

variable {template argument applied : Identity}

/-- An applied identity holds its argument above its template. -/
theorem code_of_apply (succeeds : template.apply argument = .ok applied) :
    template.code < chunkSize ∧ applied.code = argument.code * chunkSize + template.code := by
  unfold apply at succeeds
  split at succeeds
  case isTrue templateBound =>
    split at succeeds
    · cases succeeds
      exact ⟨templateBound, rfl⟩
    · cases succeeds
  case isFalse => cases succeeds

/-- The outermost constructor of an applied identity is its template. -/
theorem zone_of_apply (succeeds : template.apply argument = .ok applied) :
    applied.zone = template.zone := by
  have code_eq := (code_of_apply succeeds).2
  unfold Identity.zone
  congr 1
  unfold chunkSize at code_eq
  omega

theorem localId_of_apply (succeeds : template.apply argument = .ok applied) :
    applied.localId = template.localId := by
  have code_eq := (code_of_apply succeeds).2
  unfold Identity.localId
  congr 1
  unfold chunkSize at code_eq
  omega

theorem code_le_of_apply (succeeds : template.apply argument = .ok applied) :
    template.code ≤ applied.code := by
  have code_eq := (code_of_apply succeeds).2
  omega

end Identity

/-- The index of the outermost entry of a term. -/
def TypeTerm.index : TypeTerm → Nat
  | .type _ index | .apply _ index _ => index

namespace Registry

/-- The registry holds the primitive zone, and every zone has an id of its own
and no more entries than there are local ids. -/
structure WellFormed (registry : Registry) : Prop where
  holdsPrimitive : primitiveZone ∈ registry.zones
  distinctIds : (registry.zones.map (·.id)).Nodup
  entriesFit : ∀ zone ∈ registry.zones, zone.entries.length ≤ 256

theorem wellFormed_initial : initial.WellFormed where
  holdsPrimitive := List.mem_singleton.mpr rfl
  distinctIds := List.nodup_singleton _
  entriesFit zone held := by
    rw [List.mem_singleton.mp held]
    decide

private theorem nodup_insertZone {zone : ZoneDefinition} {zones : List ZoneDefinition}
    (distinctIds : (zones.map (·.id)).Nodup) (unclaimed : ∀ other ∈ zones, other.id ≠ zone.id) :
    ((insertZone zone zones).map (·.id)).Nodup := by
  induction zones with
  | nil => exact List.nodup_singleton _
  | cons head tail inductionHypothesis =>
      have distinct := List.nodup_cons.mp distinctIds
      unfold insertZone
      split
      · apply List.nodup_cons.mpr
        refine ⟨fun claimed => ?_, distinctIds⟩
        obtain ⟨other, held, sameId⟩ := List.mem_map.mp claimed
        exact unclaimed other held sameId
      · apply List.nodup_cons.mpr
        refine ⟨fun repeated => ?_, inductionHypothesis distinct.2 fun other held =>
          unclaimed other (List.mem_cons_of_mem _ held)⟩
        obtain ⟨other, held, sameId⟩ := List.mem_map.mp repeated
        apply (mem_insertZone.mp held).elim
        · rintro rfl
          exact unclaimed head List.mem_cons_self sameId.symm
        · intro inTail
          exact distinct.1 (List.mem_map.mpr ⟨other, inTail, sameId⟩)

/-- Registering zones of admissible sizes keeps a registry well-formed. -/
theorem WellFormed.afterRegister {registry : Registry} (wellFormed : registry.WellFormed)
    (zone : ZoneDefinition) (fits : zone.entries.length ≤ 256) :
    (registry.afterRegister zone).WellFormed := by
  unfold Registry.afterRegister Registry.register
  cases found : registry.zone? zone.id with
  | none =>
      have unclaimed : ∀ other ∈ registry.zones, other.id ≠ zone.id := by
        intro other held
        simpa using List.find?_eq_none.mp found other held
      exact
        { holdsPrimitive := mem_insertZone.mpr (.inr wellFormed.holdsPrimitive)
          distinctIds := nodup_insertZone wellFormed.distinctIds unclaimed
          entriesFit := fun other held => (mem_insertZone.mp held).elim
            (fun isZone => isZone ▸ fits) (wellFormed.entriesFit other) }
  | some existing =>
      by_cases same : existing.declaration = zone.declaration
      · simpa only [same, ↓reduceIte] using wellFormed
      · simpa only [same, ↓reduceIte] using wellFormed

/-- An id resolves to the one zone that has it. -/
theorem WellFormed.zone?_of_mem {registry : Registry} (wellFormed : registry.WellFormed)
    {zone : ZoneDefinition} (held : zone ∈ registry.zones) :
    registry.zone? zone.id = some zone := by
  cases found : registry.zone? zone.id with
  | none =>
      have differs : zone.id ≠ zone.id := by
        have passedOver := List.find?_eq_none.mp found zone held
        simp at passedOver
      exact absurd rfl differs
  | some existing =>
      have sameId : existing.id = zone.id := by simpa using List.find?_some found
      rw [List.inj_on_of_nodup_map wellFormed.distinctIds (List.mem_of_find?_eq_some found) held
        sameId]

/-- The term that an identity spells, read from its outermost constructor on.
A template whose argument cannot be read spells nothing. -/
def term? (registry : Registry) (identity : Identity) : Option TypeTerm :=
  match registry.zone? identity.zone with
  | none => none
  | some zone =>
      match zone.entryAt? identity.localId with
      | none => none
      | some ⟨.type, _⟩ => some (.type zone identity.localId.toNat)
      | some ⟨.template, _⟩ =>
          if _ : identity.code = 0 then none
          else (registry.term? identity.argument).map (.apply zone identity.localId.toNat)
termination_by identity.code
decreasing_by
  simp only [Identity.code_argument]
  unfold chunkSize
  omega

variable {registry : Registry} {identity : Identity} {zone : ZoneDefinition} {name : String}

/-- The outermost constructor of an identity is that of the term it spells. -/
theorem constructor_of_term? {term : TypeTerm} (spelled : registry.term? identity = some term) :
    registry.zone? identity.zone = some term.zone ∧ identity.localId.toNat = term.index := by
  rw [term?] at spelled
  split at spelled
  · cases spelled
  · next zone found =>
    rw [found]
    split at spelled
    · cases spelled
    · cases spelled
      exact ⟨rfl, rfl⟩
    · split at spelled
      · cases spelled
      · obtain ⟨argument, _, rfl⟩ := Option.map_eq_some_iff.mp spelled
        exact ⟨rfl, rfl⟩

theorem term?_of_type (found : registry.zone? identity.zone = some zone)
    (entry : zone.entryAt? identity.localId = some ⟨.type, name⟩) :
    registry.term? identity = some (.type zone identity.localId.toNat) := by
  rw [term?, found]
  simp only [entry]

theorem term?_of_template (found : registry.zone? identity.zone = some zone)
    (entry : zone.entryAt? identity.localId = some ⟨.template, name⟩)
    (nonzero : identity.code ≠ 0) :
    registry.term? identity =
      (registry.term? identity.argument).map (.apply zone identity.localId.toNat) := by
  rw [term?, found]
  simp only [entry, nonzero, ↓reduceDIte]

/-- In any registry, an identity has a name exactly when it spells a term, and
the name is that of the term. -/
theorem nameOf?_eq_map_term? (registry : Registry) (identity : Identity) :
    registry.nameOf? identity = (registry.term? identity).map TypeTerm.name := by
  fun_induction registry.term? identity with
  | case1 identity unregistered => simp [nameOf?, constructor?, unregistered]
  | case2 identity zone found absent => simp [nameOf?, constructor?, found, absent]
  | case3 identity zone found name entry =>
      have listed : zone.entries[identity.localId.toNat]? = some ⟨.type, name⟩ := entry
      simp [nameOf?, constructor?, found, entry, TypeTerm.name, TypeTerm.entryName, listed]
  | case4 identity zone found name entry zero =>
      simp [nameOf?, constructor?, found, entry, zero]
  | case5 identity zone found name entry nonzero inductionHypothesis =>
      have listed : zone.entries[identity.localId.toNat]? = some ⟨.template, name⟩ := entry
      rw [nameOf?]
      simp only [constructor?, found, Option.bind_eq_bind, Option.bind_some, entry, nonzero,
        ↓reduceDIte, inductionHypothesis, Option.map_map]
      congr 1
      funext term
      simp [TypeTerm.name, TypeTerm.entryName, listed]

end Registry

namespace TypeTerm

/-- A plain type stands for itself, and a template is applied to a term whose
entries are used so in turn. All zones are in the registry. -/
inductive WellKinded (registry : Registry) : TypeTerm → Prop
  | type {zone : ZoneDefinition} {index : Nat} {name : String}
      (held : zone ∈ registry.zones) (entry : zone.entries[index]? = some ⟨.type, name⟩) :
      WellKinded registry (.type zone index)
  | apply {zone : ZoneDefinition} {index : Nat} {name : String} {argument : TypeTerm}
      (held : zone ∈ registry.zones) (entry : zone.entries[index]? = some ⟨.template, name⟩)
      (wellKinded : WellKinded registry argument) :
      WellKinded registry (.apply zone index argument)

/-- What an identity says about the term that it was built from. -/
structure Decodes (registry : Registry) (term : TypeTerm) (identity : Identity) : Prop where
  zone : identity.zone = term.zone.id
  definition : registry.zone? identity.zone = some term.zone
  localId : identity.localId.toNat = term.index
  argument : ∀ zone index argument, term = .apply zone index argument →
    argument.identity = .ok identity.argument
  name : registry.nameOf? identity = some term.name

end TypeTerm

section Entries

variable {registry : Registry} {zone : ZoneDefinition} {index : Nat} {entry : ZoneEntry}

theorem ZoneDefinition.localId_identityAt (zone : ZoneDefinition) (small : index < 256) :
    (zone.identityAt index).localId.toNat = index := by
  rw [ZoneDefinition.identityAt, Identity.localId_ofZone]
  exact UInt8.toNat_ofNat_of_lt' small

/-- An entry of a registered zone has a local id of its own. -/
theorem Registry.WellFormed.index_lt (wellFormed : registry.WellFormed)
    (held : zone ∈ registry.zones) (listed : zone.entries[index]? = some entry) :
    index < 256 := by
  have bound := (List.getElem?_eq_some_iff.mp listed).1
  have fits := wellFormed.entriesFit zone held
  omega

/-- Only the first primitive entry has the zero word. -/
theorem Registry.WellFormed.first_of_code_eq_zero (wellFormed : registry.WellFormed)
    (held : zone ∈ registry.zones) (listed : zone.entries[index]? = some entry)
    (zero : (zone.identityAt index).code = 0) : zone = primitiveZone ∧ index = 0 := by
  have small := wellFormed.index_lt held listed
  rw [ZoneDefinition.identityAt, Identity.code_ofZone, UInt8.toNat_ofNat_of_lt' small] at zero
  have isPrimitiveId : zone.id = primitiveZone.id := by
    apply UInt8.toNat_inj.mp
    show zone.id.toNat = 0
    omega
  have isPrimitive : zone = primitiveZone :=
    List.inj_on_of_nodup_map wellFormed.distinctIds held wellFormed.holdsPrimitive isPrimitiveId
  exact ⟨isPrimitive, by omega⟩

/-- No template has the zero word: the first primitive entry is a plain type. -/
theorem Registry.WellFormed.code_ne_zero (wellFormed : registry.WellFormed)
    {name : String} (held : zone ∈ registry.zones)
    (listed : zone.entries[index]? = some ⟨.template, name⟩) :
    (zone.identityAt index).code ≠ 0 := by
  intro zero
  obtain ⟨rfl, rfl⟩ := wellFormed.first_of_code_eq_zero held listed zero
  simp [primitiveZone] at listed

end Entries

namespace TypeTerm

variable {registry : Registry} {term : TypeTerm} {identity : Identity}

/-- The identity of an applied term is that of its template, applied to the identity of
its argument. -/
theorem exists_argument {zone : ZoneDefinition} {index : Nat} {argument : TypeTerm}
    (built : (TypeTerm.apply zone index argument).identity = .ok identity) :
    ∃ inner, argument.identity = .ok inner ∧
      (zone.identityAt index).apply inner = .ok identity := by
  simp only [TypeTerm.identity] at built
  cases built_argument : argument.identity with
  | error failure => simp [built_argument, bind, Except.bind] at built
  | ok inner => exact ⟨inner, rfl, by simpa [built_argument, bind, Except.bind] using built⟩

/-- Reading an identity gives back the term that it was built from. -/
theorem term?_of_identity (wellFormed : registry.WellFormed)
    (wellKinded : term.WellKinded registry) (built : term.identity = .ok identity) :
    registry.term? identity = some term := by
  induction wellKinded generalizing identity with
  | @type zone index name held listed =>
      have small := wellFormed.index_lt held listed
      cases built
      have found : registry.zone? (zone.identityAt index).zone = some zone := by
        rw [ZoneDefinition.identityAt, Identity.zone_ofZone]
        exact wellFormed.zone?_of_mem held
      have localId_eq := zone.localId_identityAt small
      have entry : zone.entryAt? (zone.identityAt index).localId = some ⟨.type, name⟩ := by
        rw [ZoneDefinition.entryAt?, localId_eq]
        exact listed
      rw [Registry.term?_of_type found entry, localId_eq]
  | @apply zone index name argument held listed wellKinded inductionHypothesis =>
      have small := wellFormed.index_lt held listed
      obtain ⟨inner, built_argument, applied⟩ := exists_argument built
      have found : registry.zone? identity.zone = some zone := by
        rw [Identity.zone_of_apply applied, ZoneDefinition.identityAt, Identity.zone_ofZone]
        exact wellFormed.zone?_of_mem held
      have localId_eq : identity.localId.toNat = index := by
        rw [Identity.localId_of_apply applied]
        exact zone.localId_identityAt small
      have entry : zone.entryAt? identity.localId = some ⟨.template, name⟩ := by
        rw [ZoneDefinition.entryAt?, localId_eq]
        exact listed
      have nonzero : identity.code ≠ 0 := by
        have templateNonzero := wellFormed.code_ne_zero held listed
        have below := Identity.code_le_of_apply applied
        omega
      rw [Registry.term?_of_template found entry nonzero, Identity.argument_of_apply applied,
        inductionHypothesis built_argument, localId_eq]
      rfl

/-- The only panic on the way to the identity of a term is for nesting too deeply. -/
theorem identity_eq_error {failure : Identity.ApplyError}
    (failed : term.identity = .error failure) : failure = .capacityExceeded := by
  induction term with
  | type zone index => cases failed
  | apply zone index argument inductionHypothesis =>
      simp only [TypeTerm.identity] at failed
      cases built_argument : argument.identity with
      | error inner =>
          have same : inner = failure := by
            simpa [built_argument, bind, Except.bind] using failed
          exact same ▸ inductionHypothesis (same ▸ built_argument)
      | ok inner =>
          have bare : (zone.identityAt index).code < chunkSize := by
            have zoneBound := zone.id.toNat_lt
            have localBound := (UInt8.ofNat index).toNat_lt
            rw [ZoneDefinition.identityAt, Identity.code_ofZone]
            unfold chunkSize
            omega
          simp only [built_argument, bind, Except.bind, Identity.apply, bare, ↓reduceDIte]
            at failed
          split at failed
          · cases failed
          · exact (Except.error.inj failed).symm

/-- The identity of a term, once built, names the outermost constructor, holds
the identity of the argument, resolves to the name of the term, and belongs to
no other term. -/
theorem identity_unambiguous (wellFormed : registry.WellFormed)
    (wellKinded : term.WellKinded registry) (built : term.identity = .ok identity) :
    term.Decodes registry identity ∧
      ∀ other : TypeTerm, other.WellKinded registry → other.identity = .ok identity →
        other = term := by
  have spelled := term?_of_identity wellFormed wellKinded built
  have outermost := Registry.constructor_of_term? spelled
  constructor
  · exact
      { zone := by
          have sameId : term.zone.id = identity.zone := by
            simpa using List.find?_some outermost.1
          exact sameId.symm
        definition := outermost.1
        localId := outermost.2
        argument := by
          rintro zone index argument rfl
          obtain ⟨inner, built_argument, applied⟩ := exists_argument built
          rw [Identity.argument_of_apply applied]
          exact built_argument
        name := by rw [Registry.nameOf?_eq_map_term?, spelled, Option.map_some] }
  · intro other otherWellKinded otherBuilt
    have spelledOther := term?_of_identity wellFormed otherWellKinded otherBuilt
    rw [spelled] at spelledOther
    exact (Option.some.inj spelledOther).symm

/-- The vector of optional squares, over the primitive zone and that of the
sample requests: three chunks, with the squares on top. -/
theorem identity_unambiguous_vector :
    let registry := Registry.initial.afterRegister fixturesZone
    let term : TypeTerm :=
      .apply primitiveZone 18 (.apply primitiveZone 19 (.type fixturesZone 0))
    let identity : Identity := { code := 51200 * 65536 ^ 2 + 19 * 65536 + 18 }
    registry.WellFormed ∧ term.WellKinded registry ∧ term.identity = .ok identity ∧
      registry.nameOf? identity = some "Vector<Optional<Square>>" ∧
      ∀ other : TypeTerm, other.WellKinded registry → other.identity = .ok identity →
        other = term := by
  intro registry term identity
  have wellFormed : registry.WellFormed :=
    Registry.wellFormed_initial.afterRegister fixturesZone (by decide)
  have wellKinded : term.WellKinded registry := by
    refine .apply ?_ rfl (.apply ?_ rfl (.type ?_ rfl))
    all_goals
      simp [registry, Registry.afterRegister, Registry.register, Registry.initial, Registry.zone?,
        primitiveZone, fixturesZone, insertZone]
  have built : term.identity = .ok identity := by decide +kernel
  have unambiguous := identity_unambiguous wellFormed wellKinded built
  exact ⟨wellFormed, wellKinded, built, unambiguous.1.name, unambiguous.2⟩

end TypeTerm

end RequestEngine
