import RequestEngine.Proofs.RegistryHistory
import RequestEngine.Proofs.TypeIdentities

/-!
Contract: bare and applied identities, and how many constructors an identity holds.

Owns:
- bare identities, those of a single chunk;
- what is left of a template after it was applied;
- the chunks that a term takes up, and the terms that fit into a word.

Applying a template shifts the argument up by one chunk, and both checks of an
application look for bits that are not zero. The word of zeros has none. An
argument with that word takes up no chunk, so the template stays bare, and a
term over it holds one constructor more than there are chunks.

Does not own: reading a term back from its identity.
-/

namespace RequestEngine

namespace Identity

variable {template argument applied : Identity}

/-- The identity is a single chunk. -/
def IsBare (identity : Identity) : Prop := identity.code < chunkSize

theorem isBare_iff_exists_ofZone {identity : Identity} :
    identity.IsBare ↔ ∃ zone localId, identity = ofZone zone localId := by
  constructor
  · intro bare
    refine ⟨identity.zone, identity.localId, Identity.ext ?_⟩
    simp only [IsBare, chunkSize] at bare
    simp only [code_ofZone, Identity.zone, Identity.localId, UInt8.toNat_ofNat']
    omega
  · rintro ⟨zone, localId, rfl⟩
    have zoneBound := zone.toNat_lt
    have localBound := localId.toNat_lt
    simp only [IsBare, code_ofZone, chunkSize]
    omega

theorem apply_of_not_isBare (applied : ¬ template.IsBare) (argument : Identity) :
    template.apply argument = .error .notBare :=
  dif_neg applied

/-- A bare template can be applied to an argument of at most three chunks. -/
theorem exists_apply_iff (bare : template.IsBare) :
    (∃ applied, template.apply argument = .ok applied) ↔ argument.code < chunkSize ^ 3 := by
  have threeChunks : chunkSize ^ 3 = 281474976710656 := rfl
  have small : template.code < chunkSize := bare
  rw [threeChunks, apply, dif_pos small]
  by_cases fits : argument.code < 281474976710656
  · simp [fits]
  · simp [fits]

/-- Applied to the word of zeros, a template stays what it is. -/
theorem apply_zero (bare : template.IsBare) : template.apply .zero = .ok template := by
  have small : Identity.zero.code < chunkSize ^ 3 := by decide
  obtain ⟨applied, succeeds⟩ := (exists_apply_iff bare).mpr small
  have code_eq := (code_of_apply succeeds).2
  have same : applied = template := Identity.ext (by simpa [Identity.zero] using code_eq)
  rwa [same] at succeeds

/-- Applied to anything else, it is not bare any more. -/
theorem not_isBare_of_apply (nonzero : argument ≠ .zero)
    (succeeds : template.apply argument = .ok applied) : ¬ applied.IsBare := by
  have code_eq := (code_of_apply succeeds).2
  have positive : 0 < argument.code :=
    Nat.pos_of_ne_zero fun zero => nonzero (Identity.ext zero)
  have atLeastOne : chunkSize ≤ argument.code * chunkSize := Nat.le_mul_of_pos_left _ positive
  unfold IsBare
  omega

end Identity

namespace ZoneDefinition

theorem isBare_identityAt (zone : ZoneDefinition) (index : Nat) : (zone.identityAt index).IsBare :=
  Identity.isBare_iff_exists_ofZone.mpr ⟨_, _, rfl⟩

end ZoneDefinition

namespace TypeTerm

variable {registry : Registry} {term : TypeTerm} {identity : Identity}

/-! ### Constructors and chunks -/

def constructors : TypeTerm → Nat
  | .type _ _ => 1
  | .apply _ _ argument => argument.constructors + 1

/-- The plain type that a term is built on. -/
def innermost : TypeTerm → TypeTerm
  | .type zone index => .type zone index
  | .apply _ _ argument => argument.innermost

/-- The plain type that stands for the word of zeros. -/
def unsignedChar : TypeTerm := .type primitiveZone 0

theorem identity_unsignedChar : unsignedChar.identity = .ok .zero := rfl

/-- The chunks that a term takes up. The word of zeros takes up none. -/
def chunks : TypeTerm → Nat
  | .type zone index => if (zone.identityAt index).code = 0 then 0 else 1
  | .apply _ _ argument => argument.chunks + 1

theorem chunks_of_innermost_eq (onZero : term.innermost = unsignedChar) :
    term.constructors = term.chunks + 1 := by
  induction term with
  | type zone index =>
      cases onZero
      rfl
  | apply zone index argument inductionHypothesis =>
      rw [constructors, chunks, inductionHypothesis onZero]

theorem chunks_of_innermost_ne (wellFormed : registry.WellFormed)
    (wellKinded : term.WellKinded registry) (notOnZero : term.innermost ≠ unsignedChar) :
    term.constructors = term.chunks := by
  induction wellKinded with
  | @type zone index name held listed =>
      have nonzero : (zone.identityAt index).code ≠ 0 := by
        intro zero
        obtain ⟨rfl, rfl⟩ := wellFormed.first_of_code_eq_zero held listed zero
        exact notOnZero rfl
      rw [constructors, chunks, if_neg nonzero]
  | apply _ _ _ inductionHypothesis =>
      rw [constructors, chunks, inductionHypothesis notOnZero]

/-- The chunks of a term are those of its identity: no template is the word of
zeros, so every chunk but that of the innermost type counts. -/
theorem code_lt_pow_iff (wellFormed : registry.WellFormed) (wellKinded : term.WellKinded registry)
    (built : term.identity = .ok identity) (count : Nat) :
    identity.code < chunkSize ^ count ↔ term.chunks ≤ count := by
  induction wellKinded generalizing identity count with
  | @type zone index name held listed =>
      cases built
      have bare : (zone.identityAt index).code < chunkSize := zone.isBare_identityAt index
      cases count with
      | zero => by_cases zero : (zone.identityAt index).code = 0 <;> simp [chunks, zero]
      | succ count =>
          have oneChunk : chunkSize ≤ chunkSize ^ (count + 1) :=
            Nat.le_self_pow (Nat.succ_ne_zero count) _
          have few : (TypeTerm.type zone index).chunks ≤ 1 := by
            rw [chunks]
            split <;> omega
          exact iff_of_true (by omega) (by omega)
  | @apply zone index name argument held listed _ inductionHypothesis =>
      obtain ⟨inner, builtArgument, applied⟩ := exists_argument built
      obtain ⟨bare, code_eq⟩ := Identity.code_of_apply applied
      have nonzero := wellFormed.code_ne_zero held listed
      cases count with
      | zero =>
          rw [pow_zero, chunks]
          exact iff_of_false (by omega) (by omega)
      | succ count =>
          rw [chunks, Nat.add_le_add_iff_right, ← inductionHypothesis builtArgument count, code_eq,
            pow_succ]
          constructor
          · intro below
            by_contra above
            have scaled := Nat.mul_le_mul_right chunkSize (Nat.le_of_not_lt above)
            omega
          · intro below
            have scaled := Nat.mul_le_mul_right chunkSize (Nat.succ_le_of_lt below)
            rw [Nat.succ_mul] at scaled
            omega

/-- A term has an identity exactly if it takes up no more than four chunks. -/
theorem exists_identity_iff (wellFormed : registry.WellFormed)
    (wellKinded : term.WellKinded registry) :
    (∃ identity, term.identity = .ok identity) ↔ term.chunks ≤ 4 := by
  induction wellKinded with
  | @type zone index name held listed =>
      refine iff_of_true ⟨_, rfl⟩ ?_
      rw [chunks]
      split <;> omega
  | @apply zone index name argument held listed argumentWellKinded inductionHypothesis =>
      have fits_iff : ∀ {inner}, argument.identity = .ok inner →
          ((∃ applied, (zone.identityAt index).apply inner = .ok applied) ↔
            argument.chunks ≤ 3) := fun builtArgument =>
        (Identity.exists_apply_iff (zone.isBare_identityAt index)).trans
          (code_lt_pow_iff wellFormed argumentWellKinded builtArgument 3)
      rw [chunks]
      constructor
      · rintro ⟨identity, built⟩
        obtain ⟨inner, builtArgument, applied⟩ := exists_argument built
        have few := (fits_iff builtArgument).mp ⟨identity, applied⟩
        omega
      · intro few
        obtain ⟨inner, builtArgument⟩ := inductionHypothesis.mpr (by omega)
        obtain ⟨applied, succeeds⟩ := (fits_iff builtArgument).mpr (by omega)
        refine ⟨applied, ?_⟩
        simpa [TypeTerm.identity, builtArgument, bind, Except.bind] using succeeds

theorem chunks_le_four_iff (wellFormed : registry.WellFormed)
    (wellKinded : term.WellKinded registry) :
    term.chunks ≤ 4 ↔
      term.constructors ≤ 4 ∨ term.constructors = 5 ∧ term.innermost = unsignedChar := by
  by_cases onZero : term.innermost = unsignedChar
  · have count := chunks_of_innermost_eq onZero
    simp only [onZero, and_true]
    omega
  · have count := chunks_of_innermost_ne wellFormed wellKinded onZero
    simp only [onZero, and_false, or_false]
    omega

end TypeTerm

/-! ### Bare and applied identities -/

namespace Registry

variable {registry : Registry}

theorem WellFormed.wellKinded_unsignedChar (wellFormed : registry.WellFormed) :
    TypeTerm.unsignedChar.WellKinded registry :=
  .type wellFormed.holdsPrimitive rfl

/-- How far applied identities and bare ones are kept apart. -/
structure KeepsApart (registry : Registry) : Prop where
  /-- A template that was applied to anything but the word of zeros is neither
  that template nor any other bare identity, and cannot be applied again. -/
  applied : ∀ {template argument applied : Identity}, argument ≠ .zero →
    template.apply argument = .ok applied →
    applied ≠ template ∧ (∀ zone localId, applied ≠ .ofZone zone localId) ∧
      ∀ further, applied.apply further = .error .notBare
  /-- Applied to the word of zeros, every bare template stays what it is. -/
  unchanged : ∀ {template : Identity}, template.IsBare → template.apply .zero = .ok template
  /-- One type stands for the word of zeros. -/
  onlyZero : ∀ {term : TypeTerm} {identity : Identity}, term.WellKinded registry →
    term.identity = .ok identity → (identity = .zero ↔ term = .unsignedChar)
  /-- Up to four constructors are accepted, and five if the innermost one is that type. -/
  accepted : ∀ {term : TypeTerm}, term.WellKinded registry →
    ((∃ identity, term.identity = .ok identity) ↔
      term.constructors ≤ 4 ∨ term.constructors = 5 ∧ term.innermost = .unsignedChar)
  /-- All other types are rejected for their nesting. -/
  rejected : ∀ {term : TypeTerm}, (∀ identity, term.identity ≠ .ok identity) →
    term.identity = .error .capacityExceeded

/-- In every well-formed registry applied identities and bare ones are kept apart,
as far as the word of zeros allows. -/
theorem WellFormed.keepsApart (wellFormed : registry.WellFormed) : registry.KeepsApart where
  applied := by
    intro template argument applied nonzero succeeds
    have notBare := Identity.not_isBare_of_apply nonzero succeeds
    refine ⟨?_, ?_, Identity.apply_of_not_isBare notBare⟩
    · rintro rfl
      exact notBare (Identity.code_of_apply succeeds).1
    · rintro zone localId rfl
      exact notBare (Identity.isBare_iff_exists_ofZone.mpr ⟨zone, localId, rfl⟩)
  unchanged := Identity.apply_zero
  onlyZero := by
    intro term identity wellKinded built
    constructor
    · rintro rfl
      have spelled := TypeTerm.term?_of_identity wellFormed wellKinded built
      rw [TypeTerm.term?_of_identity wellFormed wellFormed.wellKinded_unsignedChar
        TypeTerm.identity_unsignedChar] at spelled
      exact (Option.some.inj spelled).symm
    · rintro rfl
      rw [TypeTerm.identity_unsignedChar] at built
      exact (Except.ok.inj built).symm
  accepted wellKinded :=
    (TypeTerm.exists_identity_iff wellFormed wellKinded).trans
      (TypeTerm.chunks_le_four_iff wellFormed wellKinded)
  rejected := by
    intro term noIdentity
    cases built : term.identity with
    | ok identity => exact absurd built (noIdentity identity)
    | error failure => rw [TypeTerm.identity_eq_error built]

/-- Vectors of vectors, as often as a number says, of some type. -/
def vectors (base : TypeTerm) : Nat → TypeTerm
  | 0 => base
  | count + 1 => .apply primitiveZone 18 (vectors base count)

theorem wellKinded_vectors {base : TypeTerm} (held : primitiveZone ∈ registry.zones)
    (wellKinded : base.WellKinded registry) (count : Nat) :
    (vectors base count).WellKinded registry := by
  induction count with
  | zero => exact wellKinded
  | succ count inductionHypothesis => exact .apply held rfl inductionHypothesis

/-- A vector of squares cannot be applied, and four vectors around a square are too
many constructors. -/
theorem keepsApart_vectors :
    let registry := initial.afterRegister fixturesZone
    let vector := primitiveZone.identityAt 18
    let applied : Identity := { code := 51200 * 65536 + 18 }
    let square := TypeTerm.type fixturesZone 0
    registry.WellFormed ∧ registry.KeepsApart ∧
      vector.apply (fixturesZone.identityAt 0) = .ok applied ∧ applied ≠ vector ∧
      (∀ further, applied.apply further = .error .notBare) ∧
      (vectors square 4).WellKinded registry ∧
      (vectors square 4).identity = .error .capacityExceeded := by
  intro registry vector applied square
  have wellFormed : registry.WellFormed := wellFormed_initial.afterRegister fixturesZone (by decide)
  have apart : registry.KeepsApart := wellFormed.keepsApart
  have succeeds : vector.apply (fixturesZone.identityAt 0) = .ok applied := by decide +kernel
  have keptApart := apart.applied (by decide) succeeds
  have wellKinded : (vectors square 4).WellKinded registry := by
    apply wellKinded_vectors wellFormed.holdsPrimitive
    apply TypeTerm.WellKinded.type _ rfl
    exact mem_insertZone.mpr (.inl rfl)
  have notOnZero : (vectors square 4).innermost ≠ .unsignedChar := by
    intro same
    have sameZone : fixturesZone = primitiveZone := congrArg TypeTerm.zone same
    exact absurd sameZone (by decide)
  have rejected : (vectors square 4).identity = .error .capacityExceeded := by
    apply apart.rejected
    intro identity built
    rcases (apart.accepted wellKinded).mp ⟨identity, built⟩ with few | ⟨_, onZero⟩
    · exact absurd few (by decide)
    · exact notOnZero onZero
  exact ⟨wellFormed, apart, succeeds, keptApart.1, keptApart.2.2, wellKinded, rejected⟩

/-- A vector of the type with the word of zeros has the identity of the bare vector
and can be applied again, and four vectors around that type are accepted. -/
theorem applied_vector_stays_bare :
    let vector := primitiveZone.identityAt 18
    let int := primitiveZone.identityAt 5
    TypeTerm.unsignedChar.WellKinded initial ∧
      TypeTerm.unsignedChar.identity = .ok (primitiveZone.identityAt 0) ∧
      vector.apply (primitiveZone.identityAt 0) = .ok vector ∧
      vector.apply int = .ok { code := 5 * 65536 + 18 } ∧
      (vectors .unsignedChar 4).WellKinded initial ∧
      (vectors .unsignedChar 4).constructors = 5 ∧
      (vectors .unsignedChar 4).identity =
        .ok { code := 18 * (65536 ^ 3 + 65536 ^ 2 + 65536 + 1) } := by
  intro vector int
  have wellKinded := wellFormed_initial.wellKinded_unsignedChar
  refine ⟨wellKinded, rfl, ?_, ?_, ?_, rfl, ?_⟩
  · decide +kernel
  · decide +kernel
  · exact wellKinded_vectors wellFormed_initial.holdsPrimitive wellKinded 4
  · decide +kernel

end Registry

end RequestEngine
