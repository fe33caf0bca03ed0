import RequestEngine.Proofs.Reception

/-!
Contract: the registration of zones during evaluations.

Owns:
- comparing registries by the definitions that hold their zone ids;
- which operations of an evaluator register zones;
- the zones that are held once they have been met.

Does not own: the names of registered types.
-/

namespace RequestEngine

theorem find?_insertZone {zone : ZoneDefinition} {zones : List ZoneDefinition}
    (unclaimed : zones.find? (·.id = zone.id) = none) (id : UInt8) :
    (insertZone zone zones).find? (·.id = id) =
      if zone.id = id then some zone else zones.find? (·.id = id) := by
  induction zones with
  | nil => by_cases same : zone.id = id <;> simp [insertZone, same]
  | cons head tail inductionHypothesis =>
      have headDiffers : head.id ≠ zone.id := by
        intro same
        simp [same] at unclaimed
      have unclaimedTail : tail.find? (·.id = zone.id) = none := by
        simpa [headDiffers] using unclaimed
      unfold insertZone
      split
      · by_cases same : zone.id = id <;> simp [same]
      · by_cases isHead : head.id = id
        · have differs : zone.id ≠ id := by
            rw [← isHead]
            exact headDiffers.symm
          simp [isHead, differs]
        · simp [isHead, inductionHypothesis unclaimedTail]

namespace Registry

variable {registry smaller larger : Registry} {zone : ZoneDefinition}

/-- The declaration that holds a zone id. -/
def holder? (registry : Registry) (id : UInt8) : Option Nat :=
  (registry.zone? id).map (·.declaration)

/-- The id of a zone is held by its own declaration. -/
def Holds (registry : Registry) (zone : ZoneDefinition) : Prop :=
  registry.holder? zone.id = some zone.declaration

/-- The id of a zone is not held by another declaration. -/
def Admits (registry : Registry) (zone : ZoneDefinition) : Prop :=
  ∀ declaration, registry.holder? zone.id = some declaration → declaration = zone.declaration

/-- Every id of one registry is held by the same declaration in the other. -/
def Below (smaller larger : Registry) : Prop :=
  ∀ id declaration, smaller.holder? id = some declaration →
    larger.holder? id = some declaration

theorem Below.refl (registry : Registry) : registry.Below registry := fun _ _ held => held

theorem Below.trans {middle : Registry} (first : smaller.Below middle)
    (second : middle.Below larger) : smaller.Below larger :=
  fun id declaration held => second id declaration (first id declaration held)

theorem Holds.mono (holds : smaller.Holds zone) (below : smaller.Below larger) :
    larger.Holds zone :=
  below _ _ holds

/-- Registering a zone whose id nobody holds adds it. -/
theorem register_of_unclaimed (unclaimed : registry.holder? zone.id = none) :
    ∃ extended, registry.register zone = .added extended ∧
      ∀ id, extended.holder? id =
        if zone.id = id then some zone.declaration else registry.holder? id := by
  have absent : registry.zone? zone.id = none := Option.map_eq_none_iff.mp unclaimed
  refine ⟨⟨insertZone zone registry.zones⟩, ?_, fun id => ?_⟩
  · rw [register, absent]
  · unfold holder? zone?
    rw [find?_insertZone absent]
    by_cases same : zone.id = id
    · rw [if_pos same, if_pos same]
      rfl
    · rw [if_neg same, if_neg same]

theorem Below.admits (below : smaller.Below larger) (holds : larger.Holds zone) :
    smaller.Admits zone := by
  intro declaration claimed
  have sameHolder := below _ _ claimed
  rw [holds] at sameHolder
  exact (Option.some.inj sameHolder).symm

theorem holds_of_added {extended : Registry} (holders : ∀ id, extended.holder? id =
      if zone.id = id then some zone.declaration else registry.holder? id) :
    extended.Holds zone := by
  rw [Holds, holders, if_pos rfl]

theorem below_of_added {extended : Registry} (unclaimed : registry.holder? zone.id = none)
    (holders : ∀ id, extended.holder? id =
      if zone.id = id then some zone.declaration else registry.holder? id) :
    registry.Below extended := by
  intro id declaration held
  have differs : zone.id ≠ id := by
    rintro rfl
    rw [unclaimed] at held
    cases held
  rw [holders, if_neg differs]
  exact held

/-- A registry that admits a zone is below one that holds it. -/
theorem Admits.exists_holds (admits : registry.Admits zone) :
    ∃ larger : Registry, registry.Below larger ∧ larger.Holds zone := by
  cases claimed : registry.holder? zone.id with
  | some declaration =>
      refine ⟨registry, .refl _, ?_⟩
      rw [Holds, claimed, admits declaration claimed]
  | none =>
      obtain ⟨extended, _, holders⟩ := register_of_unclaimed claimed
      exact ⟨extended, below_of_added claimed holders, holds_of_added holders⟩

theorem register_of_holds (holds : registry.Holds zone) :
    registry.register zone = .alreadyHeld := by
  obtain ⟨existing, found, sameDeclaration⟩ := Option.map_eq_some_iff.mp holds
  rw [register, found]
  simp only [sameDeclaration, ↓reduceIte]

theorem register_of_claimed {declaration : Nat}
    (claimed : registry.holder? zone.id = some declaration)
    (differs : declaration ≠ zone.declaration) :
    ∃ conflict, registry.register zone = .conflict conflict := by
  obtain ⟨existing, found, rfl⟩ := Option.map_eq_some_iff.mp claimed
  refine ⟨⟨zone.id, existing.name, zone.name⟩, ?_⟩
  rw [register, found]
  simp only [differs, ↓reduceIte]

end Registry

/-- Zone definitions with one declaration are one definition. -/
def Vocabulary.ZonesDeclared {Request : Type} (vocabulary : Vocabulary Request) : Prop :=
  ∀ left right, (vocabulary.kind left).zone.declaration = (vocabulary.kind right).zone.declaration →
    (vocabulary.kind left).zone = (vocabulary.kind right).zone

namespace Session

variable {Request : Type} {Value : Request → Type} {World : Type}
variable {program : Program Request Value World}
variable {session met after : Session Request Value World} {request : Request}
variable {zone : ZoneDefinition} {larger : Registry}

/-- What a session knows about zones. -/
def zones (session : Session Request Value World) : Registry × List Nat :=
  (session.registry, session.evaluator.knownZones)

theorem registry_of_zones_eq (sameZones : after.zones = session.zones) :
    after.registry = session.registry :=
  congrArg Prod.fst sameZones

theorem knownZones_of_zones_eq (sameZones : after.zones = session.zones) :
    after.evaluator.knownZones = session.evaluator.knownZones :=
  congrArg Prod.snd sameZones

/-! ### Operations that register no zone -/

@[simp]
theorem zones_notifyStarted (kind inputs : String) :
    (session.notifyStarted kind inputs).zones = session.zones := by
  unfold notifyStarted
  split <;> rfl

@[simp]
theorem zones_notifyFinished (kind : String) :
    (session.notifyFinished kind).zones = session.zones := by
  unfold notifyFinished
  split <;> rfl

@[simp]
theorem zones_recorded [DecidableEq Request] :
    (session.recorded request).zones = session.zones := rfl

@[simp]
theorem zones_countHit : (session.countHit program request).zones = session.zones := by
  unfold countHit
  split <;> rfl

@[simp]
theorem zones_rejected [DecidableEq Request] :
    (session.rejected program request).zones = session.zones := by
  unfold rejected
  split <;> rfl

@[simp]
theorem zones_entered : (session.entered program request).zones = session.zones := by
  unfold entered
  rw [zones_notifyStarted]
  rfl

@[simp]
theorem zones_popped : (session.popped program request).zones = session.zones := rfl

@[simp]
theorem zones_failedComputation (failure : Failure) :
    (session.failedComputation program request failure).zones = session.zones := rfl

theorem zones_kept [DecidableEq Request] {value : Value request}
    (keeps : session.kept program request value = .ok after) : after.zones = session.zones := by
  unfold kept at keeps
  split at keeps
  · cases keeps
    rfl
  · cases inserts : session.evaluator.cache.insert program.kind request value with
    | error clash =>
        rw [inserts] at keeps
        cases keeps
    | ok inserted =>
        rw [inserts] at keeps
        cases keeps
        rfl
  · cases keeps
    rfl

theorem zones_concluded [DecidableEq Request] {outcome concluded : Outcome (Value request)}
    (concludes : session.concluded program request outcome = (concluded, after)) :
    after.zones = session.zones := by
  cases outcome with
  | aborted message =>
      cases concludes
      exact zones_notifyFinished _
  | tooDeep =>
      cases concludes
      exact zones_notifyFinished _
  | failed failure =>
      cases concludes
      rw [zones_failedComputation, zones_popped, zones_notifyFinished]
  | success value =>
      simp only [Session.concluded] at concludes
      split at concludes
      case h_1 stored keeps =>
        cases concludes
        rw [zones_kept keeps, zones_popped, zones_notifyFinished]
      case h_2 clash _ =>
        cases concludes
        rw [zones_popped, zones_notifyFinished]

/-- Taking a request up registers its zone and no other. -/
theorem Receives.meets [DecidableEq Request] {reception : Reception (Value request)}
    (received : Receives program request session reception after)
    (admitted : ∀ conflict, reception ≠ .conflicting conflict) :
    ∃ met, session.meetZone (program.kind request).zone = (none, met) ∧
      after.zones = met.zones := by
  cases received with
  | conflicting _ => exact absurd rfl (admitted _)
  | refused meets _ => exact ⟨_, meets, zones_recorded⟩
  | held meets _ _ => exact ⟨_, meets, by rw [zones_countHit, zones_recorded]⟩
  | rejected meets _ _ _ => exact ⟨_, meets, by rw [zones_rejected, zones_recorded]⟩
  | computing meets _ _ _ => exact ⟨_, meets, by rw [zones_entered, zones_recorded]⟩

/-! ### Meeting zones -/

/-- Every zone that an evaluator has met holds its id. -/
def ZonesHeld (vocabulary : Vocabulary Request) (session : Session Request Value World) : Prop :=
  ∀ request, (vocabulary.kind request).zone.declaration ∈ session.evaluator.knownZones →
    session.registry.Holds (vocabulary.kind request).zone

theorem ZonesHeld.congr (held : ZonesHeld program.toVocabulary session)
    (sameZones : after.zones = session.zones) : ZonesHeld program.toVocabulary after := by
  intro request known
  rw [knownZones_of_zones_eq sameZones] at known
  rw [registry_of_zones_eq sameZones]
  exact held request known

theorem holds_of_registerZone (registers : session.registerZone zone = (none, met)) :
    session.registry.Below met.registry ∧ met.registry.Holds zone ∧
      met.evaluator.knownZones = session.evaluator.knownZones := by
  unfold registerZone at registers
  cases claimed : session.registry.holder? zone.id with
  | none =>
      obtain ⟨extended, adds, holders⟩ := Registry.register_of_unclaimed claimed
      rw [adds] at registers
      cases registers
      exact ⟨Registry.below_of_added claimed holders, Registry.holds_of_added holders, rfl⟩
  | some declaration =>
      by_cases same : declaration = zone.declaration
      · subst same
        rw [Registry.register_of_holds claimed] at registers
        cases registers
        exact ⟨.refl _, claimed, rfl⟩
      · obtain ⟨conflict, refuses⟩ := Registry.register_of_claimed claimed same
        rw [refuses] at registers
        cases registers

/-- A zone that was met holds its id, and no other id is lost. -/
theorem holds_of_meetZone (declared : program.ZonesDeclared)
    (held : ZonesHeld program.toVocabulary session)
    (meets : session.meetZone (program.kind request).zone = (none, met)) :
    session.registry.Below met.registry ∧ met.registry.Holds (program.kind request).zone ∧
      ZonesHeld program.toVocabulary met := by
  unfold meetZone at meets
  split at meets
  case isTrue known =>
    cases meets
    exact ⟨.refl _, held request known, held⟩
  case isFalse =>
    obtain ⟨below, holds, known⟩ := holds_of_registerZone meets
    refine ⟨below, holds, fun other otherKnown => ?_⟩
    rw [known] at otherKnown
    rcases List.mem_append.mp otherKnown with before | isNew
    · exact (held other before).mono below
    · rw [declared other request (List.mem_singleton.mp isNew)]
      exact holds

/-- A zone that a larger registry holds can be met. -/
theorem meets_of_holds (below : session.registry.Below larger) (holds : larger.Holds zone) :
    ∃ met, session.meetZone zone = (none, met) ∧ met.registry.Below larger := by
  unfold meetZone
  split
  case isTrue => exact ⟨session, rfl, below⟩
  case isFalse =>
    unfold registerZone
    cases claimed : session.registry.holder? zone.id with
    | none =>
        obtain ⟨extended, adds, holders⟩ := Registry.register_of_unclaimed claimed
        rw [adds]
        refine ⟨_, rfl, fun id declaration held => ?_⟩
        change extended.holder? id = some declaration at held
        rw [holders] at held
        split at held
        case isTrue same =>
          subst same
          cases held
          exact holds
        case isFalse => exact below id declaration held
    | some declaration =>
        have same := below _ _ claimed
        rw [holds] at same
        cases same
        rw [Registry.register_of_holds claimed]
        exact ⟨_, rfl, below⟩

end Session

end RequestEngine
