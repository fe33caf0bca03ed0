import RequestEngine.Proofs.Career
import RequestEngine.Workbench

/-!
Contract: conflicts between zones that claim one id.

Owns:
- the ways in which an evaluator meets a zone, and the conflicts of a history;
- that the first conflict of a zone is caught before anything else happens, and
  that only the first one is;
- that nothing is done for a zone that does not hold its id, unless a conflict of
  that zone was caught before.

A zone counts as met even when its registration is refused, and a zone that was
met is not compared again. So an evaluator that survives a conflict lets the zone
pass from then on, and runs its computations.

Does not own: identities that kinds of conflicting zones share.
-/

namespace RequestEngine

namespace Session

variable {Request : Type} {Value : Request → Type} {World : Type}
variable {session met : Session Request Value World} {zone : ZoneDefinition}
variable {conflict : Option ZoneConflict}

/-- The session after a zone was met for the first time. -/
def marked (zone : ZoneDefinition) (session : Session Request Value World) :
    Session Request Value World :=
  { session with
    evaluator := { session.evaluator with
      knownZones := session.evaluator.knownZones ++ [zone.declaration] } }

theorem conflict_of_registerZone {caught : ZoneConflict}
    (registers : session.registerZone zone = (some caught, met)) :
    met = session ∧ ∃ existing, session.registry.zone? zone.id = some existing ∧
      existing.declaration ≠ zone.declaration ∧ caught = ⟨zone.id, existing.name, zone.name⟩ := by
  unfold registerZone Registry.register at registers
  cases claimed : session.registry.zone? zone.id with
  | none =>
      rw [claimed] at registers
      cases registers
  | some existing =>
      rw [claimed] at registers
      by_cases same : existing.declaration = zone.declaration
      · simp [same] at registers
      · simp only [same, ↓reduceIte, Prod.mk.injEq, Option.some.injEq] at registers
        exact ⟨registers.2.symm, existing, rfl, same, registers.1.symm⟩

/-- The three ways in which a zone is met. -/
inductive Meets (session : Session Request Value World) (zone : ZoneDefinition) :
    Option ZoneConflict → Session Request Value World → Prop where
  /-- It was met before, and is not compared with the registry. -/
  | known (isKnown : zone.declaration ∈ session.evaluator.knownZones) :
      Meets session zone none session
  | registered {met : Session Request Value World}
      (below : session.registry.Below met.registry) (holds : met.registry.Holds zone)
      (known : met.evaluator.knownZones = session.evaluator.knownZones ++ [zone.declaration]) :
      Meets session zone none met
  | conflicting {existing : ZoneDefinition}
      (claimed : session.registry.zone? zone.id = some existing)
      (differs : existing.declaration ≠ zone.declaration) :
      Meets session zone (some ⟨zone.id, existing.name, zone.name⟩) (session.marked zone)

theorem meets_of_meetZone (meets : session.meetZone zone = (conflict, met)) :
    Meets session zone conflict met := by
  unfold meetZone at meets
  split at meets
  case isTrue isKnown =>
    cases meets
    exact .known isKnown
  case isFalse =>
    cases conflict with
    | none =>
        obtain ⟨below, holds, known⟩ := holds_of_registerZone meets
        exact .registered below holds known
    | some caught =>
        obtain ⟨rfl, existing, claimed, differs, rfl⟩ := conflict_of_registerZone meets
        exact .conflicting claimed differs

theorem meetZone_of_known (isKnown : zone.declaration ∈ session.evaluator.knownZones) :
    session.meetZone zone = (none, session) := by
  rw [meetZone, if_pos isKnown]

/-- A zone that was not met yet conflicts when another one holds its id. -/
theorem meetZone_of_claimed {existing : ZoneDefinition}
    (unknown : zone.declaration ∉ session.evaluator.knownZones)
    (claimed : session.registry.zone? zone.id = some existing)
    (differs : existing.declaration ≠ zone.declaration) :
    session.meetZone zone =
      (some ⟨zone.id, existing.name, zone.name⟩, session.marked zone) := by
  simp only [meetZone, if_neg unknown, registerZone, Registry.register, claimed, if_neg differs]
  rfl

end Session

/-- The requests of the workbench are of four zones. -/
theorem Scenario.zonesDeclared (scenario : Scenario) : scenario.program.ZonesDeclared := by
  let zones := [analysisZone, fixturesZone, scriptZone, twinZone]
  have listed : ∀ request : WorkbenchRequest, request.kind.zone ∈ zones := by
    rintro (request | request | _ | _ | _ | _ | _ | _ | _)
    case analysis => cases request <;> simp [zones, WorkbenchRequest.kind, AnalysisRequest.kind]
    case fixture => cases request <;> simp [zones, WorkbenchRequest.kind, FixtureRequest.kind]
    all_goals simp [zones, WorkbenchRequest.kind]
  have distinct : ∀ left ∈ zones, ∀ right ∈ zones, left.declaration = right.declaration →
      left = right := by decide
  exact fun left right => distinct _ (listed left) _ (listed right)

namespace Program

variable {Request : Type} [DecidableEq Request] {Value : Request → Type} {World : Type}
variable {program : Program Request Value World} {options : Options} {zone : ZoneDefinition}
variable {session before after : Session Request Value World} {event : Event Request Value World}
variable {history past more : List (Event Request Value World)}

/-- A conflict of a zone was caught in a history. -/
def Conflicted (program : Program Request Value World) (history : List (Event Request Value World))
    (zone : ZoneDefinition) : Prop :=
  ∃ request conflict, .received request (.conflicting conflict) ∈ history ∧
    (program.kind request).zone = zone

omit [DecidableEq Request] in
theorem Conflicted.append (conflicted : Conflicted program past zone) :
    Conflicted program (past ++ more) zone := by
  obtain ⟨request, conflict, happened, isZone⟩ := conflicted
  exact ⟨request, conflict, List.mem_append_left _ happened, isZone⟩

omit [DecidableEq Request] in
/-- A conflict of a history is a conflict of its past or its last event. -/
theorem conflicted_or_last (conflicted : Conflicted program (past ++ [event]) zone) :
    Conflicted program past zone ∨ ∃ request conflict,
      event = .received request (.conflicting conflict) ∧ (program.kind request).zone = zone := by
  obtain ⟨request, conflict, happened, isZone⟩ := conflicted
  rcases List.mem_append.mp happened with before | isLast
  · exact .inl ⟨request, conflict, before, isZone⟩
  · exact .inr ⟨request, conflict, (List.mem_singleton.mp isLast).symm, isZone⟩

/-- What an evaluator has compared with the registry, and what not. -/
structure Compared (program : Program Request Value World)
    (history : List (Event Request Value World)) (session : Session Request Value World) :
    Prop where
  /-- Zones that conflicted were met. -/
  marked : ∀ request, Conflicted program history (program.kind request).zone →
    (program.kind request).zone.declaration ∈ session.evaluator.knownZones
  /-- Zones that were met hold their ids, unless they conflicted. -/
  known : ∀ request, (program.kind request).zone.declaration ∈ session.evaluator.knownZones →
    session.registry.Holds (program.kind request).zone ∨
      Conflicted program history (program.kind request).zone
  /-- So do the zones of requests that were let pass. -/
  admitted : ∀ {earlier later request reception},
    history = earlier ++ .received request reception :: later →
    (∀ conflict, reception ≠ .conflicting conflict) →
    session.registry.Holds (program.kind request).zone ∨
      Conflicted program earlier (program.kind request).zone

namespace Compared

section Growth

omit [DecidableEq Request]

/-- The registry grows and an event is added. What is new about met zones, about
conflicts and about the event is given. -/
private theorem extend (compared : Compared program past before)
    (below : before.registry.Below after.registry)
    (keeps : before.evaluator.knownZones ⊆ after.evaluator.knownZones)
    (known : ∀ request, (program.kind request).zone.declaration ∈ after.evaluator.knownZones →
      (program.kind request).zone.declaration ∈ before.evaluator.knownZones ∨
      after.registry.Holds (program.kind request).zone ∨
      Conflicted program (past ++ [event]) (program.kind request).zone)
    (marked : ∀ request conflict, event = .received request (.conflicting conflict) →
      (program.kind request).zone.declaration ∈ after.evaluator.knownZones)
    (admitted : ∀ request reception, event = .received request reception →
      (∀ conflict, reception ≠ .conflicting conflict) →
      after.registry.Holds (program.kind request).zone ∨
        Conflicted program past (program.kind request).zone) :
    Compared program (past ++ [event]) after where
  marked := by
    intro request conflicted
    rcases conflicted_or_last conflicted with inPast | ⟨culprit, conflict, isLast, isZone⟩
    · exact keeps (compared.marked request inPast)
    · exact isZone ▸ marked culprit conflict isLast
  known := by
    intro request isKnown
    rcases known request isKnown with wasKnown | accounted
    · exact (compared.known request wasKnown).imp (·.mono below) (·.append)
    · exact accounted
  admitted := by
    intro earlier later request reception parts noConflict
    rcases newest_or_earlier parts with ⟨rfl, isReceived⟩ | ⟨further, inPast⟩
    · exact admitted request reception isReceived noConflict
    · exact (compared.admitted inPast noConflict).imp_left (·.mono below)

/-- An event that meets no zone. -/
private theorem unmet (compared : Compared program past before)
    (sameZones : after.zones = before.zones)
    (meetsNone : ∀ request reception, event ≠ .received request reception) :
    Compared program (past ++ [event]) after := by
  have sameKnown := Session.knownZones_of_zones_eq sameZones
  refine compared.extend ?_ (sameKnown ▸ List.Subset.refl _) (fun request isKnown => .inl ?_) ?_ ?_
  · rw [Session.registry_of_zones_eq sameZones]
    exact .refl _
  · rwa [sameKnown] at isKnown
  · exact fun request conflict isReceived => absurd isReceived (meetsNone request _)
  · exact fun request reception isReceived => absurd isReceived (meetsNone request reception)

/-- A request that is let pass. Its zone was met before, or holds its id now. -/
private theorem passed {request : Request} {reception : Reception (Value request)}
    {met : Session Request Value World} (compared : Compared program past before)
    (declared : program.ZonesDeclared)
    (meets : Session.Meets before (program.kind request).zone none met)
    (sameZones : after.zones = met.zones)
    (noConflict : ∀ conflict, reception ≠ .conflicting conflict) :
    Compared program (past ++ [.received request reception]) after := by
  have sameRegistry := Session.registry_of_zones_eq sameZones
  have sameKnown := Session.knownZones_of_zones_eq sameZones
  have notMarked : ∀ (other : Request) conflict,
      (Event.received request reception : Event Request Value World) =
        .received other (.conflicting conflict) →
      (program.kind other).zone.declaration ∈ after.evaluator.knownZones := by
    intro other conflict isConflict
    cases isConflict
    exact absurd rfl (noConflict conflict)
  cases meets with
  | known isKnown =>
      refine compared.extend (sameRegistry ▸ .refl _) (sameKnown ▸ List.Subset.refl _)
        (fun other otherKnown => .inl (sameKnown ▸ otherKnown)) notMarked ?_
      rintro other _ isReceived -
      cases isReceived
      rw [sameRegistry]
      exact compared.known request isKnown
  | registered below holds known =>
      rw [← sameRegistry] at below holds
      rw [known] at sameKnown
      refine compared.extend below (sameKnown ▸ List.subset_append_left _ _) ?_ notMarked ?_
      · intro other otherKnown
        rw [sameKnown] at otherKnown
        rcases List.mem_append.mp otherKnown with wasKnown | isNew
        · exact .inl wasKnown
        · rw [declared other request (List.mem_singleton.mp isNew)]
          exact .inr (.inl holds)
      · rintro other _ isReceived -
        cases isReceived
        exact .inl holds

/-- A conflict of a zone that was not met yet. -/
private theorem conflicting {request : Request} {conflict : ZoneConflict}
    (compared : Compared program past before) (declared : program.ZonesDeclared)
    (meets : Session.Meets before (program.kind request).zone (some conflict) after) :
    Compared program (past ++ [.received request (.conflicting conflict)]) after := by
  cases meets with
  | conflicting claimed differs =>
      refine compared.extend (.refl _) (List.subset_append_left _ _) ?_ ?_ ?_
      · intro other otherKnown
        rcases List.mem_append.mp otherKnown with wasKnown | isNew
        · exact .inl wasKnown
        · have sameZone := declared other request (List.mem_singleton.mp isNew)
          exact .inr (.inr ⟨request, _, List.mem_append_right _ List.mem_cons_self, sameZone.symm⟩)
      · intro other _ isConflict
        cases isConflict
        exact List.mem_append_right _ List.mem_cons_self
      · intro other _ isReceived noConflict
        cases isReceived
        exact absurd rfl (noConflict _)

end Growth

private theorem received {request : Request} {reception : Reception (Value request)}
    (compared : Compared program past before) (declared : program.ZonesDeclared)
    (receives : Session.Receives program request before reception after) :
    Compared program (past ++ [.received request reception]) after := by
  cases reception with
  | conflicting conflict =>
      cases receives with
      | conflicting meets => exact compared.conflicting declared (Session.meets_of_meetZone meets)
  | _ =>
      obtain ⟨met, meets, sameZones⟩ := receives.meets (by simp)
      exact compared.passed declared (Session.meets_of_meetZone meets) sameZones (by simp)

theorem step (compared : Compared program past before) (declared : program.ZonesDeclared)
    (step : Step program before event after) : Compared program (past ++ [event]) after := by
  cases step with
  | received receives => exact compared.received declared (Session.receive_eq_iff.mp receives)
  | finished _ concludes => exact compared.unmet (Session.zones_concluded concludes) (by simp)
  | abandoned => exact compared.unmet (Session.zones_notifyFinished _) (by simp)
  | reported => exact compared.unmet rfl (by simp)
  | updated => exact compared.unmet rfl (by simp)

end Compared

theorem Visits.compared (visits : Visits program options history session)
    (declared : program.ZonesDeclared) : Compared program history session := by
  refine visits.preserves (Compared program) ?_ ?_ ?_
  · intro session observed isFresh
    refine ⟨?_, fun request isKnown => ?_, by simp⟩
    · rintro request ⟨_, _, happened, _⟩
      cases happened
    · rw [isFresh] at isKnown
      cases isKnown
  · intro past event before after step compared
    exact compared.step declared step
  · intro past before after sameEvaluator below compared
    refine ⟨fun request conflicted => ?_, fun request isKnown => ?_, fun parts noConflict => ?_⟩
    · rw [sameEvaluator]
      exact compared.marked request conflicted
    · rw [sameEvaluator] at isKnown
      exact (compared.known request isKnown).imp_left (·.mono below)
    · exact (compared.admitted parts noConflict).imp_left (·.mono below)

/-- What an evaluator does about zones that claim one id. -/
structure ZonesGuarded (program : Program Request Value World)
    (history : List (Event Request Value World)) (session : Session Request Value World) :
    Prop where
  /-- The first conflict of a zone is caught before anything is recorded, looked up
  or computed: nothing changes but that the zone was met. -/
  caught : ∀ {request existing},
    session.registry.zone? (program.kind request).zone.id = some existing →
    existing.declaration ≠ (program.kind request).zone.declaration →
    ¬ Conflicted program history (program.kind request).zone → ∀ depth,
    program.evaluate (depth + 1) request session =
      (.aborted (ZoneConflict.message ⟨(program.kind request).zone.id, existing.name,
          (program.kind request).zone.name⟩),
        session.marked (program.kind request).zone)
  /-- From then on the zone is not compared again. -/
  survived : ∀ {request}, Conflicted program history (program.kind request).zone →
    session.meetZone (program.kind request).zone = (none, session)
  /-- A request was let pass, to be recorded, looked up and computed, only if its
  zone held the id, as it does now, or if a conflict of that zone was caught
  before. -/
  passed : ∀ {earlier later request reception},
    history = earlier ++ .received request reception :: later →
    (∀ conflict, reception ≠ .conflicting conflict) →
    ¬ Conflicted program earlier (program.kind request).zone →
    session.registry.Holds (program.kind request).zone

/-- The first conflict of every zone is caught, at every moment of the career of an
evaluator, whatever others have registered in the meantime. -/
theorem Visits.zonesGuarded (visits : Visits program options history session)
    (declared : program.ZonesDeclared) : ZonesGuarded program history session := by
  have compared := visits.compared declared
  refine ⟨fun {request existing} claimed differs unconflicted depth => ?_,
    fun conflicted => Session.meetZone_of_known (compared.marked _ conflicted),
    fun parts noConflict unconflicted =>
      (compared.admitted parts noConflict).resolve_right unconflicted⟩
  have unknown : (program.kind request).zone.declaration ∉ session.evaluator.knownZones := by
    intro isKnown
    have holds := (compared.known request isKnown).resolve_right unconflicted
    rw [Registry.Holds, Registry.holder?, claimed, Option.map_some] at holds
    exact differs (Option.some.inj holds)
  have meets := Session.meetZone_of_claimed unknown claimed differs
  exact evaluate_of_refusal (Session.receive_eq_iff.mpr (.conflicting meets)) rfl

/-- The zone of the scripts is registered when a request of the second zone that
claims its id is made. -/
theorem zonesGuarded_twins :
    let program := ({} : Scenario).program
    let created : Session WorkbenchRequest WorkbenchValue WorkbenchState :=
      { evaluator := .fresh {} false, registry := Registry.initial.afterRegister scriptZone
        world := {} }
    let conflicted := created.marked twinZone
    program.ZonesDeclared ∧ Visits program {} [] created ∧
      program.evaluate 1 (.intruder "x") created =
        (.aborted (ZoneConflict.message ⟨210, "Script", "Twin"⟩), conflicted) ∧
      ∃ history, Visits program {} history conflicted ∧
        ZonesGuarded program history conflicted := by
  intro program created conflicted
  have declared : program.ZonesDeclared := Scenario.zonesDeclared {}
  have visits : Visits program {} [] created := .created rfl
  have guarded := visits.zonesGuarded declared
  have unconflicted :
      ¬ Conflicted program [] (program.kind (.intruder "x")).zone := by
    rintro ⟨_, _, happened, _⟩
    cases happened
  have claimed : created.registry.zone? (program.kind (.intruder "x")).zone.id =
      some scriptZone := by decide +kernel
  have caught := guarded.caught claimed (by decide) unconflicted 0
  obtain ⟨call, runs⟩ := exists_run_of_run ((run_evaluate ..).trans caught) (by simp)
  have further : Visits program {} call conflicted := .called rfl runs
  exact ⟨declared, visits, caught, _, further, further.zonesGuarded declared⟩

/-- The second conflict of one zone is not caught: the computation is run and its
value is stored, although another zone still holds the id. -/
theorem second_conflict_passes :
    let program := ({} : Scenario).program
    let created : Session WorkbenchRequest WorkbenchValue WorkbenchState :=
      { evaluator := .fresh {} false, registry := Registry.initial.afterRegister scriptZone
        world := {} }
    let conflicted := (program.evaluate 1 (.intruder "x") created).2
    let passed := (program.evaluate 1 (.intruder "x") conflicted).2
    (∃ history, Visits program {} history conflicted) ∧
      (program.evaluate 1 (.intruder "x") created).1 =
        .aborted (ZoneConflict.message ⟨210, "Script", "Twin"⟩) ∧
      (program.evaluate 1 (.intruder "x") conflicted).1 = .success "intruder x" ∧
      passed.registry.zone? (program.kind (.intruder "x")).zone.id = some scriptZone ∧
      (program.kind (.intruder "x")).zone.declaration ≠ scriptZone.declaration ∧
      passed.evaluator.metrics.computations = 1 ∧ passed.evaluator.cache.length = 1 := by
  intro program created conflicted passed
  have conflicts : program.evaluate 1 (.intruder "x") created =
      (.aborted (ZoneConflict.message ⟨210, "Script", "Twin"⟩), conflicted) := rfl
  obtain ⟨call, runs⟩ := exists_run_of_run ((run_evaluate ..).trans conflicts) (by simp)
  refine ⟨⟨call, .called rfl runs⟩, rfl, rfl, ?_, ?_, rfl, rfl⟩
  · decide +kernel
  · decide

end Program

end RequestEngine
