import RequestEngine.Zone.Primitive

/-!
Contract: the append-only table of zone definitions.

Owns:
- registration, with the refusal of a second definition for a claimed id;
- resolving identities to names.

The table always holds the primitive zone, and its ids increase strictly.

Does not own: when a zone is registered; the evaluator does that on first use.
-/

namespace RequestEngine

/-- Inserts a zone before the first one with a greater id. -/
def insertZone (zone : ZoneDefinition) : List ZoneDefinition → List ZoneDefinition
  | [] => [zone]
  | head :: tail =>
      if zone.id < head.id then zone :: head :: tail else head :: insertZone zone tail

/-- The zone definitions registered so far, ordered by id. -/
structure Registry where
  zones : List ZoneDefinition
deriving Repr

/-- Two definitions claim the same zone id. -/
structure ZoneConflict where
  id : UInt8
  existing : String
  claimed : String
deriving DecidableEq, Repr

def ZoneConflict.message (conflict : ZoneConflict) : String :=
  "type zone id " ++ toString conflict.id.toNat ++ " is claimed by both '" ++
    conflict.existing ++ "' and '" ++ conflict.claimed ++ "'"

/-- What became of a registration. -/
inductive Registration where
  | added (registry : Registry)
  | alreadyHeld
  | conflict (conflict : ZoneConflict)

namespace Registry

/-- The registry that holds the primitive zone only. -/
def initial : Registry := ⟨[primitiveZone]⟩

def zone? (registry : Registry) (id : UInt8) : Option ZoneDefinition :=
  registry.zones.find? (·.id = id)

def isRegistered (registry : Registry) (id : UInt8) : Bool :=
  (registry.zone? id).isSome

/-- Registers a zone. Registering the definition that already holds the id
changes nothing, and any other definition for that id is refused. -/
def register (registry : Registry) (zone : ZoneDefinition) : Registration :=
  match registry.zone? zone.id with
  | none => .added ⟨insertZone zone registry.zones⟩
  | some existing =>
      if existing.declaration = zone.declaration then .alreadyHeld
      else .conflict ⟨zone.id, existing.name, zone.name⟩

/-- The registry after a registration; a refused one leaves it unchanged. -/
def afterRegister (registry : Registry) (zone : ZoneDefinition) : Registry :=
  match registry.register zone with
  | .added extended => extended
  | .alreadyHeld | .conflict _ => registry

/-- The entry of the outermost constructor of an identity. -/
def constructor? (registry : Registry) (identity : Identity) : Option ZoneEntry := do
  let zone ← registry.zone? identity.zone
  zone.entryAt? identity.localId

/-- The name of an identity. A template is followed by the name of its argument
between angle brackets; a name exists only if every part of it does. Every
step moves on to a smaller word. -/
def nameOf? (registry : Registry) (identity : Identity) : Option String :=
  match registry.constructor? identity with
  | none => none
  | some ⟨.type, name⟩ => some name
  | some ⟨.template, name⟩ =>
      if _ : identity.code = 0 then none
      else (registry.nameOf? identity.argument).map fun argument =>
        name ++ "<" ++ argument ++ ">"
termination_by identity.code
decreasing_by
  simp only [Identity.code_argument]
  unfold chunkSize
  omega

/-- The name of an identity, or a placeholder that shows where it would be. -/
def name (registry : Registry) (identity : Identity) : String :=
  (registry.nameOf? identity).getD
    ("<unregistered " ++ toString identity.zone.toNat ++ ":" ++
      toString identity.localId.toNat ++ ">")

@[simp]
theorem zone?_initial_zero : initial.zone? 0 = some primitiveZone := rfl

end Registry

theorem mem_insertZone {zone other : ZoneDefinition} {zones : List ZoneDefinition} :
    other ∈ insertZone zone zones ↔ other = zone ∨ other ∈ zones := by
  induction zones with
  | nil => simp [insertZone]
  | cons head tail inductionHypothesis =>
      unfold insertZone
      split
      · simp
      · simp only [List.mem_cons, inductionHypothesis]
        constructor
        · rintro (isHead | isZone | inTail)
          · exact .inr (.inl isHead)
          · exact .inl isZone
          · exact .inr (.inr inTail)
        · rintro (isZone | isHead | inTail)
          · exact .inr (.inl isZone)
          · exact .inl isHead
          · exact .inr (.inr inTail)

end RequestEngine
