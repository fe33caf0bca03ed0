import Mathlib.Algebra.Group.Nat.Defs
import Mathlib.Data.List.Pairwise
import RequestEngine.Fixtures
import RequestEngine.Proofs.Registration

/-!
Contract: what holds of a registry after any sequence of registrations.

Owns:
- registries after some calls, where refused calls are caught and the next one is made;
- who holds an id, which calls are refused, and the order of the zones;
- resolving an identity as a plain recursion over its chunks, and the end of it.

The recursion on identities has no guard of its own. Taking a template off a
word divides it by the chunk size, so after four templates only the word of
zeros is left, and that one is its own argument. The recursion ends because the
first entry of the primitive zone, which the word of zeros stands for, is a
plain type, and no registration takes that zone away.

Does not own: the zones that evaluators have met; they register each zone once.
-/

namespace RequestEngine

/-- The word of zeros, which stands for the first primitive type. -/
def Identity.zero : Identity := { code := 0 }

/-- Stripping constructors from the word of zeros never ends. -/
@[simp]
theorem Identity.argument_zero : Identity.zero.argument = Identity.zero := rfl

theorem id_ne_of_unclaimed {zone : ZoneDefinition} {zones : List ZoneDefinition}
    (unclaimed : zones.find? (·.id = zone.id) = none) : ∀ other ∈ zones, other.id ≠ zone.id := by
  intro other listed
  simpa using List.find?_eq_none.mp unclaimed other listed

/-- Inserting a zone whose id is free keeps the ids strictly increasing. -/
theorem pairwise_insertZone {zone : ZoneDefinition} {zones : List ZoneDefinition}
    (increasing : zones.Pairwise (·.id < ·.id)) (unclaimed : ∀ other ∈ zones, other.id ≠ zone.id) :
    (insertZone zone zones).Pairwise (·.id < ·.id) := by
  induction zones with
  | nil => exact List.pairwise_singleton _ _
  | cons head tail inductionHypothesis =>
      obtain ⟨headBelow, increasingTail⟩ := List.pairwise_cons.mp increasing
      unfold insertZone
      split
      case isTrue below =>
        refine List.pairwise_cons.mpr ⟨fun other listed => ?_, increasing⟩
        cases listed with
        | head => exact below
        | tail _ inTail => exact UInt8.lt_trans below (headBelow other inTail)
      case isFalse notBelow =>
        have headLess : head.id < zone.id := by
          have differs : head.id ≠ zone.id := unclaimed head List.mem_cons_self
          exact UInt8.lt_of_le_of_ne (UInt8.not_lt.mp notBelow) differs
        refine List.pairwise_cons.mpr ⟨fun other listed => ?_,
          inductionHypothesis increasingTail fun other inTail =>
            unclaimed other (List.mem_cons_of_mem _ inTail)⟩
        rcases mem_insertZone.mp listed with rfl | inTail
        · exact headLess
        · exact headBelow other inTail

namespace Registry

variable {registry : Registry} {zone owner : ZoneDefinition} {calls later : List ZoneDefinition}
variable {identity : Identity} {name : String} {result : Option String} {lookups : Nat}

/-- The registry after some registrations, where refused ones are caught. -/
def afterAll (registry : Registry) (calls : List ZoneDefinition) : Registry :=
  calls.foldl afterRegister registry

@[simp]
theorem afterAll_nil (registry : Registry) : registry.afterAll [] = registry := rfl

@[simp]
theorem afterAll_cons (registry : Registry) (zone : ZoneDefinition)
    (calls : List ZoneDefinition) :
    registry.afterAll (zone :: calls) = (registry.afterRegister zone).afterAll calls := rfl

/-- What holds at first and is kept by every registration holds after all of them. -/
theorem afterAll_preserves {property : Registry → Prop} (holds : property registry)
    (kept : ∀ registry zone, property registry → property (registry.afterRegister zone)) :
    property (registry.afterAll calls) := by
  induction calls generalizing registry with
  | nil => exact holds
  | cons zone calls inductionHypothesis =>
      rw [afterAll_cons]
      exact inductionHypothesis (kept registry zone holds)

/-! ### One registration -/

/-- An id that is held keeps the registry as it is, whichever definition is offered. -/
theorem afterRegister_of_held (held : registry.zone? zone.id = some owner) :
    registry.afterRegister zone = registry := by
  unfold afterRegister register
  rw [held]
  by_cases same : owner.declaration = zone.declaration
  · simp only [same, ↓reduceIte]
  · simp only [same, ↓reduceIte]

theorem afterRegister_of_free (free : registry.zone? zone.id = none) :
    registry.afterRegister zone = ⟨insertZone zone registry.zones⟩ := by
  unfold afterRegister register
  rw [free]

/-- The owner of an id after a registration: the one it had, and otherwise the
definition that was offered. -/
theorem zone?_afterRegister (registry : Registry) (zone : ZoneDefinition) (id : UInt8) :
    (registry.afterRegister zone).zone? id =
      (registry.zone? id).or (if zone.id = id then some zone else none) := by
  cases held : registry.zone? zone.id with
  | some owner =>
      rw [afterRegister_of_held held]
      by_cases same : zone.id = id
      · subst same
        rw [held]
        rfl
      · rw [if_neg same, Option.or_none]
  | none =>
      rw [afterRegister_of_free held]
      show (insertZone zone registry.zones).find? (·.id = id) = _
      rw [find?_insertZone held]
      by_cases same : zone.id = id
      · subst same
        rw [if_pos rfl, if_pos rfl, held]
        rfl
      · rw [if_neg same, if_neg same, Option.or_none]
        rfl

/-- A call is refused exactly when another definition holds the id, and the
refusal names both. -/
theorem register_eq_conflict_iff {conflict : ZoneConflict} :
    registry.register zone = .conflict conflict ↔
      ∃ owner, registry.zone? zone.id = some owner ∧ owner.declaration ≠ zone.declaration ∧
        conflict = ⟨zone.id, owner.name, zone.name⟩ := by
  unfold register
  cases held : registry.zone? zone.id with
  | none => simp
  | some owner =>
      by_cases same : owner.declaration = zone.declaration
      · simp [same]
      · simp only [same, ↓reduceIte, Registration.conflict.injEq, Option.some.injEq]
        constructor
        · rintro rfl
          exact ⟨owner, rfl, same, rfl⟩
        · rintro ⟨_, rfl, _, rfl⟩
          rfl

/-! ### All registrations -/

/-- The owner of an id after some calls: the one it had, and otherwise the first
definition that claimed it. -/
theorem zone?_afterAll (registry : Registry) (calls : List ZoneDefinition) (id : UInt8) :
    (registry.afterAll calls).zone? id = (registry.zone? id).or (calls.find? (·.id = id)) := by
  induction calls generalizing registry with
  | nil => simp
  | cons zone calls inductionHypothesis =>
      rw [afterAll_cons, inductionHypothesis, zone?_afterRegister, Option.or_assoc]
      congr 1
      by_cases same : zone.id = id <;> simp [same]

theorem zone?_afterAll_initial (calls : List ZoneDefinition) (id : UInt8) :
    (initial.afterAll calls).zone? id = (primitiveZone :: calls).find? (·.id = id) := by
  rw [zone?_afterAll]
  by_cases isPrimitive : primitiveZone.id = id
  · simp [zone?, initial, isPrimitive]
  · simp [zone?, initial, isPrimitive]

/-- Whoever holds an id holds it forever. -/
theorem zone?_afterAll_of_held {id : UInt8} (held : registry.zone? id = some owner) :
    (registry.afterAll later).zone? id = some owner := by
  rw [zone?_afterAll, held, Option.some_or]

/-- The primitive zone comes first, and the ids increase strictly. -/
structure Ordered (registry : Registry) : Prop where
  increasing : registry.zones.Pairwise (·.id < ·.id)
  primitiveFirst : registry.zones.head? = some primitiveZone

theorem ordered_initial : initial.Ordered where
  increasing := List.pairwise_singleton _ _
  primitiveFirst := rfl

theorem Ordered.afterRegister (ordered : registry.Ordered) (zone : ZoneDefinition) :
    (registry.afterRegister zone).Ordered := by
  cases held : registry.zone? zone.id with
  | some owner =>
      rw [afterRegister_of_held held]
      exact ordered
  | none =>
      rw [afterRegister_of_free held]
      refine ⟨pairwise_insertZone ordered.increasing (id_ne_of_unclaimed held), ?_⟩
      obtain ⟨tail, isCons⟩ := List.head?_eq_some_iff.mp ordered.primitiveFirst
      -- No id is below that of the primitive zone, so nothing is inserted before it.
      have notBelow : ¬ zone.id < primitiveZone.id := UInt8.not_lt.mpr (UInt8.zero_le)
      simp [isCons, insertZone, notBelow]

/-! ### Resolving identities -/

/-- What resolving an identity by plain recursion returns, and how many entries
are looked up for it. Nothing stops the recursion but a plain type or an
identity without an entry. -/
inductive Resolves (registry : Registry) : Identity → Nat → Option String → Prop where
  | unknown {identity : Identity} (absent : registry.constructor? identity = none) :
      Resolves registry identity 1 none
  | type {identity : Identity} {name : String}
      (entry : registry.constructor? identity = some ⟨.type, name⟩) :
      Resolves registry identity 1 (some name)
  | template {identity : Identity} {name : String} {lookups : Nat} {argument : Option String}
      (entry : registry.constructor? identity = some ⟨.template, name⟩)
      (resolves : Resolves registry identity.argument lookups argument) :
      Resolves registry identity (lookups + 1)
        (argument.map fun argument => name ++ "<" ++ argument ++ ">")

/-- The names that the registry reports are those of the plain recursion. -/
theorem Resolves.nameOf? (resolves : registry.Resolves identity lookups result) :
    registry.nameOf? identity = result := by
  induction resolves with
  | unknown absent =>
      rw [Registry.nameOf?, absent]
  | type entry =>
      rw [Registry.nameOf?, entry]
  | @template identity name lookups argument entry _ inductionHypothesis =>
      by_cases zero : identity.code = 0
      · have unnamed : registry.nameOf? identity = none := by
          rw [Registry.nameOf?, entry]
          simp only [zero, ↓reduceDIte]
        have isZero : identity = .zero := Identity.ext zero
        subst isZero
        rw [Identity.argument_zero, unnamed] at inductionHypothesis
        rw [unnamed, ← inductionHypothesis, Option.map_none]
      · rw [Registry.nameOf?, entry]
        simp only [zero, ↓reduceDIte, inductionHypothesis]

/-- The recursion would never end if the word of zeros stood for a template. -/
theorem not_resolves_zero (entry : registry.constructor? .zero = some ⟨.template, name⟩) :
    ¬ registry.Resolves .zero lookups result := by
  intro resolves
  generalize sought : Identity.zero = identity at resolves
  induction resolves with
  | unknown absent =>
      subst sought
      rw [entry] at absent
      cases absent
  | type isType =>
      subst sought
      rw [entry] at isType
      cases isType
  | template _ _ inductionHypothesis =>
      subst sought
      exact inductionHypothesis rfl

/-- With a plain type for the word of zeros, the recursion makes at most one
look-up more than there are chunks. -/
theorem exists_resolves {root : String}
    (rooted : registry.constructor? .zero = some ⟨.type, root⟩) (chunks : Nat)
    (identity : Identity) (fits : identity.code < chunkSize ^ chunks) :
    ∃ lookups ≤ chunks + 1, ∃ result, registry.Resolves identity lookups result := by
  induction chunks generalizing identity with
  | zero =>
      have isZero : identity = .zero := Identity.ext (Nat.lt_one_iff.mp fits)
      subst isZero
      exact ⟨1, Nat.le_refl _, some root, .type rooted⟩
  | succ chunks inductionHypothesis =>
      cases entry : registry.constructor? identity with
      | none => exact ⟨1, by omega, none, .unknown entry⟩
      | some found =>
          obtain ⟨kind, name⟩ := found
          cases kind with
          | type => exact ⟨1, by omega, some name, .type entry⟩
          | template =>
              have argumentFits : identity.argument.code < chunkSize ^ chunks := by
                rw [Identity.code_argument]
                exact Nat.div_lt_of_lt_mul (by rwa [Nat.pow_succ'] at fits)
              obtain ⟨lookups, few, argument, resolves⟩ :=
                inductionHypothesis identity.argument argumentFits
              exact ⟨lookups + 1, by omega, _, .template entry resolves⟩

theorem constructor?_afterAll {entry : ZoneEntry}
    (found : registry.constructor? identity = some entry) :
    (registry.afterAll later).constructor? identity = some entry := by
  obtain ⟨owner, held, listed⟩ := Option.bind_eq_some_iff.mp found
  exact Option.bind_eq_some_iff.mpr ⟨owner, zone?_afterAll_of_held held, listed⟩

/-- A name that an identity once has stays its name. -/
theorem nameOf?_afterAll (named : registry.nameOf? identity = some name) :
    (registry.afterAll later).nameOf? identity = some name := by
  fun_induction registry.nameOf? identity generalizing name with
  | case1 => cases named
  | case2 identity plain entry =>
      cases named
      rw [nameOf?, constructor?_afterAll entry]
  | case3 => cases named
  | case4 identity constructor entry nonzero inductionHypothesis =>
      obtain ⟨argument, argumentNamed, rfl⟩ := Option.map_eq_some_iff.mp named
      rw [nameOf?, constructor?_afterAll entry]
      simp only [nonzero, ↓reduceDIte, inductionHypothesis argumentNamed, Option.map_some]

/-- What holds of the registry that some calls have left. -/
structure AppendOnly (calls : List ZoneDefinition) (registry : Registry) : Prop where
  /-- Every id is held by the first definition that claimed it. -/
  owner : ∀ id, registry.zone? id = (primitiveZone :: calls).find? (·.id = id)
  forever : ∀ later id owner, registry.zone? id = some owner →
    (registry.afterAll later).zone? id = some owner
  /-- A call is refused exactly when another definition holds the id, also one
  with the same contents. -/
  refused : ∀ zone conflict, registry.register zone = .conflict conflict ↔
    ∃ owner, registry.zone? zone.id = some owner ∧ owner.declaration ≠ zone.declaration ∧
      conflict = ⟨zone.id, owner.name, zone.name⟩
  /-- A refused or a repeated call changes nothing. -/
  unchanged : ∀ zone owner, registry.zone? zone.id = some owner →
    registry.afterRegister zone = registry
  ordered : registry.Ordered
  /-- Resolving any word by plain recursion ends, after at most five look-ups. -/
  resolves : ∀ identity, ∃ lookups ≤ 5,
    registry.Resolves identity lookups (registry.nameOf? identity)
  stable : ∀ later identity name, registry.nameOf? identity = some name →
    (registry.afterAll later).nameOf? identity = some name

/-- After any calls, each id belongs to the first definition that claimed it,
the zones are in order, and every identity resolves to a name that stays. -/
theorem appendOnly_afterAll (calls : List ZoneDefinition) :
    AppendOnly calls (initial.afterAll calls) where
  owner := zone?_afterAll_initial calls
  forever _ _ _ held := zone?_afterAll_of_held held
  refused _ _ := register_eq_conflict_iff
  unchanged _ _ held := afterRegister_of_held held
  ordered := afterAll_preserves ordered_initial fun _ zone ordered => ordered.afterRegister zone
  resolves identity := by
    have rooted : (initial.afterAll calls).constructor? .zero = some ⟨.type, "UnsignedChar"⟩ := by
      have held : (initial.afterAll calls).zone? 0 = some primitiveZone :=
        zone?_afterAll_of_held zone?_initial_zero
      exact Option.bind_eq_some_iff.mpr ⟨primitiveZone, held, rfl⟩
    have fits : identity.code < chunkSize ^ 4 := identity.code_lt
    obtain ⟨lookups, few, result, resolves⟩ := exists_resolves rooted 4 identity fits
    refine ⟨lookups, few, ?_⟩
    rwa [resolves.nameOf?]
  stable _ _ _ named := nameOf?_afterAll named

/-- Four templates above the word of zeros: the fifth look-up ends the recursion. -/
example : initial.nameOf? { code := 18 * (65536 ^ 3 + 65536 ^ 2 + 65536 + 1) } =
    some "Vector<Vector<Vector<Vector<UnsignedChar>>>>" := by
  cbv

end Registry

end RequestEngine
