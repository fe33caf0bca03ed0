import RequestEngine.Kind

/-!
Contract: the result cache of an evaluator.

Owns:
- stored values in the order in which they were stored;
- lookup and insertion, which keep the first value of a request for good;
- the refusal of two kinds that share an identity;
- the number of values per kind.

Values are stored per identity. The first kind that stores a value under an
identity owns it, and every later access by another kind is refused.

Does not own: which requests are stored; the evaluator decides that by policy.
-/

namespace RequestEngine

/-- Two kinds use one identity. -/
structure IdentityClash where
  owner : String
  claimant : String
  identity : Identity
deriving DecidableEq, Repr

def IdentityClash.message (clash : IdentityClash) : String :=
  "request kinds '" ++ clash.owner ++ "' and '" ++ clash.claimant ++ "' share identity " ++
    clash.identity.describe

/-- A stored value with its request. -/
structure StoredResult (Request : Type) (Value : Request → Type) where
  request : Request
  value : Value request

/-- Stored values in the order in which they were stored. -/
abbrev ResultCache (Request : Type) (Value : Request → Type) : Type :=
  List (StoredResult Request Value)

namespace ResultCache

variable {Request : Type} {Value : Request → Type}

def find? [DecidableEq Request] (request : Request) :
    ResultCache Request Value → Option (Value request)
  | [] => none
  | entry :: rest =>
      if same : entry.request = request then some (same ▸ entry.value) else find? request rest

def owner? (kind : Request → RequestKind) (cache : ResultCache Request Value)
    (identity : Identity) : Option RequestKind :=
  (List.find? (fun entry => (kind entry.request).identity = identity) cache).map
    fun entry => kind entry.request

/-- The clash that an access by the kind of a request meets, if any. -/
def clash? (kind : Request → RequestKind) (cache : ResultCache Request Value)
    (request : Request) : Option IdentityClash :=
  match owner? kind cache (kind request).identity with
  | none => none
  | some owner =>
      if owner = kind request then none
      else some ⟨owner.name, (kind request).name, (kind request).identity⟩

def get [DecidableEq Request] (kind : Request → RequestKind)
    (cache : ResultCache Request Value) (request : Request) :
    Except IdentityClash (Option (Value request)) :=
  match cache.clash? kind request with
  | some clash => .error clash
  | none => .ok (find? request cache)

def contains [DecidableEq Request] (kind : Request → RequestKind)
    (cache : ResultCache Request Value) (request : Request) : Except IdentityClash Bool :=
  (cache.get kind request).map Option.isSome

/-- Stores a value unless the request has one already, and tells whether it did. -/
def insert [DecidableEq Request] (kind : Request → RequestKind)
    (cache : ResultCache Request Value) (request : Request) (value : Value request) :
    Except IdentityClash (Bool × ResultCache Request Value) :=
  match cache.clash? kind request with
  | some clash => .error clash
  | none =>
      match find? request cache with
      | some _ => .ok (false, cache)
      | none => .ok (true, cache ++ [⟨request, value⟩])

/-- Identities with stored values, in increasing order. -/
def identities (kind : Request → RequestKind) (cache : ResultCache Request Value) :
    List Identity :=
  ((cache.map fun entry => (kind entry.request).identity).eraseDups).mergeSort
    fun left right => left.code ≤ right.code

/-- The name of the owner and the number of values for every identity, ordered
by identity. -/
def kinds (kind : Request → RequestKind) (cache : ResultCache Request Value) :
    List (String × Nat) :=
  (cache.identities kind).map fun identity =>
    (((cache.owner? kind identity).map RequestKind.name).getD "",
      cache.countP fun entry => (kind entry.request).identity = identity)

@[simp]
theorem find?_nil [DecidableEq Request] (request : Request) :
    find? request ([] : ResultCache Request Value) = none := rfl

/-- Looking through two parts of a cache takes the first hit. -/
theorem find?_append [DecidableEq Request] (request : Request)
    (earlier later : ResultCache Request Value) :
    find? request (earlier ++ later) = (find? request earlier).or (find? request later) := by
  induction earlier with
  | nil => simp
  | cons entry rest inductionHypothesis =>
      simp only [List.cons_append, find?]
      split
      · simp
      · exact inductionHypothesis

theorem mem_of_find? [DecidableEq Request] {cache : ResultCache Request Value} {request : Request}
    {value : Value request} (found : find? request cache = some value) :
    ⟨request, value⟩ ∈ cache := by
  induction cache with
  | nil => cases found
  | cons entry rest inductionHypothesis =>
      rw [find?] at found
      split at found
      case isTrue same =>
        subst same
        cases found
        exact List.mem_cons_self
      case isFalse => exact List.mem_cons_of_mem _ (inductionHypothesis found)

/-- A value stored in an empty slot is found there. -/
theorem find?_append_self [DecidableEq Request]
    {cache : ResultCache Request Value} {request : Request}
    (vacant : find? request cache = none) (value : Value request) :
    find? request (cache ++ [⟨request, value⟩]) = some value := by
  simp [find?_append, vacant, find?]

/-- Storing a value leaves every other request as it was. -/
theorem find?_append_other [DecidableEq Request]
    {cache : ResultCache Request Value} {request other : Request}
    (differs : request ≠ other) (value : Value request) :
    find? other (cache ++ [⟨request, value⟩]) = find? other cache := by
  simp [find?_append, find?, differs]

end ResultCache

end RequestEngine
