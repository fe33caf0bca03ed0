import Mathlib.Data.List.Dedup
import Mathlib.Algebra.BigOperators.Group.List.Basic
import Mathlib.Data.Set.Card
import RequestEngine.Cache

/-!
Contract: result caches and the values that were offered to them.

Owns:
- the kinds that own identities, and the clashes of the others;
- what a cache makes of the values that it is offered one after the other;
- the number of stored values, and the list of stored kinds.

A cache is offered values by any kinds, also by kinds that share an identity. It
keeps the first value of every request, as long as the kind of the request is the
first one that offered a value under its identity.

Does not own: who offers values.
-/

namespace RequestEngine

namespace ResultCache

variable {Request : Type} {Value : Request → Type}
variable {kind : Request → RequestKind} {cache offered : ResultCache Request Value}
variable {entry : StoredResult Request Value} {request : Request} {identity : Identity}
variable {owner : RequestKind}

/-! ### Owners -/

theorem owner?_append (earlier later : ResultCache Request Value) (identity : Identity) :
    owner? kind (earlier ++ later) identity =
      (owner? kind earlier identity).or (owner? kind later identity) := by
  unfold owner?
  rw [List.find?_append, Option.map_or]

theorem owner?_singleton :
    owner? kind [entry] identity =
      if (kind entry.request).identity = identity then some (kind entry.request) else none := by
  unfold owner?
  split
  case isTrue same => simp [same]
  case isFalse differs => simp [differs]

theorem owner?_eq_none :
    owner? kind cache identity = none ↔
      ∀ entry ∈ cache, (kind entry.request).identity ≠ identity := by
  simp [owner?]

theorem exists_of_owner? (owns : owner? kind cache identity = some owner) :
    ∃ entry ∈ cache, kind entry.request = owner ∧ owner.identity = identity := by
  obtain ⟨entry, found, rfl⟩ := Option.map_eq_some_iff.mp owns
  exact ⟨entry, List.mem_of_find?_eq_some found, rfl, by simpa using List.find?_some found⟩

/-- A kind clashes with the owner of its identity, unless it is the owner. -/
theorem clash?_of_owner (owns : owner? kind cache (kind request).identity = some owner)
    (differs : owner ≠ kind request) :
    cache.clash? kind request =
      some ⟨owner.name, (kind request).name, (kind request).identity⟩ := by
  simp only [clash?, owns, if_neg differs]

theorem clash?_eq_none :
    cache.clash? kind request = none ↔
      owner? kind cache (kind request).identity = none ∨
        owner? kind cache (kind request).identity = some (kind request) := by
  unfold clash?
  cases owner? kind cache (kind request).identity with
  | none => simp
  | some owner => by_cases same : owner = kind request <;> simp [same]

variable [DecidableEq Request]

theorem find?_eq_none_iff :
    find? request cache = none ↔ ∀ entry ∈ cache, entry.request ≠ request := by
  induction cache with
  | nil => simp
  | cons entry rest inductionHypothesis =>
      rw [find?, List.forall_mem_cons]
      split
      case isTrue same => simp [same]
      case isFalse differs => simp [differs, inductionHypothesis]

/-- A request has a value when one is stored for it. -/
theorem find?_ne_none_iff : find? request cache ≠ none ↔ ∃ value, ⟨request, value⟩ ∈ cache := by
  constructor
  · intro found
    obtain ⟨value, found⟩ := Option.ne_none_iff_exists'.mp found
    exact ⟨value, mem_of_find? found⟩
  · rintro ⟨value, isStored⟩ absent
    exact find?_eq_none_iff.mp absent _ isStored rfl

theorem find?_singleton_of_ne (differs : entry.request ≠ request) :
    find? request [entry] = none := by
  rw [find?, dif_neg differs, find?_nil]

theorem find?_eq_none_of_unowned (unowned : owner? kind cache (kind request).identity = none) :
    find? request cache = none := by
  refine find?_eq_none_iff.mpr fun entry isEntry same => ?_
  exact owner?_eq_none.mp unowned entry isEntry (congrArg (RequestKind.identity ∘ kind) same)

/-! ### Offers -/

/-- The cache after a value was offered to it. Offers that clash, and offers for
requests that have a value, change nothing. -/
def keep (kind : Request → RequestKind) (cache : ResultCache Request Value)
    (entry : StoredResult Request Value) : ResultCache Request Value :=
  match cache.insert kind entry.request entry.value with
  | .ok (_, extended) => extended
  | .error _ => cache

theorem keep_of_clash {clash : IdentityClash} {value : Value request}
    (clashes : cache.clash? kind request = some clash) :
    cache.keep kind ⟨request, value⟩ = cache := by
  simp only [keep, insert, clashes]

theorem keep_of_noClash {value : Value request} (noClash : cache.clash? kind request = none) :
    cache.keep kind ⟨request, value⟩ =
      if find? request cache = none then cache ++ [⟨request, value⟩] else cache := by
  simp only [keep, insert, noClash]
  cases find? request cache <;> simp

/-- The kind of a request was the first to offer a value under its identity. -/
def Owns (kind : Request → RequestKind) (offered : ResultCache Request Value)
    (request : Request) : Prop :=
  owner? kind offered (kind request).identity = some (kind request)

omit [DecidableEq Request] in
theorem owns_append :
    Owns kind (offered ++ [entry]) request ↔ Owns kind offered request ∨
      (owner? kind offered (kind request).identity = none ∧ kind entry.request = kind request) := by
  unfold Owns
  rw [owner?_append, owner?_singleton]
  cases owner? kind offered (kind request).identity with
  | some owner => simp
  | none =>
      by_cases same : kind entry.request = kind request
      · simp [same]
      · simp [same]

/-- What a cache has made of the values that it was offered, in order. -/
structure Accepts (kind : Request → RequestKind) (offered cache : ResultCache Request Value) :
    Prop where
  /-- The first kind that offers a value under an identity owns it. -/
  owner_eq : ∀ identity, owner? kind cache identity = owner? kind offered identity
  /-- Requests of owners have the first value that was offered for them. -/
  find_eq : ∀ {request}, Owns kind offered request → find? request cache = find? request offered
  /-- Other requests have none. -/
  vacant : ∀ {request}, ¬ Owns kind offered request → find? request cache = none
  /-- No request has two values. -/
  distinct : (cache.map StoredResult.request).Nodup

namespace Accepts

theorem nil : Accepts kind ([] : ResultCache Request Value) [] where
  owner_eq := fun _ => rfl
  find_eq := fun _ => rfl
  vacant := fun _ => rfl
  distinct := List.nodup_nil

variable (accepts : Accepts kind offered cache)
include accepts

theorem owns_iff : Owns kind cache request ↔ Owns kind offered request := by
  unfold Owns
  rw [accepts.owner_eq]

private theorem find_eq_of_append (owns : Owns kind (offered ++ [entry]) request) :
    find? request cache = find? request offered := by
  rcases owns_append.mp owns with before | ⟨unowned, _⟩
  · exact accepts.find_eq before
  · rw [find?_eq_none_of_unowned unowned]
    exact find?_eq_none_of_unowned ((accepts.owner_eq _).trans unowned)

private theorem vacant_of_append (notOwner : ¬ Owns kind (offered ++ [entry]) request) :
    find? request cache = none :=
  accepts.vacant fun owns => notOwner (owns_append.mpr (.inl owns))

/-- An offer that is ignored comes from another kind than the owner, or for a
request that has a value. -/
private theorem ignored
    (owned : owner? kind offered (kind entry.request).identity ≠ none)
    (settled : Owns kind (offered ++ [entry]) entry.request →
      find? entry.request offered ≠ none) : Accepts kind (offered ++ [entry]) cache where
  owner_eq := by
    intro identity
    rw [accepts.owner_eq, owner?_append, owner?_singleton]
    by_cases same : (kind entry.request).identity = identity
    · obtain ⟨owner, owns⟩ := Option.ne_none_iff_exists'.mp owned
      rw [← same, owns, Option.some_or]
    · rw [if_neg same, Option.or_none]
  find_eq := by
    intro request owns
    rw [accepts.find_eq_of_append owns, find?_append]
    by_cases same : entry.request = request
    · subst same
      obtain ⟨value, found⟩ := Option.ne_none_iff_exists'.mp (settled owns)
      rw [found, Option.some_or]
    · rw [find?_singleton_of_ne same, Option.or_none]
  vacant := accepts.vacant_of_append
  distinct := accepts.distinct

/-- An offer that is kept comes from the owner, for a request without a value. -/
private theorem kept (owns : Owns kind (offered ++ [entry]) entry.request)
    (vacant : find? entry.request cache = none) :
    Accepts kind (offered ++ [entry]) (cache ++ [entry]) where
  owner_eq := fun identity => by rw [owner?_append, owner?_append, accepts.owner_eq]
  find_eq := fun owns => by rw [find?_append, find?_append, accepts.find_eq_of_append owns]
  vacant := by
    intro request notOwner
    have differs : entry.request ≠ request := fun same => notOwner (same ▸ owns)
    rw [find?_append, accepts.vacant_of_append notOwner, find?_singleton_of_ne differs]
    rfl
  distinct := by
    rw [List.map_append, List.nodup_append]
    refine ⟨accepts.distinct, by simp, ?_⟩
    rintro _ isStored _ isNew rfl
    obtain ⟨stored, inCache, isRequest⟩ := List.mem_map.mp isStored
    obtain rfl := List.mem_singleton.mp isNew
    exact find?_eq_none_iff.mp vacant stored inCache isRequest

/-- Every offer is kept or ignored. -/
theorem next : Accepts kind (offered ++ [entry]) (cache.keep kind entry) := by
  cases clashes : cache.clash? kind entry.request with
  | some clash =>
      have notOwner : ¬ (owner? kind cache (kind entry.request).identity = none ∨
          Owns kind cache entry.request) := by
        intro free
        rw [clash?_eq_none.mpr free] at clashes
        cases clashes
      rw [accepts.owner_eq, accepts.owns_iff] at notOwner
      rw [keep_of_clash clashes]
      refine accepts.ignored (fun unowned => notOwner (.inl unowned)) fun owns => ?_
      rcases owns_append.mp owns with before | ⟨unowned, _⟩
      · exact absurd (.inr before) notOwner
      · exact absurd (.inl unowned) notOwner
  | none =>
      have free := clash?_eq_none.mp clashes
      rw [accepts.owner_eq] at free
      rw [keep_of_noClash clashes]
      split
      case isTrue vacant =>
        refine accepts.kept (owns_append.mpr ?_) vacant
        exact free.symm.imp_right fun unowned => ⟨unowned, rfl⟩
      case isFalse occupied =>
        have owns : Owns kind offered entry.request :=
          Classical.byContradiction fun notOwner => occupied (accepts.vacant notOwner)
        refine accepts.ignored ?_ fun _ => accepts.find_eq owns ▸ occupied
        rw [show owner? kind offered _ = _ from owns]
        exact Option.some_ne_none _

/-! ### What a cache returns -/

/-- Only the owner of an identity gets values, and it gets the first ones. -/
theorem get_eq_some {value : Value request} :
    cache.get kind request = .ok (some value) ↔
      Owns kind offered request ∧ find? request offered = some value := by
  unfold get
  by_cases owns : Owns kind offered request
  · have noClash : cache.clash? kind request = none :=
      clash?_eq_none.mpr (.inr (accepts.owns_iff.mpr owns))
    simp only [noClash, accepts.find_eq owns, Except.ok.injEq, owns, true_and]
  · simp only [owns, false_and, iff_false, accepts.vacant owns]
    cases cache.clash? kind request <;> simp

/-- Every stored value belongs to the owner of its identity. -/
theorem owned {stored : StoredResult Request Value} (isStored : stored ∈ cache) :
    Owns kind cache stored.request := by
  rw [accepts.owns_iff]
  refine Classical.byContradiction fun notOwner => ?_
  exact find?_eq_none_iff.mp (accepts.vacant notOwner) stored isStored rfl

/-- The number of stored values is the number of requests that were offered a
value and whose kinds own their identities. -/
theorem length_eq : cache.length =
    {request | (∃ value, ⟨request, value⟩ ∈ offered) ∧ Owns kind offered request}.ncard := by
  have requests : {request | (∃ value, ⟨request, value⟩ ∈ offered) ∧ Owns kind offered request} =
      ((cache.map StoredResult.request).toFinset : Set Request) := by
    ext request
    simp only [Set.mem_ofPred_eq, List.coe_toFinset]
    rw [← find?_ne_none_iff]
    constructor
    · rintro ⟨wasOffered, owns⟩
      rw [← accepts.find_eq owns, find?_ne_none_iff] at wasOffered
      obtain ⟨value, isStored⟩ := wasOffered
      exact List.mem_map.mpr ⟨_, isStored, rfl⟩
    · intro isStored
      obtain ⟨stored, inCache, rfl⟩ := List.mem_map.mp isStored
      have owns := accepts.owns_iff.mp (accepts.owned inCache)
      refine ⟨?_, owns⟩
      rw [← accepts.find_eq owns, find?_ne_none_iff]
      exact ⟨stored.value, inCache⟩
  rw [requests, Set.ncard_coe_finset, List.toFinset_card_of_nodup accepts.distinct,
    List.length_map]

end Accepts

/-! ### The list of stored kinds -/

omit [DecidableEq Request] in
private theorem nodup_eraseDups {Item : Type} [DecidableEq Item] (items : List Item) :
    items.eraseDups.Nodup := by
  induction length : items.length using Nat.strongRecOn generalizing items with
  | ind _ inductionHypothesis =>
      cases items with
      | nil => exact List.nodup_nil
      | cons first rest =>
          rw [List.eraseDups_cons, List.nodup_cons]
          refine ⟨by simp [List.mem_eraseDups], inductionHypothesis _ ?_ _ rfl⟩
          rw [← length, List.length_cons]
          exact Nat.lt_succ_of_le (List.length_filter_le _ _)

/-- The kinds with stored values, by increasing identity. -/
def storedKinds (kind : Request → RequestKind) (cache : ResultCache Request Value) :
    List RequestKind :=
  (cache.identities kind).filterMap (cache.owner? kind)

omit [DecidableEq Request] in
theorem mem_identities :
    identity ∈ cache.identities kind ↔
      ∃ entry ∈ cache, (kind entry.request).identity = identity := by
  simp [identities, List.mem_mergeSort, List.mem_eraseDups]

omit [DecidableEq Request] in
theorem identities_increasing (kind : Request → RequestKind) (cache : ResultCache Request Value) :
    (cache.identities kind).Pairwise fun left right => left.code < right.code := by
  have ordered : (cache.identities kind).Pairwise fun left right =>
      decide (left.code ≤ right.code) = true :=
    List.pairwise_mergeSort (fun _ _ _ first second => by
        simp only [decide_eq_true_eq] at *
        omega)
      (fun left right => by
        simp only [Bool.or_eq_true, decide_eq_true_eq]
        omega) _
  have distinct : (cache.identities kind).Nodup :=
    (List.mergeSort_perm _ _).nodup_iff.mpr (nodup_eraseDups _)
  refine (ordered.and distinct).imp fun ⟨atMost, differ⟩ => ?_
  have differentCodes : _ ≠ _ := fun same => differ (Identity.ext same)
  simp only [decide_eq_true_eq] at atMost
  omega

omit [DecidableEq Request] in
theorem sum_kinds (kind : Request → RequestKind) (cache : ResultCache Request Value) :
    ((cache.kinds kind).map Prod.snd).sum = cache.length := by
  let stored := cache.map fun entry => (kind entry.request).identity
  have counts : (cache.kinds kind).map Prod.snd =
      (cache.identities kind).map fun identity => stored.count identity := by
    rw [kinds, List.map_map]
    refine List.map_congr_left fun identity _ => ?_
    rw [List.count, List.countP_map]
    rfl
  have distinct : (cache.identities kind).Nodup :=
    (identities_increasing kind cache).imp fun less same => by simp [same] at less
  have sameIdentities : (cache.identities kind).Perm stored.dedup := by
    refine (List.perm_ext_iff_of_nodup distinct (List.nodup_dedup _)).mpr fun identity => ?_
    rw [mem_identities, List.mem_dedup, List.mem_map]
  rw [counts, (sameIdentities.map _).sum_eq, List.sum_map_count_dedup_eq_length, List.length_map]

/-- What the list of kinds tells about a cache: every kind with stored values is
listed once, by increasing identity, with the number of its values. -/
structure Lists (kind : Request → RequestKind) (cache : ResultCache Request Value) : Prop where
  kinds_eq : cache.kinds kind = (cache.storedKinds kind).map fun owner =>
    (owner.name, cache.countP fun entry => kind entry.request = owner)
  increasing : (cache.storedKinds kind).Pairwise fun left right =>
    left.identity.code < right.identity.code
  stored : ∀ owner, owner ∈ cache.storedKinds kind ↔ ∃ entry ∈ cache, kind entry.request = owner
  positive : ∀ listed ∈ cache.kinds kind, 0 < listed.2
  total : ((cache.kinds kind).map Prod.snd).sum = cache.length

omit [DecidableEq Request] in
/-- The values under an identity are the values of its owner. -/
private theorem countP_identity {owner : RequestKind}
    (owned : ∀ entry ∈ cache, Owns kind cache entry.request)
    (isOwner : owner? kind cache owner.identity = some owner) :
    (cache.countP fun entry => (kind entry.request).identity = owner.identity) =
      cache.countP fun entry => kind entry.request = owner := by
  refine List.countP_congr fun other isOther => ?_
  simp only [decide_eq_true_eq]
  constructor
  · intro sameIdentity
    have otherOwner : owner? kind cache (kind other.request).identity =
        some (kind other.request) := owned other isOther
    rw [sameIdentity, isOwner] at otherOwner
    exact (Option.some.inj otherOwner).symm
  · exact congrArg RequestKind.identity

omit [DecidableEq Request] in
/-- A cache whose values belong to the owners of their identities lists its kinds. -/
theorem lists_of_owned (owned : ∀ entry ∈ cache, Owns kind cache entry.request) :
    Lists kind cache where
  kinds_eq := by
    rw [kinds, storedKinds, List.map_filterMap, ← List.filterMap_eq_map]
    refine List.filterMap_congr fun identity isIdentity => ?_
    obtain ⟨entry, isEntry, rfl⟩ := mem_identities.mp isIdentity
    have isOwner : owner? kind cache (kind entry.request).identity = some (kind entry.request) :=
      owned entry isEntry
    rw [Function.comp_apply, isOwner, Option.map_some, Option.map_some, Option.getD_some]
    exact congrArg some (Prod.ext rfl (countP_identity owned isOwner))
  increasing := by
    refine List.pairwise_filterMap.mpr ((identities_increasing kind cache).imp ?_)
    intro left right less owner isOwner other isOther
    obtain ⟨_, _, _, rfl⟩ := exists_of_owner? isOwner
    obtain ⟨_, _, _, rfl⟩ := exists_of_owner? isOther
    exact less
  stored := by
    intro owner
    simp only [storedKinds, List.mem_filterMap, mem_identities]
    constructor
    · rintro ⟨identity, _, isOwner⟩
      obtain ⟨entry, isEntry, isKind, _⟩ := exists_of_owner? isOwner
      exact ⟨entry, isEntry, isKind⟩
    · rintro ⟨entry, isEntry, rfl⟩
      exact ⟨_, ⟨entry, isEntry, rfl⟩, owned entry isEntry⟩
  positive := by
    intro listed isListed
    obtain ⟨identity, isIdentity, rfl⟩ := List.mem_map.mp isListed
    obtain ⟨entry, isEntry, same⟩ := mem_identities.mp isIdentity
    exact List.countP_pos_iff.mpr ⟨entry, isEntry, by simpa using same⟩
  total := sum_kinds kind cache

end ResultCache

end RequestEngine
