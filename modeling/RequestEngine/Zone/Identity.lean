/-!
Contract: type identities packed into one word.

Owns:
- the identity type with its two kinds of construction, a bare type of a zone
  and a template applied to an argument;
- reading the outermost constructor and the argument back.

An identity is a sequence of chunks of sixteen bits. The lowest chunk holds
the zone and the local id of the outermost constructor; what lies above it is
the argument. Four chunks fit into a word.

Does not own: names; the registry resolves those.
-/

namespace RequestEngine

def chunkSize : Nat := 65536

/-- The values that a word of four chunks can take. -/
def identityBound : Nat := 18446744073709551616

/-- The identity of a registered type. -/
structure Identity where
  code : Nat
  code_lt : code < identityBound := by decide
deriving DecidableEq, Repr

namespace Identity

@[ext]
theorem ext {left right : Identity} (sameCode : left.code = right.code) : left = right := by
  cases left
  cases right
  simp_all

/-- Why a template cannot be applied. -/
inductive ApplyError where
  | notBare
  | capacityExceeded
deriving DecidableEq, Repr

def ApplyError.message : ApplyError → String
  | .notBare => "only a bare template identity can be applied"
  | .capacityExceeded => "template nesting exceeds the capacity of a type identity"

/-- The identity of the type with a local id in a zone. -/
def ofZone (zone : UInt8) (localId : UInt8) : Identity where
  code := zone.toNat * 256 + localId.toNat
  code_lt := by
    have zoneBound := zone.toNat_lt
    have localBound := localId.toNat_lt
    unfold identityBound
    omega

/-- Applies a template to an argument. The template must be one chunk, and the
argument must leave room for it. -/
def apply (template argument : Identity) : Except ApplyError Identity :=
  if templateBound : template.code < chunkSize then
    if argumentBound : argument.code < 281474976710656 then
      .ok
        { code := argument.code * chunkSize + template.code
          code_lt := by
            unfold identityBound
            unfold chunkSize at *
            omega }
    else .error .capacityExceeded
  else .error .notBare

def zone (identity : Identity) : UInt8 :=
  UInt8.ofNat (identity.code / 256 % 256)

def localId (identity : Identity) : UInt8 :=
  UInt8.ofNat (identity.code % 256)

/-- The identity without its outermost constructor. -/
def argument (identity : Identity) : Identity where
  code := identity.code / chunkSize
  code_lt := by
    have bound := identity.code_lt
    unfold identityBound at *
    unfold chunkSize
    omega

def describe (identity : Identity) : String :=
  "TypeIdentity(" ++ toString identity.code ++ ")"

@[simp]
theorem code_ofZone (zone localId : UInt8) :
    (ofZone zone localId).code = zone.toNat * 256 + localId.toNat := rfl

@[simp]
theorem code_argument (identity : Identity) :
    identity.argument.code = identity.code / chunkSize := rfl

@[simp]
theorem zone_ofZone (zone localId : UInt8) : (ofZone zone localId).zone = zone := by
  have zoneBound := zone.toNat_lt
  have localBound := localId.toNat_lt
  apply UInt8.toNat_inj.mp
  simp [Identity.zone]
  omega

@[simp]
theorem localId_ofZone (zone localId : UInt8) : (ofZone zone localId).localId = localId := by
  have localBound := localId.toNat_lt
  apply UInt8.toNat_inj.mp
  simp [Identity.localId]

/-- Stripping an applied identity gives its argument back. -/
theorem argument_of_apply
    {template argument applied : Identity}
    (succeeds : template.apply argument = .ok applied) :
    applied.argument = argument := by
  unfold apply at succeeds
  split at succeeds
  case isTrue templateBound =>
    split at succeeds
    · cases succeeds
      apply Identity.ext
      simp only [code_argument]
      unfold chunkSize at *
      omega
    · cases succeeds
  case isFalse => cases succeeds

end Identity

end RequestEngine
