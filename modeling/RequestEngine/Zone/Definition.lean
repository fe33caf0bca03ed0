import RequestEngine.Zone.Identity

/-!
Contract: zones, the closed tables of types that share one space of local ids.

Owns:
- table entries and zone definitions;
- looking a local id up.

A zone definition is an object of its own. `declaration` tells definitions
apart that happen to have the same contents.

Does not own: which definition holds a zone id; the registry decides that.
-/

namespace RequestEngine

/-- Whether an entry names a type, or a template with one parameter. -/
inductive EntryKind where
  | type | template
deriving DecidableEq, Repr

/-- One entry of a zone. -/
structure ZoneEntry where
  kind : EntryKind
  name : String
deriving DecidableEq, Repr

/-- A zone: entry `i` has the local id `i`. -/
structure ZoneDefinition where
  declaration : Nat
  id : UInt8
  name : String
  entries : List ZoneEntry
deriving DecidableEq, Repr

namespace ZoneDefinition

def entryAt? (zone : ZoneDefinition) (localId : UInt8) : Option ZoneEntry :=
  zone.entries[localId.toNat]?

/-- The identity of the entry at an index. Only the low eight bits of the index
become the local id. -/
def identityAt (zone : ZoneDefinition) (index : Nat) : Identity :=
  Identity.ofZone zone.id (UInt8.ofNat index)

/-- The indices of the entries that are plain types, in order. -/
def typeIndices (zone : ZoneDefinition) : List Nat :=
  (List.range zone.entries.length).filter fun index =>
    (zone.entries[index]?).any (·.kind = .type)

/-- The identities of the plain types in order. Templates have no identity
before they are applied. -/
def identities (zone : ZoneDefinition) : List Identity :=
  zone.typeIndices.map zone.identityAt

end ZoneDefinition

end RequestEngine
