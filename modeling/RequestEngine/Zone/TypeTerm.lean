import RequestEngine.Zone.Registry

/-!
Contract: types written out as terms.

Owns:
- terms built from the entries of zones;
- the identity and the name of a term, found without any registry.

Does not own: names of identities; the registry resolves those.
-/

namespace RequestEngine

/-- A type: an entry of a zone, applied to an argument if it is a template. -/
inductive TypeTerm where
  | type (zone : ZoneDefinition) (index : Nat)
  | apply (zone : ZoneDefinition) (index : Nat) (argument : TypeTerm)
deriving Repr

namespace TypeTerm

def zone : TypeTerm → ZoneDefinition
  | .type zone _ | .apply zone _ _ => zone

def entryName (zone : ZoneDefinition) (index : Nat) : String :=
  (zone.entries[index]?.map (·.name)).getD ""

/-- The identity of a term, unless it nests too deeply. -/
def identity : TypeTerm → Except Identity.ApplyError Identity
  | .type zone index => .ok (zone.identityAt index)
  | .apply zone index argument => do (zone.identityAt index).apply (← argument.identity)

def name : TypeTerm → String
  | .type zone index => entryName zone index
  | .apply zone index argument => entryName zone index ++ "<" ++ argument.name ++ ">"

end TypeTerm

end RequestEngine
