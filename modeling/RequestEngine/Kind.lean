import RequestEngine.Zone.Definition

/-!
Contract: the kinds of requests.

Owns:
- caching policies;
- what is fixed for all requests of a kind: its name, its place in a zone, and
  its policy.

A kind is a plain entry of its zone. Kinds whose identity comes from applying a
template to another identity are left out.

Does not own: the inputs of requests, or what a kind computes.
-/

namespace RequestEngine

/-- Where the value of a request is kept. -/
inductive CachePolicy where
  /-- Nowhere; every evaluation computes it again. -/
  | uncached
  /-- In the result cache of the evaluator. -/
  | cached
  /-- In storage of the kind's own, which outlives the evaluator. -/
  | separatelyCached
deriving DecidableEq, Repr

namespace CachePolicy

def name : CachePolicy → String
  | .uncached => "Uncached"
  | .cached => "Cached"
  | .separatelyCached => "SeparatelyCached"

def isEverCached (policy : CachePolicy) : Bool := policy ≠ .uncached

/-- Whether values are kept outside the evaluator. -/
def hasExternalCache (policy : CachePolicy) : Bool := policy = .separatelyCached

end CachePolicy

/-- A kind of request: the entry at an index of a zone, and its policy. -/
structure RequestKind where
  name : String
  zone : ZoneDefinition
  index : Nat
  caching : CachePolicy
deriving DecidableEq, Repr

/-- The identity of a kind. Kinds of different zones that claim one zone id can
share it. -/
def RequestKind.identity (kind : RequestKind) : Identity :=
  kind.zone.identityAt kind.index

end RequestEngine
