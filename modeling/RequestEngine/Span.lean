/-!
Contract: source locations attached to diagnostics.

Owns:
- the location type and its display form;
- the location that points nowhere.

The engine never interprets a location. Requests produce them from their
inputs, and whoever prints a diagnostic renders them.

Does not own: the external representation of locations.
-/

namespace RequestEngine

/-- A stretch of source text: half-open offsets, and the line and column where
it starts. -/
structure Span where
  start : UInt32
  stop : UInt32
  line : UInt32
  column : UInt32
deriving DecidableEq, Repr, Inhabited

namespace Span

def unknown : Span := ⟨0, 0, 0, 0⟩

def isUnknown (span : Span) : Bool := span = unknown

/-- The number of offsets covered; zero when the offsets are out of order. -/
def length (span : Span) : Nat := span.stop.toNat - span.start.toNat

def isEmpty (span : Span) : Bool := span.length = 0

/-- Line and column, or a remark that the location is not known. -/
def display (span : Span) : String :=
  if span.isUnknown then "<unknown>"
  else toString span.line.toNat ++ ":" ++ toString span.column.toNat

def describe (span : Span) : String :=
  "Span \x7b start: " ++ toString span.start.toNat ++
    ", end: " ++ toString span.stop.toNat ++
    ", line: " ++ toString span.line.toNat ++
    ", column: " ++ toString span.column.toNat ++ " \x7d"

@[simp]
theorem length_unknown : unknown.length = 0 := rfl

@[simp]
theorem isUnknown_unknown : unknown.isUnknown = true := rfl

/-- A location covers nothing exactly when its offsets do not increase. -/
theorem isEmpty_iff (span : Span) :
    span.isEmpty = true ↔ span.stop.toNat ≤ span.start.toNat := by
  simp [isEmpty, length, Nat.sub_eq_zero_iff_le]

end Span

end RequestEngine
