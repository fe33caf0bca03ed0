import RequestEngine.Zone.Definition

/-!
Contract: the zone of built-in types.

Owns:
- the zone with id zero: scalar types first, then the two container templates.

Does not own: any type of a request.
-/

namespace RequestEngine

/-- The built-in types. Entry zero is a plain type, so the zero word always
names a type and never a template. -/
def primitiveZone : ZoneDefinition where
  declaration := 0
  id := 0
  name := "Primitive"
  entries :=
    ["UnsignedChar", "SignedChar", "Char", "Short", "UnsignedShort", "Int", "UnsignedInt",
      "Long", "UnsignedLong", "LongLong", "UnsignedLongLong", "Float", "Double", "Bool",
      "Void", "String", "Size", "PtrDiff"].map (⟨.type, ·⟩) ++
    ["Vector", "Optional"].map (⟨.template, ·⟩)

@[simp]
theorem length_entries_primitiveZone : primitiveZone.entries.length = 20 := rfl

end RequestEngine
