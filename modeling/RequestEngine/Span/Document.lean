import RequestEngine.Document
import RequestEngine.Span

/-!
Contract: locations in documents.

Owns:
- reading a location from a record of its four numbers.

Does not own: document formats.
-/

namespace RequestEngine.Span

def greatestNumber : Nat := 4294967295

/-- Reads a location. None of its fields may be absent. -/
def read {Node : Type} (document : Document Node) (node : Node) : Reading Span := do
  let number := Document.required fun field => do
    return UInt32.ofNat (← document.natural greatestNumber field)
  match ← document.record ["start", "end", "line", "column"] node with
  | [start, stop, line, column] =>
      return ⟨← number start, ← number stop, ← number line, ← number column⟩
  | _ => failure

end RequestEngine.Span
