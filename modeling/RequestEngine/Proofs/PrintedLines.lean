/-!
Contract: the lines of a printed text.

Owns:
- the complete lines of a text;
- the lines of a text that was printed line by line.

Does not own: what any line means.
-/

namespace RequestEngine.Text

/-- The lines of a text: what stands in front of each of its line breaks. -/
def linesOf (text : List Char) : List (List Char) := (text.splitOn '\n').dropLast

@[simp]
theorem linesOf_nil : linesOf [] = [] := rfl

theorem linesOf_append {line : List Char} (noBreak : '\n' ∉ line) (rest : List Char) :
    linesOf (line ++ '\n' :: rest) = line :: linesOf rest := by
  rw [linesOf, List.splitOn_append_cons_self_of_not_mem noBreak,
    List.dropLast_cons_of_ne_nil (List.splitOn_ne_nil _ _), linesOf]

/-- Items that are printed as one line each have these lines. -/
theorem linesOf_flatMap {Item : Type} {line : Item → List Char} {items : List Item}
    (noBreak : ∀ item ∈ items, '\n' ∉ line item) (rest : List Char) :
    linesOf (items.flatMap (fun item => line item ++ ['\n']) ++ rest) =
      items.map line ++ linesOf rest := by
  induction items with
  | nil => rfl
  | cons item items inductionHypothesis =>
      obtain ⟨noBreakHere, noBreakBelow⟩ := List.forall_mem_cons.mp noBreak
      rw [List.flatMap_cons, List.append_assoc, List.append_assoc, List.singleton_append,
        linesOf_append noBreakHere, inductionHypothesis noBreakBelow, List.map_cons,
        List.cons_append]

end RequestEngine.Text
