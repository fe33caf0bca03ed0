import RequestEngine.Text.Quoted
import RequestEngine.Decimal.Shortest

/-!
Contract: the typed values that requests take as inputs, and their display form.

Owns:
- the value type, with decidable equality;
- the display form used inside the display form of a request.

Display forms serve people. Equality never looks at them: values of different
types differ even when they display alike, and floating-point values are
compared by their words.

Does not own: requests, or any encoding of values.
-/

namespace RequestEngine

/-- The integer types. -/
inductive IntegerType where
  | unsigned8 | signed8 | unsigned16 | signed16 | unsigned32 | signed32
  | unsigned64 | signed64 | unsigned128 | signed128 | unsignedSize | signedSize
deriving DecidableEq, Repr

/-- The floating-point types; `real` is a double that is compared by its word. -/
inductive FloatType where
  | single | double | real
deriving DecidableEq, Repr

def FloatType.layout : FloatType → Decimal.BinaryLayout
  | .single => .single
  | .double => .double
  | .real => .double

/-- Whether text is borrowed from elsewhere or owned. -/
inductive TextStorage where
  | borrowed | owned
deriving DecidableEq, Repr

/-- Whether a sequence is a view or an owned vector. -/
inductive SequenceStorage where
  | view | vector
deriving DecidableEq, Repr

/-- The ways of pointing at a value. -/
inductive PointerType where
  | unique | shared | sharedAcrossThreads | reference
deriving DecidableEq, Repr

/-- A typed value. -/
inductive Datum where
  | integer (type : IntegerType) (value : Int)
  | float (type : FloatType) (word : Nat)
  | boolean (value : Bool)
  | character (value : Char)
  | text (storage : TextStorage) (value : String)
  | unit
  | absent
  | present (value : Datum)
  | sequence (storage : SequenceStorage) (items : List Datum)
  | tuple (items : List Datum)
  | pointer (type : PointerType) (target : Datum)
deriving Repr, Inhabited

namespace Datum

mutual

def decideEq : (left right : Datum) → Decidable (left = right)
  | .integer leftType leftValue, .integer rightType rightValue =>
      if same : leftType = rightType ∧ leftValue = rightValue then
        isTrue (by rw [same.1, same.2])
      else isFalse (by intro equal; injection equal; exact same ⟨by assumption, by assumption⟩)
  | .float leftType leftWord, .float rightType rightWord =>
      if same : leftType = rightType ∧ leftWord = rightWord then
        isTrue (by rw [same.1, same.2])
      else isFalse (by intro equal; injection equal; exact same ⟨by assumption, by assumption⟩)
  | .boolean left, .boolean right =>
      if same : left = right then isTrue (by rw [same])
      else isFalse (by intro equal; injection equal; exact same (by assumption))
  | .character left, .character right =>
      if same : left = right then isTrue (by rw [same])
      else isFalse (by intro equal; injection equal; exact same (by assumption))
  | .text leftStorage leftValue, .text rightStorage rightValue =>
      if same : leftStorage = rightStorage ∧ leftValue = rightValue then
        isTrue (by rw [same.1, same.2])
      else isFalse (by intro equal; injection equal; exact same ⟨by assumption, by assumption⟩)
  | .unit, .unit => isTrue rfl
  | .absent, .absent => isTrue rfl
  | .present left, .present right =>
      match decideEq left right with
      | isTrue same => isTrue (by rw [same])
      | isFalse differ => isFalse (by intro equal; injection equal; exact differ (by assumption))
  | .sequence leftStorage leftItems, .sequence rightStorage rightItems =>
      match decideListEq leftItems rightItems with
      | isTrue sameItems =>
          if same : leftStorage = rightStorage then isTrue (by rw [same, sameItems])
          else isFalse (by intro equal; injection equal; exact same (by assumption))
      | isFalse differ => isFalse (by intro equal; injection equal; exact differ (by assumption))
  | .tuple leftItems, .tuple rightItems =>
      match decideListEq leftItems rightItems with
      | isTrue same => isTrue (by rw [same])
      | isFalse differ => isFalse (by intro equal; injection equal; exact differ (by assumption))
  | .pointer leftType leftTarget, .pointer rightType rightTarget =>
      match decideEq leftTarget rightTarget with
      | isTrue sameTarget =>
          if same : leftType = rightType then isTrue (by rw [same, sameTarget])
          else isFalse (by intro equal; injection equal; exact same (by assumption))
      | isFalse differ => isFalse (by intro equal; injection equal; exact differ (by assumption))
  | .integer .., .float .. | .integer .., .boolean _ | .integer .., .character _
  | .integer .., .text .. | .integer .., .unit | .integer .., .absent | .integer .., .present _
  | .integer .., .sequence .. | .integer .., .tuple _ | .integer .., .pointer .. => isFalse nofun
  | .float .., .integer .. | .float .., .boolean _ | .float .., .character _
  | .float .., .text .. | .float .., .unit | .float .., .absent | .float .., .present _
  | .float .., .sequence .. | .float .., .tuple _ | .float .., .pointer .. => isFalse nofun
  | .boolean _, .integer .. | .boolean _, .float .. | .boolean _, .character _
  | .boolean _, .text .. | .boolean _, .unit | .boolean _, .absent | .boolean _, .present _
  | .boolean _, .sequence .. | .boolean _, .tuple _ | .boolean _, .pointer .. => isFalse nofun
  | .character _, .integer .. | .character _, .float .. | .character _, .boolean _
  | .character _, .text .. | .character _, .unit | .character _, .absent
  | .character _, .present _ | .character _, .sequence .. | .character _, .tuple _
  | .character _, .pointer .. => isFalse nofun
  | .text .., .integer .. | .text .., .float .. | .text .., .boolean _ | .text .., .character _
  | .text .., .unit | .text .., .absent | .text .., .present _ | .text .., .sequence ..
  | .text .., .tuple _ | .text .., .pointer .. => isFalse nofun
  | .unit, .integer .. | .unit, .float .. | .unit, .boolean _ | .unit, .character _
  | .unit, .text .. | .unit, .absent | .unit, .present _ | .unit, .sequence ..
  | .unit, .tuple _ | .unit, .pointer .. => isFalse nofun
  | .absent, .integer .. | .absent, .float .. | .absent, .boolean _ | .absent, .character _
  | .absent, .text .. | .absent, .unit | .absent, .present _ | .absent, .sequence ..
  | .absent, .tuple _ | .absent, .pointer .. => isFalse nofun
  | .present _, .integer .. | .present _, .float .. | .present _, .boolean _
  | .present _, .character _ | .present _, .text .. | .present _, .unit | .present _, .absent
  | .present _, .sequence .. | .present _, .tuple _ | .present _, .pointer .. => isFalse nofun
  | .sequence .., .integer .. | .sequence .., .float .. | .sequence .., .boolean _
  | .sequence .., .character _ | .sequence .., .text .. | .sequence .., .unit
  | .sequence .., .absent | .sequence .., .present _ | .sequence .., .tuple _
  | .sequence .., .pointer .. => isFalse nofun
  | .tuple _, .integer .. | .tuple _, .float .. | .tuple _, .boolean _ | .tuple _, .character _
  | .tuple _, .text .. | .tuple _, .unit | .tuple _, .absent | .tuple _, .present _
  | .tuple _, .sequence .. | .tuple _, .pointer .. => isFalse nofun
  | .pointer .., .integer .. | .pointer .., .float .. | .pointer .., .boolean _
  | .pointer .., .character _ | .pointer .., .text .. | .pointer .., .unit
  | .pointer .., .absent | .pointer .., .present _ | .pointer .., .sequence ..
  | .pointer .., .tuple _ => isFalse nofun

def decideListEq : (left right : List Datum) → Decidable (left = right)
  | [], [] => isTrue rfl
  | [], _ :: _ => isFalse nofun
  | _ :: _, [] => isFalse nofun
  | left :: leftRest, right :: rightRest =>
      match decideEq left right, decideListEq leftRest rightRest with
      | isTrue same, isTrue sameRest => isTrue (by rw [same, sameRest])
      | isFalse differ, _ =>
          isFalse (by intro equal; injection equal; exact differ (by assumption))
      | _, isFalse differ =>
          isFalse (by intro equal; injection equal; exact differ (by assumption))

end

instance : DecidableEq Datum := decideEq

mutual

/-- The display form of a value. Numbers and truth values stand plain, text is
quoted, sequences are braced, tuples are parenthesised; an optional value shows
the value inside, and a pointer its target. -/
def display : Datum → String
  | .integer _ value => toString value
  | .float type word => (type.layout.decode word).text
  | .boolean value => if value then "true" else "false"
  | .character value => Text.quotedChar value
  | .text _ value => Text.quoted value
  | .unit => "()"
  | .absent => "none"
  | .present value => value.display
  | .sequence _ items => "\x7b" ++ displayItems items ++ "\x7d"
  | .tuple items => "(" ++ displayItems items ++ ")"
  | .pointer _ target => target.display

def displayItems : List Datum → String
  | [] => ""
  | [item] => item.display
  | item :: rest => item.display ++ ", " ++ displayItems rest

end

/-- An optional value displays as the value inside. -/
@[simp]
theorem display_present (value : Datum) : (present value).display = value.display := by
  simp [display]

@[simp]
theorem display_pointer (type : PointerType) (target : Datum) :
    (pointer type target).display = target.display := by
  simp [display]

end Datum

end RequestEngine
