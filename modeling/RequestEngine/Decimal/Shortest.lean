import RequestEngine.Decimal.Binary

/-!
Contract: the shortest decimal that reads back as a given floating-point number.

Owns:
- the search over digit counts for the first decimal grid that has a point
  inside the rounding interval of the number;
- the text of such a decimal, positional or with an exponent.

The search is exact arithmetic on natural numbers. Of two grid points inside
the interval the nearer one is taken, and the larger one when both are equally
near. The ends of the interval belong to it exactly when the mantissa is even,
because reading rounds halves to even.

Does not own: reading decimals, or decimals with a fixed number of places.
-/

namespace RequestEngine.Decimal

/-- The decimal `0.d₁d₂… * 10 ^ position`, whose digits are those of `digits`. -/
structure Scientific where
  digits : Nat
  position : Int
deriving DecidableEq, Repr

/-- The number of decimal digits of a natural number; one for zero. -/
def digitCount (value : Nat) : Nat :=
  (Nat.toDigits 10 value).length

/-- The position of the decimal point of `numerator / denominator`: the least
`p` with `numerator / denominator < 10 ^ p`. Comparing digit counts leaves two
candidates. -/
def pointPosition (numerator denominator : Nat) : Int :=
  let guess : Int := (digitCount numerator : Int) - digitCount denominator
  if denominator * Nat.pow 10 guess.toNat ≤ numerator * Nat.pow 10 (-guess).toNat then guess + 1
  else guess

/-- The rounding interval of a number and the number itself, over one common
denominator. -/
structure RoundingInterval where
  lower : Nat
  centre : Nat
  upper : Nat
  denominator : Nat
  closed : Bool
deriving Repr

/-- The real numbers that round to a magnitude: half the way to each neighbour. -/
def Dyadic.roundingInterval (magnitude : Dyadic) : RoundingInterval :=
  let scale := Nat.pow 2 (magnitude.exponent - 2).toNat
  { lower := (4 * magnitude.mantissa - (if magnitude.narrowBelow then 1 else 2)) * scale
    centre := 4 * magnitude.mantissa * scale
    upper := (4 * magnitude.mantissa + 2) * scale
    denominator := Nat.pow 2 (2 - magnitude.exponent).toNat
    closed := magnitude.mantissa % 2 = 0 }

/-- Whether the fraction `numerator / denominator` lies in the interval. -/
def RoundingInterval.holds (interval : RoundingInterval) (numerator denominator : Nat) : Bool :=
  let point := numerator * interval.denominator
  if interval.closed then
    interval.lower * denominator ≤ point && point ≤ interval.upper * denominator
  else
    interval.lower * denominator < point && point < interval.upper * denominator

/-- The grid point to use among the two neighbours of the centre on the grid of
multiples of `10 ^ step`, if the interval holds one of them. -/
def RoundingInterval.gridPoint? (interval : RoundingInterval) (step : Int) : Option Nat :=
  let scaleUp := Nat.pow 10 step.toNat
  let scaleDown := Nat.pow 10 (-step).toNat
  let numerator := interval.centre * scaleDown
  let denominator := interval.denominator * scaleUp
  let below := numerator / denominator
  let remainder := numerator % denominator
  let belowHeld := interval.holds (below * scaleUp) scaleDown
  let aboveHeld := interval.holds ((below + 1) * scaleUp) scaleDown
  match belowHeld, aboveHeld with
  | true, true => some (if 2 * remainder < denominator then below else below + 1)
  | true, false => some below
  | false, true => some (below + 1)
  | false, false => none

/-- Moves trailing zeros out of the digits. The fuel bounds the number of zeros. -/
def dropTrailingZeros : Nat → Nat → Nat
  | 0, digits => digits
  | fuel + 1, digits =>
      if digits ≠ 0 ∧ digits % 10 = 0 then dropTrailingZeros fuel (digits / 10) else digits

/-- Seventeen digits always suffice for the layouts in use. -/
def greatestDigitCount : Nat := 17

def Dyadic.shortest (magnitude : Dyadic) : Scientific :=
  let interval := magnitude.roundingInterval
  let position := pointPosition interval.centre interval.denominator
  let found := (List.range greatestDigitCount).findSome? fun extra =>
    let step := position - (extra + 1 : Nat)
    (interval.gridPoint? step).map fun point => (point, step)
  match found with
  | none => ⟨0, 0⟩
  | some (point, step) =>
      { digits := dropTrailingZeros (greatestDigitCount + 1) point
        position := step + digitCount point }

/-- Positional notation is used while the exponent of the leading digit lies
between these two, ends included. -/
structure PositionalRange where
  least : Int
  greatest : Int
deriving Repr

/-- One ten-thousandth is the least power of ten written positionally, and ten
to the fifteenth the greatest. -/
def positionalRange : PositionalRange := ⟨-4, 15⟩

def zeros (count : Nat) : List Char := List.replicate count '0'

/-- Digits with a point at the given position; a fraction digit is always present. -/
def positionalText (digits : List Char) (position : Int) : String :=
  if position ≤ 0 then
    String.ofList ('0' :: '.' :: zeros (-position).toNat ++ digits)
  else
    let whole := position.toNat
    if whole < digits.length then
      String.ofList (digits.take whole ++ '.' :: digits.drop whole)
    else
      String.ofList (digits ++ zeros (whole - digits.length) ++ ['.', '0'])

/-- Digits with the point behind the first one and an exponent; there is no
point when there is only one digit. -/
def exponentText (digits : List Char) (position : Int) : String :=
  let fraction := match digits.drop 1 with
    | [] => []
    | rest => '.' :: rest
  String.ofList (digits.take 1 ++ fraction) ++ "e" ++ toString (position - 1)

/-- The text of a decimal in the notation its size asks for. -/
def Scientific.text (decimal : Scientific) : String :=
  let digits := Nat.toDigits 10 decimal.digits
  if positionalRange.least ≤ decimal.position - 1 ∧
      decimal.position - 1 ≤ positionalRange.greatest then
    positionalText digits decimal.position
  else
    exponentText digits decimal.position

/-- The text of a floating-point number: shortest digits, always with a
fraction or an exponent. Numbers that are not numbers have no sign. -/
def BinaryNumber.text : BinaryNumber → String
  | .notANumber => "NaN"
  | .infinite negative => (if negative then "-" else "") ++ "inf"
  | .finite negative magnitude =>
      (if negative then "-" else "") ++
        (if magnitude.mantissa = 0 then "0.0" else magnitude.shortest.text)

end RequestEngine.Decimal
