import RequestEngine.Decimal.Binary

/-!
Contract: decimals with a fixed number of places.

Owns:
- division rounded to the nearest integer, halves to even;
- the text of a finite floating-point number with a given number of places,
  rounded from its exact value.

Does not own: shortest decimals; `Decimal.Shortest` holds those.
-/

namespace RequestEngine.Decimal

/-- `numerator / denominator` rounded to the nearest integer, halves to even. -/
def roundDiv (numerator denominator : Nat) : Nat :=
  let quotient := numerator / denominator
  let twice := 2 * (numerator % denominator)
  if twice < denominator then quotient
  else if denominator < twice then quotient + 1
  else if quotient % 2 = 0 then quotient else quotient + 1

/-- A natural number of `10 ^ -places` units as text. -/
def unitsText (places units : Nat) : String :=
  let digits := Nat.toDigits 10 units
  let padded := List.replicate (places + 1 - digits.length) '0' ++ digits
  let whole := padded.length - places
  String.ofList (padded.take whole ++ '.' :: padded.drop whole)

/-- A finite magnitude with the given number of places. -/
def Dyadic.fixedText (magnitude : Dyadic) (places : Nat) : String :=
  let (numerator, denominator) := magnitude.fraction
  unitsText places (roundDiv (numerator * Nat.pow 10 places) denominator)

/-- A floating-point number with the given number of places. -/
def BinaryNumber.fixedText (number : BinaryNumber) (places : Nat) : String :=
  match number with
  | .notANumber => "NaN"
  | .infinite negative => (if negative then "-" else "") ++ "inf"
  | .finite negative magnitude =>
      (if negative then "-" else "") ++ magnitude.fixedText places

end RequestEngine.Decimal
