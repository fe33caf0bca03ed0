/-!
Contract: the numbers denoted by binary floating-point words.

Owns:
- the two word layouts in use, single and double;
- decoding a word into a sign and an exact dyadic magnitude.

Does not own: decimal text, or arithmetic on floating-point numbers.
-/

namespace RequestEngine.Decimal

/-- The layout of a floating-point word: a sign bit, then the exponent field,
then the fraction field. -/
structure BinaryLayout where
  exponentBits : Nat
  fractionBits : Nat
deriving DecidableEq, Repr

def BinaryLayout.single : BinaryLayout := ⟨8, 23⟩

def BinaryLayout.double : BinaryLayout := ⟨11, 52⟩

/-- The magnitude `mantissa * 2 ^ exponent`. `narrowBelow` says that the next
smaller number of the layout is only half as far away as the next larger one,
as it is at every power of two inside the normal range. -/
structure Dyadic where
  mantissa : Nat
  exponent : Int
  narrowBelow : Bool
deriving DecidableEq, Repr

/-- What a floating-point word denotes. -/
inductive BinaryNumber where
  | notANumber
  | infinite (negative : Bool)
  | finite (negative : Bool) (magnitude : Dyadic)
deriving DecidableEq, Repr

namespace BinaryLayout

/-- The exponent that goes with the least significant fraction bit of a
subnormal number. -/
def leastExponent (layout : BinaryLayout) : Int :=
  2 - (Nat.pow 2 (layout.exponentBits - 1) : Nat) - layout.fractionBits

/-- Decodes a word. An exponent field of all ones holds the infinities and
everything that is not a number; an exponent field of zero holds the subnormal
numbers, which have no implicit leading bit. -/
def decode (layout : BinaryLayout) (word : Nat) : BinaryNumber :=
  let fraction := word % Nat.pow 2 layout.fractionBits
  let field := word / Nat.pow 2 layout.fractionBits % Nat.pow 2 layout.exponentBits
  let negative := word / Nat.pow 2 (layout.fractionBits + layout.exponentBits) % 2 = 1
  if field = Nat.pow 2 layout.exponentBits - 1 then
    if fraction = 0 then .infinite negative else .notANumber
  else if field = 0 then
    .finite negative ⟨fraction, layout.leastExponent, false⟩
  else
    .finite negative
      ⟨Nat.pow 2 layout.fractionBits + fraction, layout.leastExponent + field - 1,
        fraction = 0 && field ≠ 1⟩

end BinaryLayout

/-- The magnitude as a fraction of natural numbers. -/
def Dyadic.fraction (magnitude : Dyadic) : Nat × Nat :=
  (magnitude.mantissa * Nat.pow 2 magnitude.exponent.toNat, Nat.pow 2 (-magnitude.exponent).toNat)

end RequestEngine.Decimal
