import WideGraph.Decimal.Binary64

/-!
# Rounding to the nearest number

Every exact quotient of two naturals times a power of two has one nearest 64-bit number; a tie
goes to the even significand and what is too large becomes infinite. Products and quotients of
two numbers and the reading of whole numbers are roundings of their exact values.
-/

namespace WideGraph.Binary64

/-- The quotient to the nearest natural, a half going to the even neighbour. -/
def roundQuotient (num den : Nat) : Nat :=
  let low := num / den
  let twice := 2 * (num % den)
  if twice < den then low
  else if twice = den then low + low % 2
  else low + 1

/-- Whether `num / den` is at least `limit * 2 ^ scale`. -/
def reachesScale (num den limit : Nat) (scale : Int) : Bool :=
  limit * den * powerUp 2 scale ≤ num * powerDown 2 scale

/-- The exponent of the unit in which a positive quotient has 53 significant bits, or the smallest
exponent if the quotient is too small for that. -/
def unitExponent (num den : Nat) : Int :=
  let guess : Int := (Nat.log2 num : Int) - Nat.log2 den - 53
  max (if reachesScale num den (2 * fractionCount) guess then guess + 1 else guess) (-1074)

/-- The number nearest to `num / den`, with the given sign. -/
def ofQuotient (negative : Bool) (num den : Nat) : Binary64 :=
  if num = 0 then zero negative
  else
    let unit := unitExponent num den
    let units := roundQuotient (num * powerDown 2 unit) (den * powerUp 2 unit)
    ofMagnitude negative (min ((unit + 1074).toNat * fractionCount + units) infiniteMagnitude)

/-- The number nearest to `num / den * 2 ^ scale`, with the given sign. -/
def ofScaledQuotient (negative : Bool) (num den : Nat) (scale : Int) : Binary64 :=
  ofQuotient negative (num * powerUp 2 scale) (den * powerDown 2 scale)

/-- The number nearest to a whole number. -/
def ofInt (n : Int) : Binary64 :=
  ofQuotient (decide (n < 0)) n.natAbs 1

/-- The rounded product of two finite numbers. -/
def mul (x y : Binary64) : Binary64 :=
  ofScaledQuotient (x.isNegative != y.isNegative) (x.significand * y.significand) 1
    (x.exponent + y.exponent)

/-- The rounded quotient of a finite number by a finite one other than zero. -/
def div (x y : Binary64) : Binary64 :=
  ofScaledQuotient (x.isNegative != y.isNegative) x.significand y.significand
    (x.exponent - y.exponent)

/-- The number nearest to `digits * 10 ^ power`, with the given sign. A power so far from zero that
the result is certainly infinite or zero is not computed. -/
def ofDecimal (negative : Bool) (digits : Nat) (power : Int) : Binary64 :=
  if digits = 0 then zero negative
  else if 310 < (Nat.log2 digits : Int) / 4 + power then infinity negative
  else if (Nat.log2 digits : Int) / 3 + power < -400 then zero negative
  else ofQuotient negative (digits * powerUp 10 power) (powerDown 10 power)

end WideGraph.Binary64
