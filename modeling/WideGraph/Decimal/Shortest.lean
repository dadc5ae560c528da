import WideGraph.Decimal.Binary64

/-!
# The fewest decimal digits that name a number

The real numbers that round to a finite number form an interval around it, with its ends when the
significand is even. The decimal of a number is the one with the fewest digits in that interval
and, among those, the nearest; the rule for an exact tie is a parameter. Everything is decided by
comparing naturals.
-/

namespace WideGraph

/-- The decimal `digits * 10 ^ power`. -/
structure ScaledDecimal where
  digits : Nat
  power : Int
deriving DecidableEq, Repr

/-- Which of two equally near decimals is taken. -/
inductive TieRule where
  | upward
  | toEven
deriving DecidableEq, Repr

namespace Binary64

/-- Compare `a * 10 ^ i` with `n * 2 ^ j`. -/
def compareDecimal (a : Nat) (i : Int) (n : Nat) (j : Int) : Ordering :=
  Ord.compare (a * powerUp 10 i * powerDown 2 j) (n * powerUp 2 j * powerDown 10 i)

/-- Whether the gap to the next smaller number is half the gap to the next larger one. -/
def hasNarrowGapBelow (x : Binary64) : Bool :=
  x.magnitude % fractionCount == 0 && 2 * fractionCount ≤ x.magnitude

/-- Whether a decimal lies among the reals that round to the size of a finite number. -/
def isNamedBy (x : Binary64) (d : ScaledDecimal) : Bool :=
  let low := if x.hasNarrowGapBelow then 4 * x.significand - 1 else 4 * x.significand - 2
  let high := 4 * x.significand + 2
  let closed := x.significand % 2 == 0
  let atLow := compareDecimal d.digits d.power low (x.exponent - 2)
  let atHigh := compareDecimal d.digits d.power high (x.exponent - 2)
  (atLow == .gt || (closed && atLow == .eq)) && (atHigh == .lt || (closed && atHigh == .eq))

/-- The least `k` for which a positive finite number is below `10 ^ k`. -/
def decimalScale (x : Binary64) : Int :=
  let guess := ((Nat.log2 x.significand : Int) + x.exponent) * 30103 / 100000
  let below (k : Int) : Bool := compareDecimal 1 k x.significand x.exponent == .gt
  if below guess then guess else if below (guess + 1) then guess + 1 else guess + 2

/-- The largest multiple of `10 ^ power` that does not exceed a finite number's size. -/
def floorDecimal (x : Binary64) (power : Int) : ScaledDecimal :=
  ⟨x.significand * powerUp 2 x.exponent * powerDown 10 power /
    (powerDown 2 x.exponent * powerUp 10 power), power⟩

/-- The one of two neighbouring decimals that is nearer to a finite number's size. -/
def nearerDecimal (x : Binary64) (tie : TieRule) (low : ScaledDecimal) : ScaledDecimal :=
  let high : ScaledDecimal := ⟨low.digits + 1, low.power⟩
  match compareDecimal (2 * low.digits + 1) low.power (2 * x.significand) x.exponent with
  | .lt => high
  | .gt => low
  | .eq =>
    match tie with
    | .upward => high
    | .toEven => if low.digits % 2 = 0 then low else high

/-- The decimal of at most the given power's precision that names a finite number, if there is one. -/
def decimalAt? (x : Binary64) (tie : TieRule) (power : Int) : Option ScaledDecimal :=
  let low := x.floorDecimal power
  let high : ScaledDecimal := ⟨low.digits + 1, power⟩
  match x.isNamedBy low, x.isNamedBy high with
  | true, true => some (x.nearerDecimal tie low)
  | true, false => some low
  | false, true => some high
  | false, false => none

/-- The size of a finite number, written out in full. -/
def exactDecimal (x : Binary64) : ScaledDecimal :=
  ⟨x.significand * powerUp 2 x.exponent * powerDown 5 x.exponent, min x.exponent 0⟩

end Binary64

/-- The same decimal without trailing zeros among its digits, of which at most `fuel` are taken. -/
def ScaledDecimal.stripZeros : Nat → ScaledDecimal → ScaledDecimal
  | 0, d => d
  | fuel + 1, d =>
    if d.digits ≠ 0 ∧ d.digits % 10 = 0 then stripZeros fuel ⟨d.digits / 10, d.power + 1⟩ else d

/-- The decimal with the fewest digits that names the size of a finite number other than zero. -/
def Binary64.shortestDecimal (x : Binary64) (tie : TieRule) : ScaledDecimal :=
  let found := (List.range 17).findSome? fun (n : Nat) => x.decimalAt? tie (x.decimalScale - (n + 1))
  (found.getD x.exactDecimal).stripZeros 20

end WideGraph
