import WideGraph.Decimal.Rounding
import WideGraph.Text.Numeral

/-!
# Decimal numbers in text

A decimal literal is an optional sign and then an infinity, a not-a-number, or digits with an
optional point and an optional power of ten. The digits stand for an exact decimal, and the literal
for the number nearest to it.
-/

namespace WideGraph.Decimal

/-- An optional sign and what follows it. -/
def splitSign : List Char → Bool × List Char
  | '-' :: rest => (true, rest)
  | '+' :: rest => (false, rest)
  | cs => (false, cs)

/-- The power of ten after the mantissa, zero if nothing follows. -/
def power? : List Char → Option Int
  | [] => some 0
  | c :: rest => if c = 'e' ∨ c = 'E' then Text.integer? rest else none

/-- The number written by digits, an optional point and an optional power of ten. -/
def unsignedLiteral? (negative : Bool) (cs : List Char) : Option Binary64 :=
  let whole := cs.takeWhile Char.isDigit
  let rest := cs.dropWhile Char.isDigit
  let fraction := match rest with
    | '.' :: tail => tail.takeWhile Char.isDigit
    | _ => []
  let tail := match rest with
    | '.' :: tail => tail.dropWhile Char.isDigit
    | _ => rest
  if whole ++ fraction = [] then none
  else (power? tail).map fun power =>
    Binary64.ofDecimal negative (Text.numeralFrom 0 (whole ++ fraction)) (power - fraction.length)

/-- The number that a literal writes. -/
def literal? (cs : List Char) : Option Binary64 :=
  let (negative, body) := splitSign cs
  let word := body.map Char.toLower
  if word = "inf".toList ∨ word = "infinity".toList then some (Binary64.infinity negative)
  else if word = "nan".toList then some (Binary64.notANumber negative)
  else unsignedLiteral? negative body

end WideGraph.Decimal
