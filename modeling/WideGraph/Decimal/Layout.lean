import WideGraph.Decimal.Shortest

/-!
# The text of a decimal number

A layout says for which magnitudes a number is written positionally, whether a whole number keeps
a zero after the point, whether a positive power of ten has its sign, and how ties between equally
short decimals go. Outside the positional range a number is written with one digit before the point
and a power of ten.
-/

namespace WideGraph

/-- The decisions of a number's text. The scale of a number is the least `k` with the number below
`10 ^ k`; scales from `lowest` to `highest` are written positionally, and a missing bound admits
all. -/
structure DecimalLayout where
  lowest : Option Int
  highest : Option Int
  keepsPoint : Bool
  signsPower : Bool
  tie : TieRule
deriving DecidableEq, Repr

namespace DecimalLayout

/-- Whether numbers of this scale are written positionally. -/
def isPositional (layout : DecimalLayout) (scale : Int) : Bool :=
  layout.lowest.all (decide <| · ≤ scale) && layout.highest.all (decide <| scale ≤ ·)

/-- The digits with the decimal point at its place. -/
def positional (layout : DecimalLayout) (digits : List Char) (scale : Int) : List Char :=
  if scale ≤ 0 then ['0', '.'] ++ List.replicate (-scale).toNat '0' ++ digits
  else if digits.length ≤ scale.toNat then
    digits ++ List.replicate (scale.toNat - digits.length) '0' ++
      (if layout.keepsPoint then ['.', '0'] else [])
  else digits.take scale.toNat ++ ['.'] ++ digits.drop scale.toNat

/-- The digits with the point after the first one, and the power of ten. -/
def withPower (layout : DecimalLayout) (digits : List Char) (scale : Int) : List Char :=
  let mantissa := match digits with
    | first :: second :: rest => first :: '.' :: second :: rest
    | short => short
  mantissa ++ ['e'] ++ (if layout.signsPower && 0 < scale then ['+'] else []) ++
    (toString (scale - 1)).toList

/-- The text of the size of a finite number. -/
def sizeText (layout : DecimalLayout) (x : Binary64) : List Char :=
  if x.magnitude = 0 then if layout.keepsPoint then ['0', '.', '0'] else ['0']
  else
    let decimal := x.shortestDecimal layout.tie
    let digits := Nat.toDigits 10 decimal.digits
    let scale := decimal.power + digits.length
    if layout.isPositional scale then layout.positional digits scale else layout.withPower digits scale

/-- The text of a number; not-a-numbers are written without their sign. -/
def write (layout : DecimalLayout) (x : Binary64) : String :=
  if x.isNotANumber then "NaN"
  else if x.isInfinite then if x.isNegative then "-inf" else "inf"
  else String.ofList ((if x.isNegative then ['-'] else []) ++ layout.sizeText x)

end DecimalLayout

end WideGraph
