import WideGraph.Decimal.Rounding
import WideGraph.Text.Numeral

/-!
# JSON numerals

A numeral without a point or power of ten that fits a 64-bit word is a whole number; minus zero and
everything else is a decimal. A decimal is computed in a few rounded steps, and not as the number
nearest to the numeral: the digits that fit an unsigned word are taken as one number, which is
multiplied or divided by powers of ten.
-/

namespace WideGraph.Json

/-- The digits of the parts of a numeral. -/
structure Numeral where
  negative : Bool
  whole : List Char
  fraction : List Char := []
  power : Option (Bool × List Char) := none
deriving DecidableEq, Repr

/-- What a numeral stands for. -/
inductive Number where
  | unsigned (n : UInt64)
  | negative (n : Int64)
  | decimal (x : Binary64)
deriving DecidableEq, Repr

/-- Split the digits in front. -/
def takeDigits (cs : List Char) : List Char × List Char :=
  (cs.takeWhile Char.isDigit, cs.dropWhile Char.isDigit)

/-- The whole part of a numeral: one or more digits, the first of them zero only if it is the only
one. -/
def takeWhole (cs : List Char) : Option (List Char × List Char) :=
  match takeDigits cs with
  | ([], _) => none
  | ('0' :: _ :: _, _) => none
  | split => some split

/-- The digits behind a point, none if there is no point. -/
def takeFraction : List Char → Option (List Char × List Char)
  | '.' :: cs =>
    match takeDigits cs with
    | ([], _) => none
    | split => some split
  | cs => some ([], cs)

/-- The digits of a power of ten with its sign. -/
def takePowerDigits (negative : Bool) (cs : List Char) :
    Option (Option (Bool × List Char) × List Char) :=
  match takeDigits cs with
  | ([], _) => none
  | (digits, rest) => some (some (negative, digits), rest)

/-- The power of ten, if there is one. -/
def takePower : List Char → Option (Option (Bool × List Char) × List Char)
  | c :: rest =>
    if c = 'e' ∨ c = 'E' then
      match rest with
      | '-' :: digits => takePowerDigits true digits
      | '+' :: digits => takePowerDigits false digits
      | digits => takePowerDigits false digits
    else some (none, c :: rest)
  | [] => some (none, [])

/-- Split a numeral and what follows it. -/
def takeNumeral (cs : List Char) : Option (Numeral × List Char) := do
  let (negative, cs) := match cs with
    | '-' :: rest => (true, rest)
    | cs => (false, cs)
  let (whole, cs) ← takeWhole cs
  let (fraction, cs) ← takeFraction cs
  let (power, cs) ← takePower cs
  return (⟨negative, whole, fraction, power⟩, cs)

/-- The number that digits continue for as long as it fits an unsigned word, and how many digits
were taken. -/
def gatherDigits (value taken : Nat) : List Char → Nat × Nat
  | [] => (value, taken)
  | c :: rest =>
    let next := 10 * value + Text.digitValue c
    if UInt64.size ≤ next then (value, taken) else gatherDigits next (taken + 1) rest

/-- The digits of the parts of a numeral that count, as one number, and the power of ten that goes
with it. Digits of the whole part that no longer fit raise the power; those of the fraction are
dropped. -/
def gather (numeral : Numeral) : Nat × Int :=
  let (whole, taken) := gatherDigits 0 0 numeral.whole
  let (all, places) := gatherDigits whole 0 numeral.fraction
  (all, (numeral.whole.length - taken : Nat) - (places : Int))

/-- The largest power of ten with an entry in the table. -/
def maxPower : Nat :=
  308

/-- The number nearest to a power of ten. -/
def powerOfTen (n : Nat) : Binary64 :=
  Binary64.ofDecimal false 1 n

/-- Divide by the largest tabulated power until the power that is left has an entry. -/
def scaleDown : Nat → Binary64 → Nat → Binary64
  | 0, x, _ => x
  | fuel + 1, x, n =>
    if n ≤ maxPower then x.div (powerOfTen n)
    else if x.magnitude = 0 then x
    else scaleDown fuel (x.div (powerOfTen maxPower)) (n - maxPower)

/-- A number times a power of ten; what is too large is refused. -/
def scaled? (x : Binary64) (power : Int) : Option Binary64 :=
  if power < 0 then some (scaleDown 5 x power.natAbs)
  else if power ≤ maxPower then
    let y := x.mul (powerOfTen power.toNat)
    if y.isInfinite then none else some y
  else if x.magnitude = 0 then some x else none

/-- The bound of the powers of ten that are read. -/
def powerBound : Nat :=
  0x80000000

/-- A power within the bounds of signed 32-bit words. -/
def clampPower (power : Int) : Int :=
  max (-(powerBound : Int)) (min power (powerBound - 1))

/-- The decimal that a numeral stands for, unless it is too large. -/
def Numeral.decimal? (numeral : Numeral) : Option Binary64 :=
  let (digits, shift) := gather numeral
  let signed (x : Binary64) : Binary64 := .ofMagnitude numeral.negative x.magnitude
  let start := Binary64.ofInt digits
  match numeral.power with
  | none => (scaled? start shift).map signed
  | some (negative, powerDigits) =>
    let power := Text.numeralFrom 0 powerDigits
    if powerBound ≤ power then
      if digits ≠ 0 ∧ !negative then none else some (.zero numeral.negative)
    else (scaled? start (clampPower (if negative then shift - power else shift + power))).map signed

/-- The number that a numeral stands for, unless it is too large. -/
def Numeral.number? (numeral : Numeral) : Option Number :=
  let n := Text.numeralFrom 0 numeral.whole
  if numeral.fraction ≠ [] ∨ numeral.power.isSome then numeral.decimal?.map .decimal
  else if numeral.negative then
    if n = 0 ∨ Int64.minValue.toInt.natAbs < n then numeral.decimal?.map .decimal
    else some (.negative (Int64.ofInt (-(n : Int))))
  else if n < UInt64.size then some (.unsigned (UInt64.ofNat n))
  else numeral.decimal?.map .decimal

/-- The number that a whole text writes. -/
def number? (cs : List Char) : Option Number := do
  let (numeral, rest) ← takeNumeral cs
  if rest = [] then numeral.number? else none

end WideGraph.Json
