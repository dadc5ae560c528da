/-!
# Decimal numbers as 64-bit words

A decimal value is kept as the word of its binary interchange form, so that the sign of zero and
the payload of a not-a-number survive storage. The module reads the fields of a word, gives the
exact value of a finite one, and orders all words on one line: negative not-a-numbers, minus
infinity, the negative numbers, the two zeros, the positive numbers, infinity, and positive
not-a-numbers.
-/

namespace WideGraph

/-- A binary floating-point number of 64 bits. -/
structure Binary64 where
  bits : UInt64
deriving DecidableEq, Repr, Inhabited

namespace Binary64

/-- The weight of the sign bit in a word. -/
def signWeight : Nat :=
  0x8000000000000000

/-- The number of fractions that go with one exponent, the weight of an exponent in a word. -/
def fractionCount : Nat :=
  0x10000000000000

/-- A power with a natural exponent, and one where the exponent is negative. -/
def powerUp (base : Nat) (exponent : Int) : Nat :=
  Nat.pow base exponent.toNat

/-- The power that divides where the exponent is negative, and one where it is natural. -/
def powerDown (base : Nat) (exponent : Int) : Nat :=
  Nat.pow base (-exponent).toNat

/-- Whether the sign bit is set. -/
def isNegative (x : Binary64) : Bool :=
  signWeight ≤ x.bits.toNat

/-- The word without its sign bit. -/
def magnitude (x : Binary64) : Nat :=
  x.bits.toNat % signWeight

/-- The magnitude of both infinities; larger magnitudes are not-a-numbers. -/
def infiniteMagnitude : Nat :=
  2047 * fractionCount

/-- The number with the given sign and magnitude bits. -/
def ofMagnitude (negative : Bool) (magnitude : Nat) : Binary64 :=
  ⟨UInt64.ofNat ((if negative then signWeight else 0) + magnitude)⟩

/-- The zero of the given sign. -/
def zero (negative : Bool) : Binary64 :=
  ofMagnitude negative 0

/-- The infinity of the given sign. -/
def infinity (negative : Bool) : Binary64 :=
  ofMagnitude negative infiniteMagnitude

/-- The quiet not-a-number of the given sign. -/
def notANumber (negative : Bool) : Binary64 :=
  ofMagnitude negative (infiniteMagnitude + fractionCount / 2)

/-- Whether the word is a not-a-number. -/
def isNotANumber (x : Binary64) : Bool :=
  infiniteMagnitude < x.magnitude

/-- Whether the word is one of the infinities. -/
def isInfinite (x : Binary64) : Bool :=
  x.magnitude == infiniteMagnitude

/-- Whether the word stands for a real number. -/
def isFinite (x : Binary64) : Bool :=
  x.magnitude < infiniteMagnitude

/-- The significand of a finite number, which counts units of `2 ^ exponent`. -/
def significand (x : Binary64) : Nat :=
  if x.magnitude < fractionCount then x.magnitude
  else fractionCount + x.magnitude % fractionCount

/-- The binary exponent of a finite number's unit. -/
def exponent (x : Binary64) : Int :=
  if x.magnitude < fractionCount then -1074
  else (x.magnitude / fractionCount : Nat) - 1075

/-- The place of a word on the line of all words. -/
def position (x : Binary64) : Int :=
  if x.isNegative then -1 - (x.magnitude : Int) else x.magnitude

/-- The total order of the words by their place on the line. -/
def compare (x y : Binary64) : Ordering :=
  Ord.compare x.position y.position

instance : Ord Binary64 := ⟨Binary64.compare⟩

/-- The value of a finite number without a fraction. -/
def integer? (x : Binary64) : Option Int :=
  if !x.isFinite then none
  else
    let whole := x.significand * powerUp 2 x.exponent
    let unit := powerDown 2 x.exponent
    if whole % unit = 0 then
      some (if x.isNegative then -((whole / unit : Nat) : Int) else (whole / unit : Nat))
    else none

/-- A word is fixed by its sign and its magnitude. -/
theorem bits_toNat (x : Binary64) :
    x.bits.toNat = (if x.isNegative then signWeight else 0) + x.magnitude := by
  have hlt := x.bits.toNat_lt
  by_cases h : signWeight ≤ x.bits.toNat
  · simp only [isNegative, magnitude, decide_eq_true h, if_true]
    simp only [signWeight] at h ⊢
    omega
  · simp only [isNegative, magnitude, decide_eq_false h, Bool.false_eq_true, if_false]
    simp only [signWeight] at h ⊢
    omega

/-- Two words with the same place on the line are the same word. -/
theorem position_injective {x y : Binary64} (h : x.position = y.position) : x = y := by
  have hx := bits_toNat x
  have hy := bits_toNat y
  have hbits : x.bits.toNat = y.bits.toNat := by
    simp only [position] at h
    cases hxs : x.isNegative <;> cases hys : y.isNegative <;> simp_all <;> omega
  cases x; cases y
  simpa using UInt64.toNat_inj.mp hbits

end Binary64

end WideGraph
