import Mathlib.Algebra.Group.Nat.Defs
import Mathlib.Tactic.SplitIfs
import WideGraph.Decimal.Rounding

/-!
# Whole numbers among the decimals

The number nearest to a whole number grows with it, though not strictly: from 2^53 on there are more
whole numbers than decimals. Up to 2^53 in either direction every whole number is a decimal itself,
so that no two of them come to the same one.
-/

namespace WideGraph.Binary64

/-- A quotient is rounded down or up by less than one. -/
theorem roundQuotient_bounds (num den : Nat) :
    num / den ≤ roundQuotient num den ∧ roundQuotient num den ≤ num / den + 1 := by
  simp only [roundQuotient]
  split
  · omega
  · split <;> omega

/-- Of two numbers over one denominator the larger is not rounded below the smaller. -/
theorem roundQuotient_mono {a b : Nat} (den : Nat) (h : a ≤ b) :
    roundQuotient a den ≤ roundQuotient b den := by
  have ha := roundQuotient_bounds a den
  have hb := roundQuotient_bounds b den
  obtain hlt | heq := Nat.lt_or_eq_of_le (Nat.div_le_div_right (c := den) h)
  · omega
  · -- With the same whole part the remainders decide, and the larger one is not rounded down alone.
    have hrest : a % den ≤ b % den := by
      have hsplit := Nat.div_add_mod a den
      have hsplit' := Nat.div_add_mod b den
      rw [heq] at hsplit
      omega
    simp only [roundQuotient, heq]
    split_ifs <;> omega

/-- Nothing is rounded over the denominator one. -/
theorem roundQuotient_one (num : Nat) : roundQuotient num 1 = num := by
  simp [roundQuotient, Nat.mod_one]

/-- A whole number has its 53 significant bits in a unit that is 52 places below its highest bit. -/
theorem unitExponent_one {n : Nat} (hn : n ≠ 0) : unitExponent n 1 = (n.log2 : Int) - 52 := by
  have hlow : 2 ^ n.log2 ≤ n := Nat.log2_self_le hn
  have hreaches : reachesScale n 1 (2 * fractionCount) ((n.log2 : Int) - 53) = true := by
    rw [reachesScale, decide_eq_true_iff]
    have hcount : 2 * fractionCount = 2 ^ 53 := rfl
    rw [hcount, Nat.mul_one, powerUp, powerDown]
    change 2 ^ 53 * 2 ^ ((n.log2 : Int) - 53).toNat ≤ n * 2 ^ (-((n.log2 : Int) - 53)).toNat
    rw [← Nat.pow_add]
    have hsplit : 53 + ((n.log2 : Int) - 53).toNat = n.log2 + (-((n.log2 : Int) - 53)).toNat := by
      omega
    rw [hsplit, Nat.pow_add]
    exact Nat.mul_le_mul_right _ hlow
  have hone : Nat.log2 1 = 0 := by decide
  simp only [unitExponent, hone]
  rw [show (n.log2 : Int) - (0 : Nat) - 53 = (n.log2 : Int) - 53 by omega, hreaches, if_pos rfl]
  omega

/-- The units of its last place that a whole number is rounded to. -/
def nearestUnits (n : Nat) : Nat :=
  roundQuotient (n * 2 ^ (52 - n.log2)) (2 ^ (n.log2 - 52))

/-- The magnitude of the number nearest to a natural. -/
def nearestMagnitude (n : Nat) : Nat :=
  if n = 0 then 0 else min ((n.log2 + 1022) * fractionCount + nearestUnits n) infiniteMagnitude

/-- The number nearest to a whole number has its sign and the magnitude nearest to its amount. -/
theorem ofInt_eq (n : Int) :
    ofInt n = ofMagnitude (decide (n < 0)) (nearestMagnitude n.natAbs) := by
  rw [ofInt, ofQuotient, nearestMagnitude]
  by_cases hn : n.natAbs = 0
  · rw [if_pos hn, if_pos hn, zero]
  · rw [if_neg hn, if_neg hn, unitExponent_one hn]
    have hexponent : ((n.natAbs.log2 : Int) - 52 + 1074).toNat = n.natAbs.log2 + 1022 := by omega
    have hup : ((n.natAbs.log2 : Int) - 52).toNat = n.natAbs.log2 - 52 := by omega
    have hdown : (-((n.natAbs.log2 : Int) - 52)).toNat = 52 - n.natAbs.log2 := by omega
    simp only [hexponent, powerDown, powerUp, hup, hdown, Nat.one_mul]
    rfl

/-- The rounded units of a whole number have 53 bits, or are the first number that has one more. -/
theorem nearestUnits_bounds {n : Nat} (hn : n ≠ 0) :
    2 ^ 52 ≤ nearestUnits n ∧ nearestUnits n ≤ 2 ^ 53 := by
  have hlow : 2 ^ n.log2 ≤ n := Nat.log2_self_le hn
  have hhigh : n < 2 ^ (n.log2 + 1) := Nat.lt_log2_self
  have hbounds := roundQuotient_bounds (n * 2 ^ (52 - n.log2)) (2 ^ (n.log2 - 52))
  have hsplit : n.log2 + (52 - n.log2) = 52 + (n.log2 - 52) := by omega
  have hleast : 2 ^ 52 ≤ n * 2 ^ (52 - n.log2) / 2 ^ (n.log2 - 52) := by
    rw [Nat.le_div_iff_mul_le (Nat.two_pow_pos _), ← Nat.pow_add, ← hsplit, Nat.pow_add]
    exact Nat.mul_le_mul_right _ hlow
  have hmost : n * 2 ^ (52 - n.log2) / 2 ^ (n.log2 - 52) < 2 ^ 53 := by
    rw [Nat.div_lt_iff_lt_mul (Nat.two_pow_pos _), ← Nat.pow_add,
      show 53 + (n.log2 - 52) = n.log2 + 1 + (52 - n.log2) by omega, Nat.pow_add]
    exact Nat.mul_lt_mul_of_pos_right hhigh (Nat.two_pow_pos _)
  rw [nearestUnits]
  omega

/-- A whole number with at most 53 bits is not rounded. -/
theorem nearestUnits_exact {n : Nat} (h : n.log2 ≤ 52) :
    nearestUnits n = n * 2 ^ (52 - n.log2) := by
  rw [nearestUnits, Nat.sub_eq_zero_of_le h, Nat.pow_zero, roundQuotient_one]

/-- A larger natural has at least as many bits. -/
theorem log2_mono {n m : Nat} (hn : n ≠ 0) (h : n ≤ m) : n.log2 ≤ m.log2 :=
  (Nat.le_log2 (by omega)).mpr (Nat.le_trans (Nat.log2_self_le hn) h)

/-- A larger natural does not come to a smaller magnitude. -/
theorem nearestMagnitude_mono {n m : Nat} (h : n ≤ m) :
    nearestMagnitude n ≤ nearestMagnitude m := by
  by_cases hn : n = 0
  · simp [nearestMagnitude, hn]
  · have hm : m ≠ 0 := by omega
    rw [nearestMagnitude, nearestMagnitude, if_neg hn, if_neg hm]
    have hle : (n.log2 + 1022) * fractionCount + nearestUnits n ≤
        (m.log2 + 1022) * fractionCount + nearestUnits m := by
      obtain hlt | heq := Nat.lt_or_eq_of_le (log2_mono hn h)
      · have hunits := nearestUnits_bounds hn
        have hunits' := nearestUnits_bounds hm
        simp only [fractionCount] at *
        omega
      · rw [nearestUnits, nearestUnits, heq]
        exact Nat.add_le_add_left (roundQuotient_mono _ (Nat.mul_le_mul_right _ h)) _
    omega

/-- Up to 2^53 a larger natural comes to a larger magnitude. -/
theorem nearestMagnitude_strict {n m : Nat} (h : n < m) (hm : m ≤ 2 ^ 53) :
    nearestMagnitude n < nearestMagnitude m := by
  have hpos : m ≠ 0 := by omega
  have hbits : m.log2 ≤ 53 := by
    have hlow := Nat.log2_self_le hpos
    exact (Nat.pow_le_pow_iff_right (by decide)).mp (Nat.le_trans hlow hm)
  have hunits := nearestUnits_bounds hpos
  have hfinite : (m.log2 + 1022) * fractionCount + nearestUnits m < infiniteMagnitude := by
    simp only [fractionCount, infiniteMagnitude] at *
    omega
  rw [nearestMagnitude, nearestMagnitude, if_neg hpos, Nat.min_eq_left (Nat.le_of_lt hfinite)]
  by_cases hn : n = 0
  · rw [if_pos hn]
    simp only [fractionCount]
    omega
  · rw [if_neg hn]
    refine Nat.lt_of_le_of_lt (Nat.min_le_left _ _) ?_
    -- The smaller of the two has at most 53 bits, so that it is not rounded.
    have hshort : n.log2 ≤ 52 := by
      have hlt : 2 ^ n.log2 < 2 ^ 53 := by
        have hlow := Nat.log2_self_le hn
        omega
      exact Nat.le_of_lt_succ ((Nat.pow_lt_pow_iff_right (by decide)).mp hlt)
    obtain hlt | heq := Nat.lt_or_eq_of_le (log2_mono hn (Nat.le_of_lt h))
    · have hsmall : nearestUnits n < 2 ^ 53 := by
        have hsplit : 53 = n.log2 + 1 + (52 - n.log2) := by omega
        rw [nearestUnits_exact hshort, hsplit, Nat.pow_add]
        exact Nat.mul_lt_mul_of_pos_right Nat.lt_log2_self (Nat.two_pow_pos _)
      clear hfinite
      simp only [fractionCount]
      omega
    · rw [nearestUnits_exact hshort, nearestUnits_exact (heq ▸ hshort), heq]
      exact Nat.add_lt_add_left (Nat.mul_lt_mul_of_pos_right h (Nat.two_pow_pos _)) _

/-- The magnitude nearest to a natural is that of a number or of infinity. -/
theorem nearestMagnitude_le (n : Nat) : nearestMagnitude n ≤ infiniteMagnitude := by
  rw [nearestMagnitude]
  split
  · exact Nat.zero_le _
  · exact Nat.min_le_right _ _

/-- The place of a word on the line by its sign and its magnitude. -/
theorem position_ofMagnitude (negative : Bool) {magnitude : Nat}
    (h : magnitude ≤ infiniteMagnitude) :
    (ofMagnitude negative magnitude).position =
      if negative then -1 - (magnitude : Int) else magnitude := by
  have hbits : (ofMagnitude negative magnitude).bits.toNat =
      (if negative then signWeight else 0) + magnitude := by
    rw [ofMagnitude, UInt64.toNat_ofNat']
    refine Nat.mod_eq_of_lt ?_
    simp only [infiniteMagnitude, fractionCount] at h
    cases negative <;> simp only [signWeight, Bool.false_eq_true, if_true, if_false] <;> omega
  simp only [infiniteMagnitude, fractionCount] at h
  rw [position, isNegative, Binary64.magnitude, hbits]
  cases negative with
  | false =>
    have hsmall : ¬signWeight ≤ 0 + magnitude := by
      simp only [signWeight]
      omega
    have hrest : (0 + magnitude) % signWeight = magnitude := by
      simp only [signWeight]
      omega
    simp only [Bool.false_eq_true, if_false, decide_eq_false hsmall, hrest]
  | true =>
    have hlarge : signWeight ≤ signWeight + magnitude := Nat.le_add_right _ _
    have hrest : (signWeight + magnitude) % signWeight = magnitude := by
      simp only [signWeight]
      omega
    simp only [if_true, decide_eq_true hlarge, hrest]

/-- The place of the number nearest to a whole number. -/
theorem position_ofInt (n : Int) :
    (ofInt n).position =
      if n < 0 then -1 - (nearestMagnitude n.natAbs : Int) else nearestMagnitude n.natAbs := by
  rw [ofInt_eq, position_ofMagnitude _ (nearestMagnitude_le _)]
  simp

/-- The number nearest to a larger whole number is not smaller. -/
theorem position_ofInt_mono {n m : Int} (h : n ≤ m) : (ofInt n).position ≤ (ofInt m).position := by
  rw [position_ofInt, position_ofInt]
  by_cases hn : n < 0
  · rw [if_pos hn]
    by_cases hm : m < 0
    · rw [if_pos hm]
      have hle := nearestMagnitude_mono (show m.natAbs ≤ n.natAbs by omega)
      omega
    · rw [if_neg hm]
      omega
  · rw [if_neg hn, if_neg (show ¬m < 0 by omega)]
    have hle := nearestMagnitude_mono (show n.natAbs ≤ m.natAbs by omega)
    omega

/-- Whole numbers up to 2^53 in either direction come to different numbers. -/
theorem ofInt_injective_upTo {n m : Int} (hn : n.natAbs ≤ 2 ^ 53) (hm : m.natAbs ≤ 2 ^ 53)
    (h : ofInt n = ofInt m) : n = m := by
  have hplace := congrArg position h
  rw [position_ofInt, position_ofInt] at hplace
  obtain hlt | heq | hgt := Nat.lt_trichotomy n.natAbs m.natAbs
  · have hstrict := nearestMagnitude_strict hlt hm
    split at hplace <;> split at hplace <;> omega
  · rw [heq] at hplace
    split at hplace <;> split at hplace <;> omega
  · have hstrict := nearestMagnitude_strict hgt hn
    split at hplace <;> split at hplace <;> omega

end WideGraph.Binary64
