import Mathlib.Data.List.Basic
import WideGraph.Proofs.Text.WordLiteral
import WideGraph.Store.Token
import WideGraph.TokenRange

/-!
# The ranges tile the ring

The ring is cut at increasing places from the smallest token to the end above every token, and the
ranges lie between consecutive cuts. Items in the order of their tokens, taken range by range, are
therefore all there, once and in the same order.
-/

namespace WideGraph

namespace TokenRange

/-- Where the ring is cut: at the starts of the ranges and at its end. -/
def cut (count position : Nat) : Int :=
  if position = count then maxToken else startOf count position

/-- A range starts at its cut. -/
theorem startOf_eq_cut {count position : Nat} (h : position < count) :
    startOf count position = cut count position := by
  rw [cut, if_neg (by omega)]

/-- A range stops at the next cut. -/
theorem stopOf_eq_cut (count position : Nat) : stopOf count position = cut count (position + 1) := by
  rw [stopOf, cut]
  split
  · rfl
  · have hcast : ((position + 1 : Nat) : Int) = position + 1 := rfl
    rw [startOf, startOf, hcast, Int.add_mul, Int.one_mul, Int.add_assoc]

/-- The width of a range is not negative. -/
theorem width_nonneg (count : Nat) : 0 ≤ width count :=
  Int.ediv_nonneg (by decide) (Int.natCast_nonneg count)

/-- The ranges together are no wider than the ring. -/
theorem count_mul_width_le (count : Nat) : count * width count ≤ maxToken - minToken := by
  by_cases hcount : count = 0
  · subst hcount
    decide
  · rw [width, Int.mul_comm]
    exact Int.ediv_mul_le _ (by omega)

/-- The ring is cut inside its bounds. -/
theorem cut_mem (count : Nat) {position : Nat} (h : position ≤ count) :
    minToken ≤ cut count position ∧ cut count position ≤ maxToken := by
  have hring : minToken ≤ maxToken := by decide
  rw [cut]
  split
  · exact ⟨hring, Int.le_refl _⟩
  · rw [startOf]
    have hwidth := width_nonneg count
    have hall := count_mul_width_le count
    have hlow : 0 ≤ (position : Int) * width count :=
      Int.mul_nonneg (Int.natCast_nonneg position) hwidth
    have hhigh : (position : Int) * width count ≤ count * width count :=
      Int.mul_le_mul_of_nonneg_right (by omega) hwidth
    omega

/-- The cuts do not decrease. -/
theorem cut_le_succ (count : Nat) {position : Nat} (h : position < count) :
    cut count position ≤ cut count (position + 1) := by
  by_cases hlast : position + 1 = count
  · have hend : cut count (position + 1) = maxToken := by rw [cut, if_pos hlast]
    rw [hend]
    exact (cut_mem count (by omega)).2
  · rw [← stopOf_eq_cut, stopOf, if_neg hlast, startOf_eq_cut h]
    have hwidth := width_nonneg count
    omega

/-- Later cuts are not before earlier ones. -/
theorem cut_mono {count i j : Nat} (hij : i ≤ j) (hj : j ≤ count) : cut count i ≤ cut count j := by
  induction hij with
  | refl => exact Int.le_refl _
  | step hle ih => exact Int.le_trans (ih (by omega)) (cut_le_succ count hj)

/-- The first cut is at the smallest token. -/
theorem cut_zero {count : Nat} (h : 0 < count) : cut count 0 = minToken := by
  rw [cut, if_neg (by omega), startOf]
  simp

/-- The last cut is at the end of the ring. -/
theorem cut_last (count : Nat) : cut count count = maxToken := by
  rw [cut, if_pos rfl]

/-- The range between two consecutive cuts. -/
def between (bytes count position : Nat) : TokenRange :=
  ⟨toString (cut count position), toString (cut count (position + 1)), bytes / count⟩

/-- There is at least one split. -/
theorem splitCount_pos (bytes size : Nat) : 0 < splitCount bytes size := by
  rw [splitCount]
  omega

/-- When a split is answered, and with which ranges: as many between consecutive cuts as there are
splits of the size. -/
theorem split_eq_ok_iff {bytes size : Nat} {ranges : List TokenRange} :
    split bytes size = .ok ranges ↔
      size ≠ 0 ∧ splitCount bytes size ≤ maxCount ∧
        ranges = (List.range (splitCount bytes size)).map
          (between bytes (splitCount bytes size)) := by
  have hranges : ((List.range (splitCount bytes size)).map fun position =>
      (⟨toString (startOf (splitCount bytes size) position),
        toString (stopOf (splitCount bytes size) position),
        bytes / splitCount bytes size⟩ : TokenRange)) =
      (List.range (splitCount bytes size)).map (between bytes (splitCount bytes size)) := by
    refine List.map_congr_left fun position hposition => ?_
    rw [between, startOf_eq_cut (List.mem_range.mp hposition), stopOf_eq_cut]
  rw [split]
  dsimp only
  rw [hranges]
  split
  · rename_i hzero
    simp [hzero]
  · rename_i hpositive
    split
    · rename_i htoo
      simp [Nat.not_le.mpr htoo]
    · rename_i hfew
      rw [Except.ok.injEq, eq_comm, and_iff_right hpositive, and_iff_right (Nat.le_of_not_lt hfew)]

/-- A split consists of the ranges between consecutive cuts, of which there is at least one. -/
theorem split_eq_ok {bytes size : Nat} {ranges : List TokenRange}
    (h : split bytes size = .ok ranges) :
    ∃ count, 0 < count ∧ ranges = (List.range count).map (between bytes count) :=
  ⟨splitCount bytes size, splitCount_pos bytes size, (split_eq_ok_iff.mp h).2.2⟩

end TokenRange

section Tiling

variable {α : Type}

/-- Of items in order, those below a bound and then those from it on are all of them. -/
theorem filter_lt_append_filter_ge {place : α → Int} {items : List α}
    (hsorted : items.Pairwise fun a b => place a ≤ place b) (bound : Int) :
    (items.filter fun a => place a < bound) ++ (items.filter fun a => bound ≤ place a) = items := by
  induction items with
  | nil => rfl
  | cons a rest ih =>
    have hrest := ih (List.Pairwise.of_cons hsorted)
    by_cases hlt : place a < bound
    · have hnot : ¬ bound ≤ place a := by omega
      rw [List.filter_cons_of_pos (by simpa using hlt),
        List.filter_cons_of_neg (by simpa using hnot), List.cons_append, hrest]
    · -- Nothing behind the first item is below the bound either.
      have hnone : (rest.filter fun b => place b < bound) = [] := by
        rw [List.filter_eq_nil_iff]
        intro b hb
        have hle := List.rel_of_pairwise_cons hsorted hb
        simp only [decide_eq_true_eq]
        omega
      rw [hnone, List.nil_append] at hrest
      rw [List.filter_cons_of_neg (by simpa using hlt),
        List.filter_cons_of_pos (by simpa using hlt), hnone, List.nil_append, hrest]

/-- Items in order, taken from one cut to the next, are those from the first cut to the last. -/
theorem flatMap_filter_cuts {place : α → Int} {items : List α}
    (hsorted : items.Pairwise fun a b => place a ≤ place b) (cut : Nat → Int) {count : Nat}
    (hcut : ∀ position < count, cut position ≤ cut (position + 1)) :
    ((List.range count).flatMap fun position =>
        items.filter fun a => cut position ≤ place a && place a < cut (position + 1)) =
      items.filter fun a => cut 0 ≤ place a && place a < cut count := by
  induction count with
  | zero =>
    symm
    rw [List.range_zero, List.flatMap_nil, List.filter_eq_nil_iff]
    intro a _
    simp only [Bool.and_eq_true, decide_eq_true_eq, not_and]
    omega
  | succ count ih =>
    have hmono : ∀ position ≤ count, cut 0 ≤ cut position := by
      intro position hposition
      induction position with
      | zero => exact Int.le_refl _
      | succ position ih' =>
        exact Int.le_trans (ih' (by omega)) (hcut position (by omega))
    have hlast := hcut count (by omega)
    rw [List.range_succ, List.flatMap_append, ih fun position h => hcut position (by omega),
      List.flatMap_singleton]
    -- Both parts are cut out of the items from the first cut to the last.
    have hpart := filter_lt_append_filter_ge
      (hsorted.filter fun a => cut 0 ≤ place a && place a < cut (count + 1)) (cut count)
    rw [List.filter_filter, List.filter_filter] at hpart
    rw [← hpart]
    have hfirst := hmono count (by omega)
    congr 1 <;>
    · refine List.filter_congr fun a _ => ?_
      rw [Bool.eq_iff_iff]
      simp only [Bool.and_eq_true, decide_eq_true_eq]
      omega

end Tiling

/-- Every token is below the end of the ring. -/
theorem partitionToken_lt (partition : List Value) :
    (partitionToken partition).toInt < TokenRange.maxToken := by
  have hne : partitionToken partition ≠ Int64.maxValue := by
    rw [partitionToken]
    split
    · rename_i htoken
      rw [htoken]
      decide
    · assumption
  have hle := (partitionToken partition).toInt_le
  have hne' : (partitionToken partition).toInt ≠ Int64.maxValue.toInt :=
    fun h => hne (Int64.toInt_inj.mp h)
  rw [TokenRange.maxToken]
  omega

/-- A partition of one value has the token of the value's plain text. -/
theorem partitionToken_congr {v w : Value} (h : v.plain = w.plain) :
    partitionToken [v] = partitionToken [w] := by
  simp only [partitionToken, partitionBytes, List.flatMap_singleton, h]

end WideGraph
