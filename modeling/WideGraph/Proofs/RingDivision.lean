import Mathlib.Data.Rat.Floor
import WideGraph.Proofs.TokenRing

/-!
# How a split divides the ring

A split is refused for the size zero and if it would have too many ranges. Otherwise its ranges lead
from the smallest token to the end of the ring, each from where the one ahead stops, so that every
token is in exactly one of them. They are equally wide, except that the last takes what the division
of the ring leaves over. No number on the way overflows its word, although the ring itself is too
wide for the words of the tokens.
-/

namespace WideGraph.TokenRange

/-- The range is written with these two tokens in decimal digits. -/
structure Reaches (range : TokenRange) (start stop : Int64) : Prop where
  start_eq : range.start = toString start.toInt
  stop_eq : range.stop = toString stop.toInt

/-- The ranges lead from one token to another, each from where the one ahead stops to a later
token. -/
inductive Spans : Int64 → List TokenRange → Int64 → Prop where
  | nil (token : Int64) : Spans token [] token
  | cons {start next stop : Int64} {range : TokenRange} {rest : List TokenRange}
      (hrange : range.Reaches start next) (hlt : start < next) (hrest : Spans next rest stop) :
      Spans start (range :: rest) stop

/-- The token is one of the range, whose bounds are read as words. -/
def Contains (range : TokenRange) (token : Int64) : Prop :=
  ∃ start stop, Text.wordLiteral? range.start = some start ∧
    Text.wordLiteral? range.stop = some stop ∧ start ≤ token ∧ token < stop

/-- A token in decimal digits is read as the token. -/
theorem wordLiteral?_toInt (token : Int64) :
    Text.wordLiteral? (toString token.toInt) = some token := by
  rw [Text.wordLiteral?_toString token.le_toInt token.toInt_le, Int64.ofInt_toInt]

/-- A range contains the tokens from the one to below the other that it is written with. -/
theorem Reaches.contains_iff {range : TokenRange} {start stop : Int64}
    (h : range.Reaches start stop) (token : Int64) :
    range.Contains token ↔ start ≤ token ∧ token < stop := by
  rw [Contains, h.start_eq, h.stop_eq, wordLiteral?_toInt, wordLiteral?_toInt]
  constructor
  · rintro ⟨_, _, ⟨⟩, ⟨⟩, hbounds⟩
    exact hbounds
  · exact fun hbounds => ⟨start, stop, rfl, rfl, hbounds⟩

/-- Ranges that lead on from where others lead to do so together with them. -/
theorem Spans.append {start middle stop : Int64} {first second : List TokenRange}
    (hfirst : Spans start first middle) (hsecond : Spans middle second stop) :
    Spans start (first ++ second) stop := by
  induction hfirst with
  | nil => exact hsecond
  | cons hrange hlt _ ih => exact .cons hrange hlt (ih hsecond)

/-- Ranges do not lead back. -/
theorem Spans.le {start stop : Int64} {ranges : List TokenRange} (h : Spans start ranges stop) :
    start ≤ stop := by
  induction h with
  | nil => exact Int64.le_refl _
  | cons _ hlt _ ih => exact Int64.le_trans (Int64.le_of_lt hlt) ih

/-- Ranges from one token to another contain no token outside. -/
theorem Spans.bounds_of_contains {start stop : Int64} {ranges : List TokenRange}
    (h : Spans start ranges stop) {range : TokenRange} (hmem : range ∈ ranges) {token : Int64}
    (htoken : range.Contains token) : start ≤ token ∧ token < stop := by
  induction h with
  | nil => cases hmem
  | cons hrange hlt hrest ih =>
    rcases List.mem_cons.mp hmem with rfl | hmem
    · obtain ⟨hstart, hnext⟩ := (hrange.contains_iff token).mp htoken
      exact ⟨hstart, Int64.lt_of_lt_of_le hnext hrest.le⟩
    · obtain ⟨hnext, hstop⟩ := ih hmem
      exact ⟨Int64.le_trans (Int64.le_of_lt hlt) hnext, hstop⟩

/-- Of ranges from one token to another exactly one contains a token in between. -/
theorem Spans.existsUnique_contains {start stop : Int64} {ranges : List TokenRange}
    (h : Spans start ranges stop) {token : Int64} (hstart : start ≤ token) (hstop : token < stop) :
    ∃! position : Nat, ∃ range : TokenRange,
      ranges[position]? = some range ∧ range.Contains token := by
  induction h with
  | nil => exact absurd hstop (Int64.not_lt.mpr hstart)
  | @cons start next stop range rest hrange _ hrest ih =>
    have hfirst := hrange.contains_iff token
    by_cases hnext : token < next
    · refine ⟨0, ⟨range, rfl, hfirst.mpr ⟨hstart, hnext⟩⟩, ?_⟩
      rintro (_ | position) ⟨other, hother, hcontains⟩
      · rfl
      · -- The ranges behind the first one begin where it stops.
        have hmem : other ∈ rest := List.mem_of_getElem? hother
        exact absurd hnext (Int64.not_lt.mpr (hrest.bounds_of_contains hmem hcontains).1)
    · obtain ⟨position, hposition, hunique⟩ := ih (Int64.not_lt.mp hnext) hstop
      refine ⟨position + 1, hposition, ?_⟩
      rintro (_ | other) ⟨found, hfound, hcontains⟩
      · cases hfound
        exact absurd (hfirst.mp hcontains).2 hnext
      · exact congrArg (· + 1) (hunique other ⟨found, hfound, hcontains⟩)

/-- The whole splits of a size that are needed for some bytes are counted by rounding up. -/
theorem ceil_div_eq {size : Nat} (h : 0 < size) (bytes : Nat) :
    ⌈(bytes / size : ℚ)⌉₊ = (bytes + size - 1) / size := by
  refine eq_of_forall_ge_iff fun count => ?_
  have hsize : (0 : ℚ) < size := Nat.cast_pos.mpr h
  rw [Nat.ceil_le, div_le_iff₀ hsize, ← Nat.cast_mul, Nat.cast_le,
    Nat.div_le_iff_le_mul_add_pred h, Nat.mul_comm]
  omega

/-- The count of splits goes up to the whole ones that are needed, and is at least one. -/
theorem splitCount_eq {size : Nat} (h : 0 < size) (bytes : Nat) :
    splitCount bytes size = max 1 ⌈(bytes / size : ℚ)⌉₊ := by
  rw [splitCount, ceil_div_eq h]

/-- A split is refused for the size zero and if there are too many ranges. -/
theorem exists_split_error_iff {bytes size : Nat} :
    (∃ e, split bytes size = .error e) ↔ size = 0 ∨ maxCount < splitCount bytes size := by
  rw [split]
  split
  · rename_i hzero
    exact iff_of_true ⟨_, rfl⟩ (.inl hzero)
  · rename_i hpositive
    dsimp only
    split
    · rename_i htoo
      exact iff_of_true ⟨_, rfl⟩ (.inr htoo)
    · rename_i hfew
      exact iff_of_false (by simp) (not_or.mpr ⟨hpositive, hfew⟩)

/-- Up to the largest number of ranges each of them is wide enough for a token. -/
theorem width_pos {count : Nat} (hpos : 0 < count) (hcount : count ≤ maxCount) :
    0 < width count := by
  have hring : (maxCount : Int) ≤ maxToken - minToken := by decide
  have hone : 1 ≤ width count := by
    rw [width, Int.le_ediv_iff_mul_le (by omega)]
    omega
  omega

/-- A width counted from any start is not beyond the end of the ring. -/
theorem startOf_add_width_le {count position : Nat} (h : position < count) :
    startOf count position + width count ≤ maxToken := by
  have hall := count_mul_width_le count
  have hnext : ((position + 1 : Nat) : Int) * width count ≤ count * width count :=
    Int.mul_le_mul_of_nonneg_right (by omega) (width_nonneg count)
  rw [Int.natCast_add, Int.add_mul] at hnext
  rw [startOf]
  omega

/-- Every range but the last has the same width. -/
theorem cut_succ_sub_cut {count position : Nat} (h : position + 1 < count) :
    cut count (position + 1) - cut count position = width count := by
  rw [← stopOf_eq_cut, stopOf, if_neg (by omega), ← startOf_eq_cut (by omega)]
  omega

/-- The last range takes what the division leaves over, which is less than the number of ranges. -/
theorem cut_last_sub_cut {count position : Nat} (h : position + 1 = count) :
    width count ≤ cut count (position + 1) - cut count position ∧
      cut count (position + 1) - cut count position < width count + count := by
  have hinside : position < count := by omega
  have hle := startOf_add_width_le hinside
  have hrest : (maxToken - minToken) % count < count := Int.emod_lt_of_pos _ (by omega)
  have hdivision := Int.mul_ediv_add_emod (maxToken - minToken) count
  have hall : (count : Int) * width count = position * width count + width count := by
    rw [← h, Int.natCast_add, Int.add_mul, Int.natCast_one, Int.one_mul]
  rw [← stopOf_eq_cut, stopOf, if_pos h, ← startOf_eq_cut hinside]
  refine ⟨by omega, ?_⟩
  rw [startOf]
  change (count : Int) * width count + _ = _ at hdivision
  omega

/-- The cut as a word. -/
def cutWord (count position : Nat) : Int64 :=
  Int64.ofInt (cut count position)

/-- The cuts fit their words. -/
theorem toInt_cutWord {count position : Nat} (h : position ≤ count) :
    (cutWord count position).toInt = cut count position := by
  obtain ⟨hmin, hmax⟩ := cut_mem count h
  have hbound : maxToken < 2 ^ 63 := by decide
  exact Int64.toInt_ofInt_of_le hmin (by omega)

/-- The range between two cuts is written with them. -/
theorem reaches_between (bytes : Nat) {count position : Nat} (h : position < count) :
    (between bytes count position).Reaches (cutWord count position)
      (cutWord count (position + 1)) where
  start_eq := by rw [toInt_cutWord (by omega), between]
  stop_eq := by rw [toInt_cutWord (by omega), between]

/-- The cuts increase. -/
theorem cutWord_lt_succ {count position : Nat} (h : position < count) (hcount : count ≤ maxCount) :
    cutWord count position < cutWord count (position + 1) := by
  rw [Int64.lt_iff_toInt_lt, toInt_cutWord (by omega), toInt_cutWord (by omega)]
  have hwidth := width_pos (by omega) hcount
  rcases Nat.lt_or_eq_of_le (Nat.succ_le_of_lt h) with hinner | hlast
  · have hsub := cut_succ_sub_cut hinner
    omega
  · have hsub := (cut_last_sub_cut hlast).1
    omega

/-- The ranges between the first cuts lead from the first of them to the last. -/
theorem spans_between (bytes : Nat) {count : Nat} (hcount : count ≤ maxCount) {number : Nat}
    (h : number ≤ count) :
    Spans (cutWord count 0) ((List.range number).map (between bytes count))
      (cutWord count number) := by
  induction number with
  | zero => exact .nil _
  | succ number ih =>
    rw [List.range_succ, List.map_append, List.map_singleton]
    exact (ih (by omega)).append
      (.cons (reaches_between bytes (by omega)) (cutWord_lt_succ (by omega) hcount) (.nil _))

/-- A range is written with no other tokens. -/
theorem Reaches.unique {range : TokenRange} {start stop start' stop' : Int64}
    (h : range.Reaches start stop) (h' : range.Reaches start' stop') :
    start' = start ∧ stop' = stop := by
  have hread : ∀ {token token' : Int64}, toString token'.toInt = toString token.toInt →
      token' = token := by
    intro token token' heq
    have hboth := congrArg Text.wordLiteral? heq
    rwa [wordLiteral?_toInt, wordLiteral?_toInt, Option.some.injEq] at hboth
  exact ⟨hread (h'.start_eq.symm.trans h.start_eq), hread (h'.stop_eq.symm.trans h.stop_eq)⟩

/-- How the ranges of a split divide the ring. -/
structure DividesRing (bytes size : Nat) (ranges : List TokenRange) : Prop where
  /-- There are as many ranges as splits of the size are needed for the bytes, and at least one. -/
  length_eq : ranges.length = max 1 ⌈(bytes / size : ℚ)⌉₊
  /-- They lead from the smallest token to the largest word. -/
  spans : Spans Int64.minValue ranges Int64.maxValue
  /-- Every token below the largest word is in exactly one of them. -/
  covers : ∀ token, token < Int64.maxValue →
    ∃! position : Nat, ∃ range : TokenRange, ranges[position]? = some range ∧ range.Contains token
  /-- All but the last have the same width, which the last exceeds by less than their number. -/
  widths : ∃ width : Int, ∀ (position : Nat) (range : TokenRange) (start stop : Int64),
    ranges[position]? = some range → range.Reaches start stop →
    if position + 1 < ranges.length then stop.toInt - start.toInt = width
    else width ≤ stop.toInt - start.toInt ∧ stop.toInt - start.toInt < width + ranges.length
  /-- Each is held to cover the same part of the bytes, rounded down, which is no more than the
  size. -/
  lengths : ∀ range ∈ ranges, range.length ≤ size ∧ ranges.length * range.length ≤ bytes ∧
    bytes < ranges.length * (range.length + 1)

/-- The numbers that are met on the way to the range at a position. -/
def intermediates (count position : Nat) : List Int :=
  [maxToken - minToken, width count, position * width count, startOf count position,
    startOf count position + width count]

/-- The numbers on the way to a range lie in twice the words of tokens. -/
theorem intermediates_bounded {count position : Nat} (h : position < count) :
    ∀ n ∈ intermediates count position, -2 ^ 127 ≤ n ∧ n < 2 ^ 127 := by
  have hring : maxToken - minToken < 2 ^ 64 := by decide
  have hmin : minToken = -2 ^ 63 := by decide
  have hmax : maxToken < 2 ^ 63 := by decide
  have hwidth := width_nonneg count
  have hnext := startOf_add_width_le h
  have hoffset : 0 ≤ (position : Int) * width count :=
    Int.mul_nonneg (Int.natCast_nonneg position) hwidth
  rw [startOf] at hnext
  simp only [intermediates, startOf, List.mem_cons, List.not_mem_nil, or_false,
    forall_eq_or_imp, forall_eq]
  omega

/-- The ranges of a split divide the ring. -/
theorem dividesRing_of_split {bytes size : Nat} {ranges : List TokenRange}
    (h : split bytes size = .ok ranges) : DividesRing bytes size ranges := by
  obtain ⟨hsize, hcount, hranges⟩ := split_eq_ok_iff.mp h
  have hsize : 0 < size := Nat.pos_of_ne_zero hsize
  set count := splitCount bytes size with hcounted
  have hpos : 0 < count := splitCount_pos bytes size
  have hlength : ranges.length = count := by rw [hranges, List.length_map, List.length_range]
  have hspans : Spans Int64.minValue ranges Int64.maxValue := by
    have hfirst : cutWord count 0 = Int64.minValue := by rw [cutWord, cut_zero hpos]; decide
    have hlast : cutWord count count = Int64.maxValue := by rw [cutWord, cut_last]; decide
    rw [hranges, ← hfirst, ← hlast]
    exact spans_between bytes hcount (Nat.le_refl count)
  refine ⟨?_, hspans, ?_, ?_, ?_⟩
  · rw [hlength, hcounted, splitCount_eq hsize]
  · intro token htoken
    exact hspans.existsUnique_contains (Int64.minValue_le token) htoken
  · refine ⟨width count, fun position range start stop hrange hreaches => ?_⟩
    rw [hranges, List.getElem?_map, Option.map_eq_some_iff] at hrange
    obtain ⟨place, hplace, rfl⟩ := hrange
    obtain ⟨hposition, rfl⟩ := List.getElem?_eq_some_iff.mp hplace
    rw [List.length_range] at hposition
    rw [List.getElem_range] at hreaches
    obtain ⟨rfl, rfl⟩ := (reaches_between bytes hposition).unique hreaches
    rw [toInt_cutWord (by omega), toInt_cutWord (by omega), hlength]
    split
    · rename_i hinner
      exact cut_succ_sub_cut hinner
    · exact cut_last_sub_cut (by omega)
  · intro range hrange
    rw [hranges] at hrange
    obtain ⟨position, -, rfl⟩ := List.mem_map.mp hrange
    change bytes / count ≤ size ∧ ranges.length * (bytes / count) ≤ bytes ∧
      bytes < ranges.length * (bytes / count + 1)
    rw [hlength]
    refine ⟨?_, Nat.mul_div_le bytes count, Nat.lt_mul_div_succ bytes hpos⟩
    have hneeded : bytes ≤ count * size := by
      have hceil : (bytes + size - 1) / size ≤ count := by
        rw [hcounted, splitCount]
        omega
      rw [Nat.div_le_iff_le_mul_add_pred hsize, Nat.mul_comm] at hceil
      omega
    exact Nat.div_le_of_le_mul hneeded

/-- The count and the numbers on the way to each range fit their words. -/
def FitsWords (count : Nat) : Prop :=
  count < UInt64.size ∧
    ∀ position < count, ∀ n ∈ intermediates count position, -2 ^ 127 ≤ n ∧ n < 2 ^ 127

/-- A split of any number of bytes by any size fails if and only if the size is zero or too many
ranges of the size are needed for the bytes. If it does not fail then its ranges divide the ring.
Nothing that is computed on the way overflows. -/
theorem split_divides_ring (bytes size : UInt64) :
    ((∃ e, split bytes.toNat size.toNat = .error e) ↔
      size = 0 ∨ maxCount < ⌈(bytes.toNat / size.toNat : ℚ)⌉₊) ∧
    (∀ ranges, split bytes.toNat size.toNat = .ok ranges →
      DividesRing bytes.toNat size.toNat ranges) ∧
    (size ≠ 0 → FitsWords (splitCount bytes.toNat size.toNat)) := by
  have hzero : size.toNat = 0 ↔ size = 0 := by
    rw [← UInt64.toNat_inj, UInt64.toNat_zero]
  refine ⟨?_, fun ranges => dividesRing_of_split, fun hsize => ⟨?_, fun position =>
    intermediates_bounded⟩⟩
  · rw [exists_split_error_iff, hzero]
    refine or_congr_right' fun hsize => ?_
    rw [splitCount_eq (Nat.pos_of_ne_zero (mt hzero.mp hsize)), lt_max_iff]
    exact or_iff_right (by decide)
  · have hpos : 0 < size.toNat := Nat.pos_of_ne_zero (mt hzero.mp hsize)
    have hbytes : bytes.toNat < UInt64.size := bytes.toNat_lt
    have hceil : (bytes.toNat + size.toNat - 1) / size.toNat ≤ bytes.toNat := by
      rw [Nat.div_le_iff_le_mul_add_pred hpos]
      have hle := Nat.le_mul_of_pos_left bytes.toNat hpos
      omega
    have hone : 1 < UInt64.size := by decide
    rw [splitCount]
    omega

/-- The largest number of bytes is split into as many ranges as there may be. -/
theorem split_divides_ring_largest :
    ∃ ranges, split (2 ^ 64 - 1) (2 ^ 48) = .ok ranges ∧ ranges.length = 65536 ∧
      DividesRing (2 ^ 64 - 1) (2 ^ 48) ranges ∧ FitsWords 65536 := by
  obtain ⟨-, hdivides, hfits⟩ :=
    split_divides_ring (UInt64.ofNat (2 ^ 64 - 1)) (UInt64.ofNat (2 ^ 48))
  have hcount : splitCount (2 ^ 64 - 1) (2 ^ 48) = 65536 := by decide
  have hsplit : split (2 ^ 64 - 1) (2 ^ 48) = .ok _ :=
    split_eq_ok_iff.mpr ⟨by decide, by decide, rfl⟩
  refine ⟨_, hsplit, ?_, hdivides _ hsplit, hcount ▸ hfits (by decide)⟩
  rw [List.length_map, List.length_range, hcount]

end WideGraph.TokenRange
