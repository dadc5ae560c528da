import WideGraph.Text.Numeral

/-!
# Words written and read back

A whole number written in decimal digits is read back as the same number, and as the same signed
64-bit word if it fits one. This is what the bounds of a token range rely on, which travel as text.
-/

namespace WideGraph.Text

/-- A digit is no blank. -/
theorem isBlank_of_isDigit {c : Char} (h : c.isDigit = true) : isBlank c = false := by
  rw [Char.isDigit, Bool.and_eq_true, decide_eq_true_eq, decide_eq_true_eq] at h
  have hlow : 48 ≤ c.toNat := UInt32.le_iff_toNat_le.mp h.1
  have hhigh : c.toNat ≤ 57 := UInt32.le_iff_toNat_le.mp h.2
  rw [Bool.eq_false_iff]
  intro hblank
  simp only [isBlank, Bool.or_eq_true, Bool.and_eq_true, decide_eq_true_eq, beq_iff_eq] at hblank
  omega

/-- A text without blanks has none to take off. -/
theorem trim_eq_self {cs : List Char} (h : ∀ c ∈ cs, isBlank c = false) : trim cs = cs := by
  have hdrop : ∀ ds : List Char, (∀ c ∈ ds, isBlank c = false) → ds.dropWhile isBlank = ds := by
    intro ds hds
    cases ds with
    | nil => rfl
    | cons d rest => simp [hds d (by simp)]
  rw [trim, hdrop cs h, hdrop cs.reverse (by simpa using h), List.reverse_reverse]

/-- A run of digits continues a number as core reads it. -/
theorem numeralFrom_eq_ofDigitChars (value : Nat) (cs : List Char) :
    numeralFrom value cs = Nat.ofDigitChars 10 cs value := by
  induction cs generalizing value with
  | nil => exact Nat.ofDigitChars_nil.symm
  | cons c rest ih =>
    rw [Nat.ofDigitChars_cons]
    exact ih _

/-- The digits of a number are read as the number. -/
theorem natural?_toDigits (n : Nat) : natural? (Nat.toDigits 10 n) = some n := by
  have hdigits : (Nat.toDigits 10 n).all Char.isDigit = true := by
    rw [List.all_eq_true]
    intro c hc
    exact Nat.isDigit_of_mem_toDigits (by decide) (by decide) hc
  rw [natural?, if_pos ⟨Nat.toDigits_ne_nil, hdigits⟩, numeralFrom_eq_ofDigitChars,
    Nat.ofDigitChars_ten_toDigits]

/-- Digits have no sign in front. -/
theorem integer?_of_digits {cs : List Char} (h : ∀ c ∈ cs, c.isDigit = true) :
    integer? cs = (natural? cs).map Int.ofNat := by
  rw [integer?.eq_def]
  split
  · exact absurd (h '-' (by simp)) (by decide)
  · exact absurd (h '+' (by simp)) (by decide)
  · cases natural? cs <;> rfl

/-- A whole number in digits is read as the number. -/
theorem integer?_repr (n : Int) : integer? n.repr.toList = some n := by
  have hdigits : ∀ m : Nat, ∀ c ∈ Nat.toDigits 10 m, c.isDigit = true := fun m c hc =>
    Nat.isDigit_of_mem_toDigits (by decide) (by decide) hc
  rw [Int.repr_eq_if]
  split
  · rename_i hsign
    rw [Nat.toList_repr, integer?_of_digits (hdigits _), natural?_toDigits]
    exact congrArg some (Int.toNat_of_nonneg hsign)
  · rename_i hsign
    have hcast : (((-n).toNat : Nat) : Int) = -n := Int.toNat_of_nonneg (by omega)
    have hlist : ("-" ++ (-n).toNat.repr).toList = '-' :: Nat.toDigits 10 (-n).toNat := by
      rw [String.toList_append, Nat.toList_repr]
      rfl
    rw [hlist, integer?, natural?_toDigits]
    change some (-(((-n).toNat : Nat) : Int)) = some n
    rw [hcast, Int.neg_neg]

/-- No character of a number in digits is a blank. -/
theorem isBlank_of_mem_repr (n : Int) {c : Char} (h : c ∈ n.repr.toList) : isBlank c = false := by
  have hdigit : ∀ m : Nat, c ∈ m.repr.toList → isBlank c = false := by
    intro m hm
    rw [Nat.toList_repr] at hm
    exact isBlank_of_isDigit (Nat.isDigit_of_mem_toDigits (by decide) (by decide) hm)
  rw [Int.repr_eq_if] at h
  split at h
  · exact hdigit _ h
  · rw [String.toList_append, List.mem_append] at h
    rcases h with h | h
    · rw [show ("-" : String).toList = ['-'] from rfl, List.mem_singleton] at h
      subst h
      decide
    · exact hdigit _ h

/-- A word in digits is read as the word. -/
theorem wordLiteral?_toString {n : Int} (hmin : Int64.minValue.toInt ≤ n)
    (hmax : n ≤ Int64.maxValue.toInt) : wordLiteral? (toString n) = some (Int64.ofInt n) := by
  rw [Int.toString_eq_repr, wordLiteral?, trim_eq_self fun c hc => isBlank_of_mem_repr n hc,
    integer?_repr, Option.bind_some, int64?, if_pos ⟨hmin, hmax⟩]

end WideGraph.Text
