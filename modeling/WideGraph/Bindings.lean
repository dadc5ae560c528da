/-!
# Lists of bindings in key order

Keys bound to values, kept in increasing order of the keys. Insertion replaces the value of a key
that is present, and every operation keeps the order. What an operation does is said by what is
found afterwards under each key; increasing bindings that agree in this are equal.
-/

namespace WideGraph

/-- Bindings in which later keys are larger. -/
def Increasing {κ α : Type} [Ord κ] (bindings : List (κ × α)) : Prop :=
  bindings.Pairwise fun a b => compare a.1 b.1 = .lt

namespace Bindings

variable {κ α : Type} [Ord κ]

/-- The value bound to a key. -/
def find? (k : κ) : List (κ × α) → Option α
  | [] => none
  | (k', a) :: rest => if compare k k' = .eq then some a else find? k rest

/-- Bind a key, replacing the value it had. -/
def insert (k : κ) (a : α) : List (κ × α) → List (κ × α)
  | [] => [(k, a)]
  | (k', a') :: rest =>
    match compare k k' with
    | .lt => (k, a) :: (k', a') :: rest
    | .eq => (k', a) :: rest
    | .gt => (k', a') :: insert k a rest

/-- Remove a key and its value. -/
def erase (k : κ) (bindings : List (κ × α)) : List (κ × α) :=
  bindings.filter fun b => compare k b.1 != .eq

/-- Bind a key unless it is bound already. -/
def insertNew (k : κ) (a : α) (bindings : List (κ × α)) : List (κ × α) :=
  if (find? k bindings).isSome then bindings else insert k a bindings

/-- Bind the pairs one after the other, so that of equal keys the last value stays. -/
def insertAll (pairs : List (κ × α)) (bindings : List (κ × α)) : List (κ × α) :=
  pairs.foldl (fun acc pair => insert pair.1 pair.2 acc) bindings

/-- Bindings after an insertion are those before it and the new one. -/
theorem mem_insert {k : κ} {a : α} {bindings : List (κ × α)} {b : κ × α}
    (h : b ∈ insert k a bindings) : compare k b.1 = .eq ∨ b.1 = k ∨ b ∈ bindings := by
  induction bindings with
  | nil => simp_all [insert]
  | cons head rest ih =>
    obtain ⟨k', a'⟩ := head
    rw [insert] at h
    split at h <;> grind

/-- Insertion keeps the keys increasing. -/
theorem increasing_insert [Std.TransOrd κ] (k : κ) (a : α) {bindings : List (κ × α)}
    (h : Increasing bindings) : Increasing (insert k a bindings) := by
  induction bindings with
  | nil => simp [Increasing, insert]
  | cons head rest ih =>
    obtain ⟨k', a'⟩ := head
    have hrest : Increasing rest := List.Pairwise.of_cons h
    have hhead : ∀ b ∈ rest, compare k' b.1 = .lt := fun b hb => List.rel_of_pairwise_cons h hb
    rw [insert]
    split
    case h_1 hlt =>
      refine List.Pairwise.cons ?_ h
      intro b hb
      rcases List.mem_cons.mp hb with rfl | hb
      · exact hlt
      · exact Std.TransCmp.lt_trans hlt (hhead b hb)
    case h_2 => exact List.Pairwise.cons hhead hrest
    case h_3 hgt =>
      have hlt : compare k' k = .lt := Std.OrientedCmp.lt_of_gt hgt
      refine List.Pairwise.cons ?_ (ih hrest)
      intro b hb
      rcases mem_insert hb with heq | rfl | hb
      · exact Std.TransCmp.lt_of_lt_of_eq hlt heq
      · exact hlt
      · exact hhead b hb

/-- Keeping some of the bindings keeps the keys increasing. -/
theorem increasing_filter (p : κ × α → Bool) {bindings : List (κ × α)} (h : Increasing bindings) :
    Increasing (bindings.filter p) :=
  List.Pairwise.filter p h

/-- Binding several pairs keeps the keys increasing. -/
theorem increasing_insertAll [Std.TransOrd κ] (pairs : List (κ × α)) {bindings : List (κ × α)}
    (h : Increasing bindings) : Increasing (insertAll pairs bindings) := by
  induction pairs generalizing bindings with
  | nil => exact h
  | cons pair rest ih => exact ih (increasing_insert pair.1 pair.2 h)

/-- After an insertion the inserted key has the new value, and every other key the one it had. -/
theorem find?_insert [Std.TransOrd κ] (k : κ) (a : α) (bindings : List (κ × α)) (j : κ) :
    find? j (insert k a bindings) = if compare j k = .eq then some a else find? j bindings := by
  induction bindings with
  | nil => simp [insert, find?]
  | cons head rest ih =>
    obtain ⟨k', a'⟩ := head
    rw [insert]
    split
    case h_1 => simp [find?]
    case h_2 heq =>
      have hjk : compare j k' = .eq ↔ compare j k = .eq := by rw [Std.TransCmp.congr_right heq]
      by_cases h : compare j k = .eq <;> simp [find?, hjk, h]
    case h_3 hgt =>
      rw [find?, ih, find?]
      by_cases h : compare j k' = .eq
      · have hne : compare j k ≠ .eq := fun h' => by
          simp [Std.TransCmp.eq_trans (Std.OrientedCmp.eq_symm h') h] at hgt
        simp [h, hne]
      · simp [h]

/-- What is found in two lists is found in the first of them, or else in the second. -/
theorem find?_append (as bs : List (κ × α)) (k : κ) :
    find? k (as ++ bs) = (find? k as).or (find? k bs) := by
  induction as with
  | nil => simp [find?]
  | cons head rest ih =>
    obtain ⟨k', a⟩ := head
    by_cases h : compare k k' = .eq <;> simp [find?, h, ih]

/-- After several insertions a key has the value of the last pair that binds it. -/
theorem find?_insertAll [Std.TransOrd κ] (pairs bindings : List (κ × α)) (k : κ) :
    find? k (insertAll pairs bindings) = (find? k pairs.reverse).or (find? k bindings) := by
  induction pairs generalizing bindings with
  | nil => simp [insertAll, find?]
  | cons pair rest ih =>
    have hstep : insertAll (pair :: rest) bindings = insertAll rest (insert pair.1 pair.2 bindings) :=
      rfl
    rw [hstep, ih, find?_insert, List.reverse_cons, find?_append]
    cases find? k rest.reverse <;> by_cases h : compare k pair.1 = .eq <;> simp [find?, h]

/-- Keys that pass a test keep their values, and no other key has one. -/
theorem find?_filter (p : κ → Bool) (hp : ∀ i j, compare i j = .eq → p i = p j)
    (bindings : List (κ × α)) (j : κ) :
    find? j (bindings.filter fun b => p b.1) = if p j then find? j bindings else none := by
  induction bindings with
  | nil => simp [find?]
  | cons head rest ih =>
    obtain ⟨k, a⟩ := head
    by_cases hk : p k = true
    · rw [List.filter_cons_of_pos (by exact hk), find?, ih, find?]
      by_cases h : compare j k = .eq
      · simp [h, hp j k h, hk]
      · simp [h]
    · rw [List.filter_cons_of_neg (by exact hk), ih, find?]
      by_cases h : compare j k = .eq
      · simp [hp j k h, hk]
      · simp [h]

/-- After an erasure the erased key has no value, and every other key the one it had. -/
theorem find?_erase [Std.TransOrd κ] (k : κ) (bindings : List (κ × α)) (j : κ) :
    find? j (erase k bindings) = if compare j k = .eq then none else find? j bindings := by
  have hp : ∀ i j, compare i j = .eq → (compare k i != .eq) = (compare k j != .eq) := fun i j h => by
    rw [Std.TransCmp.congr_right h]
  have hsymm : compare j k = .eq ↔ compare k j = .eq := Std.OrientedCmp.eq_comm
  rw [erase, find?_filter (fun i => compare k i != .eq) hp]
  by_cases h : compare k j = .eq <;> simp [hsymm, h]

/-- A key is bound if it is among the keys. -/
theorem isSome_find? [Std.TransOrd κ] [Std.LawfulEqOrd κ] (k : κ) (bindings : List (κ × α)) :
    (find? k bindings).isSome ↔ k ∈ bindings.map (·.1) := by
  induction bindings with
  | nil => simp [find?]
  | cons head rest ih =>
    obtain ⟨k', a⟩ := head
    rw [find?]
    split
    · rename_i h
      simp [Std.LawfulEqCmp.eq_of_compare h]
    · rename_i h
      have hk : k ≠ k' := fun heq => h (by rw [heq]; exact Std.ReflCmp.compare_self)
      simpa [hk] using ih

/-- In increasing bindings the pairs are what is found under their keys. -/
theorem find?_eq_some_iff [Std.TransOrd κ] [Std.LawfulEqOrd κ] {bindings : List (κ × α)}
    (h : Increasing bindings) (k : κ) (a : α) : find? k bindings = some a ↔ (k, a) ∈ bindings := by
  induction bindings with
  | nil => simp [find?]
  | cons head rest ih =>
    obtain ⟨k', a'⟩ := head
    rw [find?]
    split
    · rename_i heq
      have hk : k = k' := Std.LawfulEqCmp.eq_of_compare heq
      subst hk
      have hnot : (k, a) ∉ rest := fun hm => by simpa using List.rel_of_pairwise_cons h hm
      simp [hnot, eq_comm]
    · rename_i hne
      have hk : k ≠ k' := fun heq => hne (by rw [heq]; exact Std.ReflCmp.compare_self)
      simp [hk, ih (List.Pairwise.of_cons h)]

/-- The first key of increasing bindings is not found behind its pair. -/
theorem find?_tail_eq_none [Std.TransOrd κ] [Std.LawfulEqOrd κ] {k : κ} {a : α}
    {rest : List (κ × α)} (h : Increasing ((k, a) :: rest)) : find? k rest = none := by
  cases hf : find? k rest with
  | none => rfl
  | some b =>
    have hm := (find?_eq_some_iff (List.Pairwise.of_cons h) k b).mp hf
    simpa using List.rel_of_pairwise_cons h hm

/-- Increasing bindings bind no key twice, so that it does not matter from which end they are read. -/
theorem find?_reverse [Std.TransOrd κ] [Std.LawfulEqOrd κ] {bindings : List (κ × α)}
    (h : Increasing bindings) (k : κ) : find? k bindings.reverse = find? k bindings := by
  induction bindings with
  | nil => rfl
  | cons head rest ih =>
    obtain ⟨k', a⟩ := head
    rw [List.reverse_cons, find?_append, ih (List.Pairwise.of_cons h)]
    by_cases heq : compare k k' = .eq
    · rw [Std.LawfulEqCmp.eq_of_compare heq, find?_tail_eq_none h]
      simp [find?]
    · simp [find?, heq]

/-- Increasing bindings are equal if the same is found in them under every key. -/
theorem eq_of_find? [Std.TransOrd κ] [Std.LawfulEqOrd κ] {as bs : List (κ × α)}
    (ha : Increasing as) (hb : Increasing bs) (h : ∀ k, find? k as = find? k bs) : as = bs := by
  have hmem (p : κ × α) : p ∈ as ↔ p ∈ bs := by
    rw [← find?_eq_some_iff ha, ← find?_eq_some_iff hb, h]
  induction as generalizing bs with
  | nil => exact (List.eq_nil_iff_forall_not_mem.mpr fun p hp => by simpa using (hmem p).mpr hp).symm
  | cons a as ih =>
    cases bs with
    | nil => simpa using (hmem a).mp (by simp)
    | cons b bs =>
      have hab : a = b := by
        rcases List.mem_cons.mp ((hmem a).mp (by simp)) with hab | hab
        · exact hab
        · rcases List.mem_cons.mp ((hmem b).mpr (by simp)) with hba | hba
          · exact hba.symm
          · simpa using Std.TransCmp.lt_trans (List.rel_of_pairwise_cons hb hab)
              (List.rel_of_pairwise_cons ha hba)
      subst hab
      have hrest (k : κ) : find? k as = find? k bs := by
        by_cases heq : compare k a.1 = .eq
        · rw [Std.LawfulEqCmp.eq_of_compare heq, find?_tail_eq_none ha, find?_tail_eq_none hb]
        · simpa [find?, heq] using h k
      have hmem' (p : κ × α) : p ∈ as ↔ p ∈ bs := by
        rw [← find?_eq_some_iff (List.Pairwise.of_cons ha),
          ← find?_eq_some_iff (List.Pairwise.of_cons hb), hrest]
      rw [ih (List.Pairwise.of_cons ha) (List.Pairwise.of_cons hb) hrest hmem']

end Bindings

end WideGraph
