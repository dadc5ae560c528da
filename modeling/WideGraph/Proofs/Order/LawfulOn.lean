import WideGraph.Bindings

/-!
# Comparisons that are lawful on some keys

Not every comparison is an order of its whole type: the one of values takes a whole number for the
decimal nearest to it. It is an order of the values that tables keep. The laws of bindings are
stated here for a comparison that is only known to be an order of the keys at hand.
-/

namespace WideGraph

variable {κ α : Type}

/-- On the keys with a property the comparison is a total order, in which equal keys are identical. -/
structure LawfulOn (order : κ → κ → Ordering) (p : κ → Prop) : Prop where
  eq_iff : ∀ a b, p a → p b → (order a b = .eq ↔ a = b)
  swap : ∀ a b, p a → p b → (order a b).swap = order b a
  lt_trans : ∀ a b c, p a → p b → p c → order a b = .lt → order b c = .lt → order a c = .lt

namespace LawfulOn

variable {order : κ → κ → Ordering} {p : κ → Prop}

/-- A comparison that is lawful everywhere is lawful on any keys. -/
theorem of_lawful [Std.TransCmp order] [Std.LawfulEqCmp order] : LawfulOn order p where
  eq_iff _ _ _ _ := Std.LawfulEqCmp.compare_eq_iff_eq
  swap _ _ _ _ := Std.OrientedCmp.eq_swap.symm
  lt_trans _ _ _ _ _ _ := Std.TransCmp.lt_trans

/-- A key is equal to itself. -/
theorem self (law : LawfulOn order p) {a : κ} (ha : p a) : order a a = .eq :=
  (law.eq_iff a a ha ha).mpr rfl

/-- What comes before comes before, whichever way it is asked. -/
theorem gt_iff (law : LawfulOn order p) {a b : κ} (ha : p a) (hb : p b) :
    order a b = .gt ↔ order b a = .lt := by
  rw [← law.swap a b ha hb]
  cases order a b <;> decide

/-- No key comes before itself. -/
theorem ne_of_lt (law : LawfulOn order p) {a b : κ} (ha : p a) (h : order a b = .lt) : a ≠ b := by
  rintro rfl
  simp [law.self ha] at h

/-- Keys compared first by one part and then by another, which together fix the key. -/
theorem lex {β γ : Type} {o₁ : β → β → Ordering} {o₂ : γ → γ → Ordering} {p₁ : β → Prop}
    {p₂ : γ → Prop} (law₁ : LawfulOn o₁ p₁) (law₂ : LawfulOn o₂ p₂) (f : κ → β) (g : κ → γ)
    (hf : ∀ a, p a → p₁ (f a)) (hg : ∀ a, p a → p₂ (g a))
    (hinj : ∀ a b, f a = f b → g a = g b → a = b) :
    LawfulOn (fun a b => (o₁ (f a) (f b)).then (o₂ (g a) (g b))) p where
  eq_iff a b ha hb := by
    rw [Ordering.then_eq_eq, law₁.eq_iff _ _ (hf a ha) (hf b hb),
      law₂.eq_iff _ _ (hg a ha) (hg b hb)]
    exact ⟨fun h => hinj a b h.1 h.2, fun h => by subst h; exact ⟨rfl, rfl⟩⟩
  swap a b ha hb := by
    rw [Ordering.swap_then, law₁.swap _ _ (hf a ha) (hf b hb), law₂.swap _ _ (hg a ha) (hg b hb)]
  lt_trans a b c ha hb hc hab hbc := by
    rw [Ordering.then_eq_lt] at hab hbc ⊢
    rcases hab with hab | ⟨heq, hab⟩
    · rcases hbc with hbc | ⟨heq, -⟩
      · exact .inl (law₁.lt_trans _ _ _ (hf a ha) (hf b hb) (hf c hc) hab hbc)
      · rw [law₁.eq_iff _ _ (hf b hb) (hf c hc)] at heq
        exact .inl (heq ▸ hab)
    · rw [law₁.eq_iff _ _ (hf a ha) (hf b hb)] at heq
      rw [heq]
      rcases hbc with hbc | ⟨heq', hbc⟩
      · exact .inl hbc
      · exact .inr ⟨heq', law₂.lt_trans _ _ _ (hg a ha) (hg b hb) (hg c hc) hab hbc⟩

end LawfulOn

namespace Bindings

variable [Ord κ] {p : κ → Prop}

/-- The keys of some bindings have a property. -/
def KeysSatisfy (p : κ → Prop) (bindings : List (κ × α)) : Prop :=
  ∀ b ∈ bindings, p b.1

/-- In increasing bindings the pairs are what is found under their keys. -/
theorem find?_eq_some_iff_mem (law : LawfulOn compare p) {bindings : List (κ × α)}
    (hinc : Increasing bindings) (hkeys : KeysSatisfy p bindings) {k : κ} (hk : p k) (a : α) :
    find? k bindings = some a ↔ (k, a) ∈ bindings := by
  induction bindings with
  | nil => simp [find?]
  | cons head rest ih =>
    obtain ⟨k', a'⟩ := head
    have hk' : p k' := hkeys (k', a') (by simp)
    have hrest := ih (List.Pairwise.of_cons hinc) fun b hb => hkeys b (by simp [hb])
    rw [find?]
    by_cases heq : k = k'
    · subst heq
      have hnot : (k, a) ∉ rest := fun hm =>
        law.ne_of_lt hk (List.rel_of_pairwise_cons hinc hm) rfl
      simp [law.self hk, hnot, eq_comm]
    · have hne : compare k k' ≠ .eq := fun h => heq ((law.eq_iff k k' hk hk').mp h)
      simp [hne, heq, hrest]

/-- After an insertion the inserted pair is there, and every pair with another key that was. -/
theorem mem_insert_iff (law : LawfulOn compare p) {bindings : List (κ × α)}
    (hinc : Increasing bindings) (hkeys : KeysSatisfy p bindings) {k : κ} (hk : p k) (a : α)
    (b : κ × α) : b ∈ insert k a bindings ↔ b = (k, a) ∨ b ∈ bindings ∧ b.1 ≠ k := by
  induction bindings with
  | nil => simp [insert]
  | cons head rest ih =>
    obtain ⟨k', a'⟩ := head
    have hk' : p k' := hkeys (k', a') (by simp)
    have hafter : ∀ c ∈ rest, c.1 ≠ k' := fun c hc heq => by
      have hlt := List.rel_of_pairwise_cons hinc hc
      exact law.ne_of_lt hk' hlt heq.symm
    have hrest := ih (List.Pairwise.of_cons hinc) fun c hc => hkeys c (by simp [hc])
    rw [insert]
    cases hcmp : compare k k' with
    | lt =>
      -- The new key is the smallest, so that no pair is replaced.
      have hall : ∀ c ∈ (k', a') :: rest, c.1 ≠ k := by
        intro c hc
        rcases List.mem_cons.mp hc with rfl | hc
        · exact (law.ne_of_lt hk hcmp).symm
        · exact (law.ne_of_lt hk (law.lt_trans k k' c.1 hk hk' (hkeys c (by simp [hc])) hcmp
            (List.rel_of_pairwise_cons hinc hc))).symm
      rw [List.mem_cons]
      exact or_congr_right ⟨fun h => ⟨h, hall b h⟩, fun h => h.1⟩
    | eq =>
      have heq : k = k' := (law.eq_iff k k' hk hk').mp hcmp
      subst heq
      simp only [List.mem_cons]
      constructor
      · rintro (rfl | hb)
        · exact .inl rfl
        · exact .inr ⟨.inr hb, hafter b hb⟩
      · rintro (rfl | ⟨rfl | hb, hne⟩)
        · exact .inl rfl
        · exact absurd rfl hne
        · exact .inr hb
    | gt =>
      have hne : k' ≠ k := law.ne_of_lt hk' ((law.gt_iff hk hk').mp hcmp)
      simp only [List.mem_cons, hrest]
      constructor
      · rintro (rfl | rfl | ⟨hb, hbk⟩)
        · exact .inr ⟨.inl rfl, hne⟩
        · exact .inl rfl
        · exact .inr ⟨.inr hb, hbk⟩
      · rintro (rfl | ⟨rfl | hb, hbk⟩)
        · exact .inr (.inl rfl)
        · exact .inl rfl
        · exact .inr (.inr ⟨hb, hbk⟩)

/-- After an erasure every pair with another key is there. -/
theorem mem_erase_iff (law : LawfulOn compare p) {bindings : List (κ × α)}
    (hkeys : KeysSatisfy p bindings) {k : κ} (hk : p k) (b : κ × α) :
    b ∈ erase k bindings ↔ b ∈ bindings ∧ b.1 ≠ k := by
  rw [erase, List.mem_filter]
  refine and_congr_right fun hb => ?_
  rw [bne_iff_ne, ne_eq, law.eq_iff k b.1 hk (hkeys b hb), eq_comm]

/-- Insertion keeps the keys increasing. -/
theorem increasing_insert_of_lawfulOn (law : LawfulOn compare p) {bindings : List (κ × α)}
    (hinc : Increasing bindings) (hkeys : KeysSatisfy p bindings) {k : κ} (hk : p k) (a : α) :
    Increasing (insert k a bindings) := by
  induction bindings with
  | nil => simp [Increasing, insert]
  | cons head rest ih =>
    obtain ⟨k', a'⟩ := head
    have hk' : p k' := hkeys (k', a') (by simp)
    have hkeys' : KeysSatisfy p rest := fun c hc => hkeys c (by simp [hc])
    have hinc' : Increasing rest := List.Pairwise.of_cons hinc
    have hhead : ∀ c ∈ rest, compare k' c.1 = .lt := fun c hc => List.rel_of_pairwise_cons hinc hc
    rw [insert]
    cases hcmp : compare k k' with
    | lt =>
      refine List.Pairwise.cons ?_ hinc
      intro c hc
      rcases List.mem_cons.mp hc with rfl | hc
      · exact hcmp
      · exact law.lt_trans k k' c.1 hk hk' (hkeys' c hc) hcmp (hhead c hc)
    | eq => exact List.Pairwise.cons hhead hinc'
    | gt =>
      refine List.Pairwise.cons ?_ (ih hinc' hkeys')
      intro c hc
      rcases (mem_insert_iff law hinc' hkeys' hk a c).mp hc with rfl | ⟨hc, -⟩
      · exact (law.gt_iff hk hk').mp hcmp
      · exact hhead c hc

end Bindings

end WideGraph
