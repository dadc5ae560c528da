import WideGraph.Proofs.Store.Representation

/-!
# Stable sorting

Sorted by a total preorder the items are in its order, and items that tie stay in the order in which
they were. If they were in some order of their own, then ties still are: this is what makes sorting
by insertion stable, and it holds for one insertion after the other.
-/

namespace WideGraph

section Sorting

variable {α β : Type} {order : α → α → Ordering}

/-- The items are sorted stably by what precedes what. -/
structure StableSort (precedes : α → α → Prop) (items sorted : List α) : Prop where
  /-- Every item is there as often as before. -/
  perm : sorted.Perm items
  /-- No item comes behind one that it precedes. -/
  ordered : sorted.Pairwise fun a b => ¬ precedes b a
  /-- Of two items neither of which precedes the other, the one that came first still does. -/
  stable : ∀ a b, [a, b].Sublist items → ¬ precedes a b → ¬ precedes b a → [a, b].Sublist sorted

/-- Items made into others are in a total preorder if the others are. -/
theorem TotalPreorderOn.comap {order : β → β → Ordering} {p : β → Prop}
    (law : TotalPreorderOn order p) {f : α → β} {q : α → Prop} (hf : ∀ a, q a → p (f a)) :
    TotalPreorderOn (fun a b => order (f a) (f b)) q :=
  .of_swap_trans (fun a b ha hb => law.swap _ _ (hf a ha) (hf b hb))
    fun a b c ha hb hc => law.trans _ _ _ (hf a ha) (hf b hb) (hf c hc)

/-- An item can be put into its place before or after the items are made into others. -/
theorem insertStable_map (order : β → β → Ordering) (f : α → β) (a : α) (items : List α) :
    insertStable order (f a) (items.map f) =
      (insertStable (fun a b => order (f a) (f b)) a items).map f := by
  induction items with
  | nil => rfl
  | cons b rest ih =>
    rw [List.map_cons, insertStable, insertStable, ih]
    split <;> rfl

/-- Items can be sorted before or after they are made into others. -/
theorem sortStable_map (order : β → β → Ordering) (f : α → β) (items : List α) :
    sortStable order (items.map f) = (sortStable (fun a b => order (f a) (f b)) items).map f := by
  induction items with
  | nil => rfl
  | cons a rest ih => rw [List.map_cons, sortStable, ih, insertStable_map, sortStable]

/-- Putting an item into its place moves no other item. -/
theorem sublist_insertStable (order : α → α → Ordering) (a : α) (items : List α) :
    items.Sublist (insertStable order a items) := by
  induction items with
  | nil => exact List.nil_sublist _
  | cons b rest ih =>
    rw [insertStable]
    split
    · exact ih.cons_cons b
    · exact List.sublist_cons_self a _

/-- An item is put in front of every one that it does not come after. -/
theorem pair_sublist_insertStable {a b : α} (h : order a b ≠ .gt) {items : List α}
    (hmem : b ∈ items) : [a, b].Sublist (insertStable order a items) := by
  induction items with
  | nil => cases hmem
  | cons c rest ih =>
    rw [insertStable]
    split
    · rename_i hgt
      rcases List.mem_cons.mp hmem with rfl | hmem
      · exact absurd hgt h
      · exact (ih hmem).cons c
    · exact (List.singleton_sublist.mpr hmem).cons_cons a

/-- Sorting swaps no two items of which the first does not come after the second. -/
theorem pair_sublist_sortStable {a b : α} (h : order a b ≠ .gt) {items : List α}
    (hpair : [a, b].Sublist items) : [a, b].Sublist (sortStable order items) := by
  induction items with
  | nil => cases hpair
  | cons c rest ih =>
    rw [sortStable]
    cases hpair with
    | cons _ hrest => exact (ih hrest).trans (sublist_insertStable order c _)
    | cons_cons _ hb =>
      have hmem : b ∈ rest := List.singleton_sublist.mp hb
      exact pair_sublist_insertStable h ((sortStable_perm order rest).mem_iff.mpr hmem)

/-- An item is put into its place among sorted items: if ties are in some order, and the item is in
this order with all others, then ties still are. -/
theorem pairwise_insertStable {p : α → Prop} (law : TotalPreorderOn order p) {r : α → α → Prop}
    {a : α} (ha : p a) {items : List α} (hitems : ∀ b ∈ items, p b) (hr : ∀ b ∈ items, r a b)
    (h : items.Pairwise fun b c => order b c = .lt ∨ order b c = .eq ∧ r b c) :
    (insertStable order a items).Pairwise fun b c => order b c = .lt ∨ order b c = .eq ∧ r b c := by
  induction items with
  | nil => exact List.pairwise_singleton _ a
  | cons b rest ih =>
    obtain ⟨hb, hrest⟩ := List.forall_mem_cons.mp hitems
    obtain ⟨-, hrrest⟩ := List.forall_mem_cons.mp hr
    obtain ⟨hhead, htail⟩ := List.pairwise_cons.mp h
    rw [insertStable]
    split
    · rename_i hgt
      refine List.Pairwise.cons (fun c hc => ?_) (ih hrest hrrest htail)
      rcases List.mem_cons.mp ((insertStable_perm order a rest).mem_iff.mp hc) with rfl | hc
      · rw [← law.swap _ _ ha hb, hgt]
        exact .inl rfl
      · exact hhead c hc
    · rename_i hle
      refine List.Pairwise.cons (fun c hc => ?_) h
      have hac : (order a c).isLE = true := by
        have hab : (order a b).isLE = true := Ordering.isLE_iff_ne_gt.mpr hle
        rcases List.mem_cons.mp hc with rfl | hc
        · exact hab
        · refine law.trans a b c ha hb (hrest c hc) hab ?_
          obtain hlt | ⟨heq, -⟩ := hhead c hc
          · rw [hlt]
            rfl
          · rw [heq]
            rfl
      exact (Ordering.isLE_iff_eq_lt_or_eq_eq.mp hac).imp_right fun heq => ⟨heq, hr c hc⟩

/-- Sorted items are in order, and those that tie are in the order that they were in. -/
theorem pairwise_sortStable {p : α → Prop} (law : TotalPreorderOn order p) {r : α → α → Prop}
    {items : List α} (hitems : ∀ a ∈ items, p a) (h : items.Pairwise r) :
    (sortStable order items).Pairwise fun a b => order a b = .lt ∨ order a b = .eq ∧ r a b := by
  induction items with
  | nil => exact List.Pairwise.nil
  | cons a rest ih =>
    obtain ⟨ha, hrest⟩ := List.forall_mem_cons.mp hitems
    obtain ⟨hhead, htail⟩ := List.pairwise_cons.mp h
    have hmem : ∀ b, b ∈ sortStable order rest ↔ b ∈ rest := fun b =>
      (sortStable_perm order rest).mem_iff
    exact pairwise_insertStable law ha (fun b hb => hrest b ((hmem b).mp hb))
      (fun b hb => hhead b ((hmem b).mp hb)) (ih hrest htail)

/-- Sorting is a stable sort. -/
theorem stableSort_sortStable {items : List α} (law : TotalPreorderOn order (· ∈ items))
    {precedes : α → α → Prop}
    (hprecedes : ∀ a ∈ items, ∀ b ∈ items, order a b = .lt ↔ precedes a b) :
    StableSort precedes items (sortStable order items) where
  perm := sortStable_perm order items
  ordered := by
    have hitems : items.Pairwise fun _ _ => True := List.pairwise_of_forall fun _ _ => trivial
    have hsorted := pairwise_sortStable law (fun _ ha => ha) hitems
    have hmem : ∀ a, a ∈ sortStable order items ↔ a ∈ items := fun a =>
      (sortStable_perm order items).mem_iff
    refine hsorted.imp_of_mem fun {a b} ha hb hab hba => ?_
    rw [hmem] at ha hb
    rw [← hprecedes b hb a ha, ← law.swap a b ha hb] at hba
    obtain hlt | ⟨heq, -⟩ := hab
    · simp [hlt] at hba
    · simp [heq] at hba
  stable a b hpair _ hba := by
    have ha : a ∈ items := hpair.subset (by simp)
    have hb : b ∈ items := hpair.subset (by simp)
    refine pair_sublist_sortStable (fun hgt => hba ?_) hpair
    rw [← hprecedes b hb a ha, ← law.swap a b ha hb, hgt]
    rfl

end Sorting

end WideGraph
