import WideGraph.Proofs.Fallible

/-!
# The first fault of several

Where several things are checked in turn the first one that has a fault is reported, whatever is
wrong with those behind it.
-/

namespace WideGraph

variable {ε α β : Type}

/-- A fault is that of the first of several items that has any. -/
inductive FirstFault (fault : α → ε → Prop) : List α → ε → Prop where
  | here {a : α} {rest : List α} {e : ε} (h : fault a e) : FirstFault fault (a :: rest) e
  | behind {a : α} {rest : List α} {e : ε} (hsound : ∀ e, ¬ fault a e)
      (h : FirstFault fault rest e) : FirstFault fault (a :: rest) e

namespace FirstFault

variable {fault : α → ε → Prop} {a : α} {items others : List α} {e : ε}

/-- No items have no first fault. -/
@[simp]
theorem not_nil : ¬ FirstFault fault [] e := nofun

/-- The first fault is that of the first item, or that of the rest if the first item has none. -/
theorem cons_iff :
    FirstFault fault (a :: items) e ↔
      fault a e ∨ (∀ e, ¬ fault a e) ∧ FirstFault fault items e := by
  constructor
  · intro h
    cases h with
    | here h => exact .inl h
    | behind hsound h => exact .inr ⟨hsound, h⟩
  · rintro (h | ⟨hsound, h⟩)
    · exact .here h
    · exact .behind hsound h

/-- The fault of a single item is the first one. -/
theorem singleton_iff : FirstFault fault [a] e ↔ fault a e := by
  simp [cons_iff]

/-- The first fault is among the first items, or among the others if the first have none. -/
theorem append_iff : FirstFault fault (items ++ others) e ↔
    FirstFault fault items e ∨ (∀ a ∈ items, ∀ e, ¬ fault a e) ∧ FirstFault fault others e := by
  induction items with
  | nil => simp
  | cons a rest ih =>
    rw [List.cons_append, cons_iff, cons_iff, ih, List.forall_mem_cons]
    tauto

/-- The first fault is one of an item. -/
theorem exists_mem (h : FirstFault fault items e) : ∃ a ∈ items, fault a e := by
  induction h with
  | here h => exact ⟨_, List.mem_cons_self, h⟩
  | behind _ _ ih =>
    obtain ⟨a, hmem, ha⟩ := ih
    exact ⟨a, List.mem_cons_of_mem _ hmem, ha⟩

/-- There is only one first fault if no item has several. -/
theorem unique (hfault : ∀ a e e', fault a e → fault a e' → e = e') {e' : ε}
    (h : FirstFault fault items e) (h' : FirstFault fault items e') : e = e' := by
  induction h with
  | here h =>
    cases h' with
    | here h' => exact hfault _ _ _ h h'
    | behind hsound _ => exact absurd h (hsound _)
  | behind hsound _ ih =>
    cases h' with
    | here h' => exact absurd h' (hsound _)
    | behind _ h' => exact ih h'

/-- There is a first fault if there is any. -/
theorem exists_iff : (∃ e, FirstFault fault items e) ↔ ∃ a ∈ items, ∃ e, fault a e := by
  constructor
  · rintro ⟨e, h⟩
    obtain ⟨a, hmem, ha⟩ := h.exists_mem
    exact ⟨a, hmem, e, ha⟩
  · induction items with
    | nil => simp
    | cons a rest ih =>
      rintro ⟨b, hmem, e, hb⟩
      by_cases ha : ∃ e, fault a e
      · obtain ⟨e, ha⟩ := ha
        exact ⟨e, .here ha⟩
      · rcases List.mem_cons.mp hmem with rfl | hmem
        · exact absurd ⟨e, hb⟩ ha
        · obtain ⟨e, h⟩ := ih ⟨b, hmem, e, hb⟩
          exact ⟨e, .behind (not_exists.mp ha) h⟩

/-- There is no first fault if there is none at all. -/
theorem forall_not_iff : (∀ e, ¬ FirstFault fault items e) ↔ ∀ a ∈ items, ∀ e, ¬ fault a e := by
  rw [← not_exists, exists_iff]
  push Not
  exact Iff.rfl

end FirstFault

/-- Something fallible done for each item fails with the first failure. -/
theorem mapExcept_eq_error_iff {f : α → Except ε β} {as : List α} {e : ε} :
    mapExcept f as = .error e ↔ FirstFault (fun a e => f a = .error e) as e := by
  induction as with
  | nil => simp [mapExcept]
  | cons a rest ih =>
    rw [mapExcept, FirstFault.cons_iff]
    cases hfirst : f a with
    | error e' => simp
    | ok b => simp [map_error_iff, ih]

/-- Of checks that are made in turn the first that does not pass is reported. The first check passes
if it has a result, with which the later ones are made. -/
theorem bind_error_iff_firstFault {first : Except ε α} {next : α → Except ε β} {check : ε → Prop}
    {later : List (ε → Prop)} {e : ε} (hfirst : ∀ e, first = .error e ↔ check e)
    (hnext : ∀ a, first = .ok a → (next a = .error e ↔ FirstFault id later e)) :
    first >>= next = .error e ↔ FirstFault id (check :: later) e := by
  rw [bind_error_iff, FirstFault.cons_iff, id, ← hfirst]
  cases first with
  | error e' => simp [← hfirst]
  | ok a => simp [← hfirst, hnext a rfl]

end WideGraph
