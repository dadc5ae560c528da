import Mathlib.Data.List.Forall2
import WideGraph.GraphTable.Selects

/-!
# Computations that may fail

A computation that succeeded has succeeded in each of its steps. Done for every item of a list it
relates the items one by one to what came of them.
-/

namespace WideGraph

variable {ε α β : Type}

/-- Two steps succeed if the first does and the second does on what it gives. -/
theorem bind_ok_iff {first : Except ε α} {next : α → Except ε β} {b : β} :
    first >>= next = .ok b ↔ ∃ a, first = .ok a ∧ next a = .ok b := by
  cases first with
  | error e => simp [bind, Except.bind]
  | ok a => simp [bind, Except.bind]

/-- Two steps fail if the first does, or the second does on what it gives. -/
theorem bind_error_iff {first : Except ε α} {next : α → Except ε β} {e : ε} :
    first >>= next = .error e ↔ first = .error e ∨ ∃ a, first = .ok a ∧ next a = .error e := by
  cases first with
  | error e => simp [bind, Except.bind]
  | ok a => simp [bind, Except.bind]

/-- What is done to a result succeeds if there is one. -/
theorem map_ok_iff {first : Except ε α} {f : α → β} {b : β} :
    first.map f = .ok b ↔ ∃ a, first = .ok a ∧ f a = b := by
  cases first with
  | error e => simp [Except.map]
  | ok a => simp [Except.map]

/-- What is done to a result fails if there is none. -/
theorem map_error_iff {first : Except ε α} {f : α → β} {e : ε} :
    first.map f = .error e ↔ first = .error e := by
  cases first with
  | error e => simp [Except.map]
  | ok a => simp [Except.map]

/-- With its failure told in another way a computation still has its result. -/
theorem mapError_ok_iff {δ : Type} {first : Except ε α} {f : ε → δ} {a : α} :
    first.mapError f = .ok a ↔ first = .ok a := by
  cases first with
  | error e => simp [Except.mapError]
  | ok a => simp [Except.mapError]

/-- With its failure forgotten a computation still has its result. -/
theorem toOption_eq_some_iff {first : Except ε α} {a : α} :
    first.toOption = some a ↔ first = .ok a := by
  cases first with
  | error e => simp [Except.toOption]
  | ok a => simp [Except.toOption]

/-- Steps can have their failures forgotten one by one. -/
theorem toOption_bind (first : Except ε α) (next : α → Except ε β) :
    (first >>= next).toOption = first.toOption.bind fun a => (next a).toOption := by
  cases first <;> rfl

/-- What is done to a result is done to what is left of it. -/
theorem toOption_map (first : Except ε α) (f : α → β) :
    (first.map f).toOption = first.toOption.map f := by
  cases first <;> rfl

/-- A computation of whose result something is known has a result. -/
theorem exists_ok_of_map_toOption {first : Except ε α} {f : α → β} {b : β}
    (h : first.toOption.map f = some b) : ∃ a, first = .ok a ∧ f a = b := by
  obtain ⟨a, hfirst, hb⟩ := Option.map_eq_some_iff.mp h
  exact ⟨a, toOption_eq_some_iff.mp hfirst, hb⟩

/-- Something fallible done for each item succeeds if it does for every one. -/
theorem mapExcept_eq_ok_iff {f : α → Except ε β} {as : List α} {bs : List β} :
    mapExcept f as = .ok bs ↔ List.Forall₂ (fun a b => f a = .ok b) as bs := by
  induction as generalizing bs with
  | nil => cases bs <;> simp [mapExcept]
  | cons a rest ih =>
    rw [mapExcept, List.forall₂_cons_left_iff]
    cases hfirst : f a with
    | error e => simp
    | ok b =>
      rw [map_ok_iff]
      simp only [ih, Except.ok.injEq, exists_and_left, exists_eq_left', @eq_comm _ bs]

/-- Something fallible done for each item has a result if it has one for every item. -/
theorem exists_mapExcept_iff {f : α → Except ε β} {as : List α} :
    (∃ bs, mapExcept f as = .ok bs) ↔ ∀ a ∈ as, ∃ b, f a = .ok b := by
  induction as with
  | nil => simp [mapExcept]
  | cons a rest ih =>
    rw [List.forall_mem_cons, ← ih]
    simp only [mapExcept_eq_ok_iff, List.forall₂_cons_left_iff]
    constructor
    · rintro ⟨_, b, bs, hb, hbs, rfl⟩
      exact ⟨⟨b, hb⟩, bs, hbs⟩
    · rintro ⟨⟨b, hb⟩, bs, hbs⟩
      exact ⟨b :: bs, b, bs, hb, hbs, rfl⟩

/-- What is done for each item is only that. -/
theorem mapExcept_congr {f g : α → Except ε β} {as : List α} (h : ∀ a ∈ as, f a = g a) :
    mapExcept f as = mapExcept g as := by
  induction as with
  | nil => rfl
  | cons a rest ih =>
    obtain ⟨hfirst, hrest⟩ := List.forall_mem_cons.mp h
    rw [mapExcept, mapExcept, hfirst, ih hrest]

/-- Something fallible is done for the items behind others if it succeeds for those ahead. -/
theorem mapExcept_append (f : α → Except ε β) (as others : List α) :
    mapExcept f (as ++ others) =
      match mapExcept f as with
      | .error e => .error e
      | .ok bs => (mapExcept f others).map (bs ++ ·) := by
  induction as with
  | nil => cases h : mapExcept f others <;> simp [mapExcept, h, Except.map]
  | cons a rest ih =>
    rw [List.cons_append, mapExcept, mapExcept, ih]
    cases f a with
    | error e => rfl
    | ok b => cases mapExcept f rest <;> cases mapExcept f others <;> rfl

/-- What stands on the right of a relation between lists is related to something on the left. -/
theorem exists_mem_of_forall₂ {r : α → β → Prop} {as : List α} {bs : List β}
    (h : List.Forall₂ r as bs) {b : β} (hb : b ∈ bs) : ∃ a ∈ as, r a b := by
  induction h with
  | nil => cases hb
  | cons hfirst _ ih =>
    rcases List.mem_cons.mp hb with rfl | hb
    · exact ⟨_, List.mem_cons_self, hfirst⟩
    · obtain ⟨a, ha, hab⟩ := ih hb
      exact ⟨a, List.mem_cons_of_mem _ ha, hab⟩

/-- What stands on the right of a relation between lists is made of other items if each of it is. -/
theorem exists_map_of_forall₂ {γ : Type} {f : γ → β} {r : α → γ → Prop} {as : List α} {bs : List β}
    (h : List.Forall₂ (fun a b => ∃ c, b = f c ∧ r a c) as bs) :
    ∃ cs, bs = cs.map f ∧ List.Forall₂ r as cs := by
  induction h with
  | nil => exact ⟨[], rfl, .nil⟩
  | cons hfirst _ ih =>
    obtain ⟨c, rfl, hc⟩ := hfirst
    obtain ⟨cs, rfl, hcs⟩ := ih
    exact ⟨c :: cs, rfl, .cons hc hcs⟩

/-- What is related to one list stands in the same places as what is related to it otherwise. -/
theorem forall₂_join {γ : Type} {r : α → β → Prop} {s : α → γ → Prop} {t : β → γ → Prop}
    {as : List α} {bs : List β} {cs : List γ} (hr : List.Forall₂ r as bs)
    (hs : List.Forall₂ s as cs) (hjoin : ∀ a b c, r a b → s a c → t b c) :
    List.Forall₂ t bs cs := by
  induction hr generalizing cs with
  | nil =>
    cases hs
    exact .nil
  | cons hfirst _ ih =>
    cases hs with
    | cons hfirst' hrest => exact .cons (hjoin _ _ _ hfirst hfirst') (ih hrest)

end WideGraph
