import WideGraph.Identifier

/-!
# Identifiers that were joined

Splitting an identifier gives back the parts that were joined to it, whatever characters they have.
Only no parts at all cannot be told from one empty part. The other way round, any text can be split,
but joining its parts again gives the text back only if it is canonical: redundant escapes are
dropped, and an escape with nothing behind it is doubled.
-/

namespace WideGraph.Identifier

/-- Characters are pushed in front of the first part one by one. -/
theorem foldr_pushFront (front part : List Char) (rest : List (List Char)) :
    front.foldr pushFront (part :: rest) = (front ++ part) :: rest := by
  induction front with
  | nil => rfl
  | cons c front ih => rw [List.foldr_cons, ih, pushFront, List.cons_append]

/-- A separator ends a part. -/
theorem splitChars_separator (rest : List Char) :
    splitChars (separator :: rest) = [] :: splitChars rest := by
  rw [splitChars.eq_def]
  exact if_pos rfl

/-- An escaped character is part of the text. -/
theorem splitChars_escape (c : Char) (rest : List Char) :
    splitChars (escape :: c :: rest) = pushFront c (splitChars rest) := by
  have hne : escape ≠ separator := by decide
  rw [splitChars.eq_def]
  simp [hne]

/-- Any other character is part of the text, too. -/
theorem splitChars_cons {c : Char} (h : ¬ (c = separator ∨ c = escape)) (rest : List Char) :
    splitChars (c :: rest) = pushFront c (splitChars rest) := by
  obtain ⟨hseparator, hescape⟩ := not_or.mp h
  rw [splitChars.eq_def]
  simp [hseparator, hescape]

/-- The characters of an escaped part belong to the first part of what is read. -/
theorem splitChars_escaped_append (part rest : List Char) :
    splitChars (escaped part ++ rest) = part.foldr pushFront (splitChars rest) := by
  induction part with
  | nil => rfl
  | cons c part ih =>
    rw [escaped, List.foldr_cons, ← ih]
    by_cases hspecial : c = separator ∨ c = escape
    · rw [if_pos hspecial, List.cons_append, List.cons_append, splitChars_escape]
    · rw [if_neg hspecial, List.cons_append, splitChars_cons hspecial]

/-- What was spliced is split into the same parts. -/
theorem splitChars_spliceChars (part : List Char) (parts : List (List Char)) :
    splitChars (spliceChars (part :: parts)) = part :: parts := by
  induction parts generalizing part with
  | nil =>
    rw [spliceChars, ← List.append_nil (escaped part), splitChars_escaped_append, splitChars,
      foldr_pushFront, List.append_nil]
  | cons next rest ih =>
    rw [spliceChars, splitChars_escaped_append, splitChars_separator, ih, foldr_pushFront,
      List.append_nil]

/-- Joined texts are split into the same texts. -/
theorem split_splice_cons (part : String) (parts : List String) :
    (splice (part :: parts)).split = part :: parts := by
  rw [split, splice, String.toList_ofList, List.map_cons, splitChars_spliceChars, List.map_cons,
    List.map_map, String.ofList_toList]
  simp

/-- There is always at least one part. -/
theorem splitChars_ne_nil (cs : List Char) : splitChars cs ≠ [] := by
  have hpush : ∀ c parts, pushFront c parts ≠ [] := by
    intro c parts
    cases parts <;> exact List.cons_ne_nil _ _
  induction cs using splitChars.induct with
  | case1 => exact List.cons_ne_nil _ _
  | case2 rest ih =>
    rw [splitChars_separator]
    exact List.cons_ne_nil _ _
  | case3 _ => decide
  | case4 literal rest _ ih =>
    rw [splitChars_escape]
    exact hpush literal _
  | case5 c rest hseparator hescape ih =>
    rw [splitChars_cons (not_or.mpr ⟨hseparator, hescape⟩)]
    exact hpush c _

/-- No parts are joined to the same identifier as one empty part. -/
theorem splice_nil : splice [] = splice [""] :=
  rfl

/-- Joined texts are split into the same texts, and into one empty text if there are none. -/
theorem split_splice_eq (parts : List String) :
    (splice parts).split = if parts = [] then [""] else parts := by
  cases parts with
  | nil => rw [splice_nil, split_splice_cons, if_pos rfl]
  | cons part rest => rw [split_splice_cons, if_neg (List.cons_ne_nil _ _)]

/-- Parts are read back from what they are joined to if and only if there are any. Different parts
are therefore joined to different identifiers, except that no parts and one empty part are joined to
the same. -/
theorem split_splice_iff (parts others : List String) :
    ((splice parts).split = parts ↔ parts ≠ []) ∧
    (splice parts = splice others ↔
      parts = others ∨ parts = [] ∧ others = [""] ∨ parts = [""] ∧ others = []) := by
  refine ⟨?_, fun h => ?_, ?_⟩
  · rw [split_splice_eq]
    split <;> simp_all
  · have hsplit := congrArg split h
    rw [split_splice_eq, split_splice_eq] at hsplit
    split at hsplit <;> split at hsplit <;> simp_all
  · rintro (rfl | ⟨rfl, rfl⟩ | ⟨rfl, rfl⟩)
    · rfl
    · exact splice_nil
    · exact splice_nil.symm

/-- The characters that are made literal by an escape, from left to right. An escape with nothing
behind it makes none literal. -/
def literals : List Char → List (Option Char)
  | [] => []
  | c :: rest =>
    if c = escape then
      match rest with
      | [] => [none]
      | literal :: rest => some literal :: literals rest
    else literals rest

/-- Escapes are only used where they have to be: each makes a separator or an escape literal. -/
def CanonicalChars (cs : List Char) : Prop :=
  ∀ literal ∈ literals cs, literal = some separator ∨ literal = some escape

/-- The text of an identifier has an escape only in front of a separator or of another escape. -/
def Canonical (id : Identifier) : Prop :=
  CanonicalChars id.text.toList

/-- A character that is no escape does not make anything literal. -/
theorem canonicalChars_cons {c : Char} (h : c ≠ escape) (rest : List Char) :
    CanonicalChars (c :: rest) ↔ CanonicalChars rest := by
  rw [CanonicalChars, literals.eq_def]
  simp only [if_neg h]
  rfl

/-- An escape is used where it has to be if it makes a separator or an escape literal. -/
theorem canonicalChars_escape (c : Char) (rest : List Char) :
    CanonicalChars (escape :: c :: rest) ↔ (c = separator ∨ c = escape) ∧ CanonicalChars rest := by
  rw [CanonicalChars, literals.eq_def]
  simp only [if_pos, List.forall_mem_cons, Option.some.injEq]
  rfl

/-- An escape with nothing behind it is not used where it has to be. -/
theorem not_canonicalChars_dangling : ¬ CanonicalChars [escape] := by
  intro h
  have hnone := h none (by decide)
  simp at hnone

/-- The escapes in an escaped part are used where they have to be. -/
theorem canonicalChars_escaped_append (part rest : List Char) :
    CanonicalChars (escaped part ++ rest) ↔ CanonicalChars rest := by
  induction part with
  | nil => rfl
  | cons c part ih =>
    rw [escaped]
    by_cases hspecial : c = separator ∨ c = escape
    · rw [if_pos hspecial, List.cons_append, List.cons_append, canonicalChars_escape, ih,
        and_iff_right hspecial]
    · rw [if_neg hspecial, List.cons_append, canonicalChars_cons (not_or.mp hspecial).2, ih]

/-- What parts are joined to has escapes only where they have to be. -/
theorem canonicalChars_spliceChars (parts : List (List Char)) :
    CanonicalChars (spliceChars parts) := by
  have hnil : CanonicalChars [] := List.forall_mem_nil _
  induction parts using spliceChars.induct with
  | case1 => exact hnil
  | case2 part =>
    rw [spliceChars, ← List.append_nil (escaped part), canonicalChars_escaped_append]
    exact hnil
  | case3 part next rest ih =>
    have hne : separator ≠ escape := by decide
    rw [spliceChars, canonicalChars_escaped_append, canonicalChars_cons hne]
    exact ih

/-- A character in front of the first part is joined in front of all. -/
theorem spliceChars_pushFront (c : Char) {parts : List (List Char)} (h : parts ≠ []) :
    spliceChars (pushFront c parts) = escaped [c] ++ spliceChars parts := by
  have hescaped : ∀ part, escaped (c :: part) = escaped [c] ++ escaped part := by
    intro part
    rw [escaped, escaped]
    split <;> rfl
  cases parts with
  | nil => exact absurd rfl h
  | cons part rest =>
    cases rest with
    | nil => rw [pushFront, spliceChars, spliceChars, hescaped]
    | cons next rest => rw [pushFront, spliceChars, spliceChars, hescaped, List.append_assoc]

/-- Splitting and joining again leaves a text as it is exactly if its escapes are where they have to
be. -/
theorem spliceChars_splitChars_iff (cs : List Char) :
    spliceChars (splitChars cs) = cs ↔ CanonicalChars cs := by
  induction cs using splitChars.induct with
  | case1 => exact iff_of_true rfl (List.forall_mem_nil _)
  | case2 rest ih =>
    have hne : separator ≠ escape := by decide
    have hjoined :
        spliceChars ([] :: splitChars rest) = separator :: spliceChars (splitChars rest) := by
      obtain ⟨part, parts, hparts⟩ := List.exists_cons_of_ne_nil (splitChars_ne_nil rest)
      rw [hparts]
      rfl
    rw [splitChars_separator, hjoined, canonicalChars_cons hne, ← ih, List.cons.injEq,
      and_iff_right rfl]
  | case3 _ => exact iff_of_false (by decide) not_canonicalChars_dangling
  | case4 literal rest _ ih =>
    rw [splitChars_escape, spliceChars_pushFront literal (splitChars_ne_nil rest),
      canonicalChars_escape, ← ih, escaped]
    split
    · rename_i hspecial
      simp [escaped, hspecial]
    · rename_i hplain
      -- The redundant escape is lost, so that the text begins with another character.
      exact iff_of_false (fun h => (not_or.mp hplain).2 (List.cons.inj h).1) fun h => hplain h.1
  | case5 c rest hseparator hescape ih =>
    have hplain : ¬ (c = separator ∨ c = escape) := not_or.mpr ⟨hseparator, hescape⟩
    rw [splitChars_cons hplain, spliceChars_pushFront c (splitChars_ne_nil rest),
      canonicalChars_cons hescape, ← ih, escaped, if_neg hplain]
    simp [escaped]

/-- Splitting an identifier and joining its parts again gives the identifier back if and only if it
has an escape only in front of a separator or of another escape. In any case the parts are joined to
an identifier of this form, which is split into the same parts. -/
theorem splice_split_iff (id : Identifier) :
    (splice id.split = id ↔ id.Canonical) ∧ (splice id.split).Canonical ∧
      (splice id.split).split = id.split := by
  have htext : (splice id.split).text.toList = spliceChars (splitChars id.text.toList) := by
    rw [splice, split, String.toList_ofList, List.map_map]
    simp
  refine ⟨?_, ?_, ?_⟩
  · rw [Canonical, ← spliceChars_splitChars_iff, ← htext, String.toList_inj]
    cases id
    exact ⟨fun h => congrArg text h, fun h => congrArg Identifier.mk h⟩
  · rw [Canonical, htext]
    exact canonicalChars_spliceChars _
  · rw [split_splice_eq, if_neg]
    rw [split, List.map_eq_nil_iff]
    exact splitChars_ne_nil _

-- The redundant escape is dropped, and the one with nothing behind it is doubled.
example : splice (split ⟨"a\x60b:\x60"⟩) = ⟨"ab:\x60\x60"⟩ := by decide

end WideGraph.Identifier
