import WideGraph.GraphTable.Merging
import WideGraph.Proofs.Fallible

/-!
# Gathering in parts

Rows that are gathered all at once, and rows that are gathered part by part, give the same entries
as long as no two parts have edges of one owner. Every vertex that gathering puts edges below then
comes from a single part.
-/

namespace WideGraph

/-- No edge of the first list has the owner of an edge of the second. -/
def OwnersApart (as bs : List Entry) : Prop :=
  ∀ a ∈ as, ∀ b ∈ bs, ∀ v w, a.row.find? .ownerVertex = some v →
    b.row.find? .ownerVertex = some w → v.plain ≠ w.plain

/-- No entry of the first list has the identifier of an entry of the second. -/
def IdsApart (as bs : List Entry) : Prop :=
  ∀ a ∈ as, ∀ b ∈ bs, a.row.id ≠ b.row.id

/-- After an edge was added each vertex is that of its owner or has the identifier of one that was
there. -/
theorem id_of_mem_addEdge {value : Value} {edge : EntryRow} {vertices : List Entry} {e : Entry}
    (h : e ∈ addEdge value edge vertices) :
    e.row.id = some ⟨value.plain⟩ ∨ ∃ v ∈ vertices, v.row.id = e.row.id := by
  induction vertices with
  | nil =>
    rw [addEdge, List.mem_singleton] at h
    subst h
    exact .inl rfl
  | cons vertex rest ih =>
    rw [addEdge] at h
    split at h
    · rename_i hid
      rcases List.mem_cons.mp h with rfl | h
      · exact .inl hid
      · exact .inr ⟨e, List.mem_cons_of_mem _ h, rfl⟩
    · rcases List.mem_cons.mp h with rfl | h
      · exact .inr ⟨e, List.mem_cons_self, rfl⟩
      · exact (ih h).imp_right fun ⟨v, hv, hid⟩ => ⟨v, List.mem_cons_of_mem _ hv, hid⟩

/-- An edge is added behind vertices none of which is its owner's. -/
theorem addEdge_append {value : Value} {edge : EntryRow} {before : List Entry}
    (h : ∀ v ∈ before, v.row.id ≠ some ⟨value.plain⟩) (vertices : List Entry) :
    addEdge value edge (before ++ vertices) = before ++ addEdge value edge vertices := by
  induction before with
  | nil => rfl
  | cons vertex rest ih =>
    obtain ⟨hvertex, hrest⟩ := List.forall_mem_cons.mp h
    rw [List.cons_append, addEdge, if_neg hvertex, ih hrest, List.cons_append]

/-- Edges are gathered behind vertices none of which is that of an owner. -/
theorem mergeEdges_behind {before entries : List Entry}
    (h : ∀ e ∈ entries, ∀ value, e.row.find? .ownerVertex = some value →
      ∀ v ∈ before, v.row.id ≠ some ⟨value.plain⟩) (vertices : List Entry) :
    mergeEdges (before ++ vertices) entries =
      (mergeEdges vertices entries).map fun merged => before ++ merged := by
  induction entries generalizing vertices with
  | nil => rfl
  | cons entry rest ih =>
    obtain ⟨hentry, hrest⟩ := List.forall_mem_cons.mp h
    rw [mergeEdges, mergeEdges]
    cases howner : entry.row.find? .ownerVertex with
    | none => rfl
    | some value =>
      dsimp only
      rw [addEdge_append (hentry value howner), ih hrest]

/-- Edges are gathered one after the other. -/
theorem mergeEdges_append {vertices as bs merged : List Entry} :
    mergeEdges vertices (as ++ bs) = .ok merged ↔
      ∃ middle, mergeEdges vertices as = .ok middle ∧ mergeEdges middle bs = .ok merged := by
  induction as generalizing vertices with
  | nil => simp [mergeEdges]
  | cons entry rest ih =>
    rw [List.cons_append, mergeEdges, mergeEdges]
    cases entry.row.find? .ownerVertex with
    | none => simp
    | some value => exact ih

/-- An edge is added below a vertex without taking any away. -/
theorem subRows_addEdge (value : Value) (edge : EntryRow) (vertices : List Entry) :
    ((addEdge value edge vertices).flatMap (·.subRows)).Perm
      (edge :: vertices.flatMap (·.subRows)) := by
  induction vertices with
  | nil => exact List.Perm.refl _
  | cons vertex rest ih =>
    rw [addEdge]
    split
    · rw [List.flatMap_cons, List.flatMap_cons, List.append_assoc]
      exact List.perm_middle
    · rw [List.flatMap_cons, List.flatMap_cons]
      exact (ih.append_left _).trans List.perm_middle

/-- Gathering edges puts each of them below a vertex. -/
theorem subRows_mergeEdges {vertices entries merged : List Entry}
    (h : mergeEdges vertices entries = .ok merged) :
    (merged.flatMap (·.subRows)).Perm
      (vertices.flatMap (·.subRows) ++ entries.map (·.row)) := by
  induction entries generalizing vertices with
  | nil =>
    cases h
    rw [List.map_nil, List.append_nil]
  | cons entry rest ih =>
    rw [mergeEdges] at h
    split at h
    · cases h
    · refine (ih h).trans ?_
      rw [List.map_cons]
      exact ((subRows_addEdge _ entry.row vertices).append_right _).trans List.perm_middle.symm

/-- Each gathered vertex is that of an owner or has the identifier of one that was there. -/
theorem id_of_mem_mergeEdges {vertices entries merged : List Entry}
    (h : mergeEdges vertices entries = .ok merged) {e : Entry} (he : e ∈ merged) :
    (∃ v ∈ vertices, v.row.id = e.row.id) ∨
      ∃ a ∈ entries, ∃ value, a.row.find? .ownerVertex = some value ∧
        e.row.id = some ⟨value.plain⟩ := by
  induction entries generalizing vertices with
  | nil =>
    cases h
    exact .inl ⟨e, he, rfl⟩
  | cons entry rest ih =>
    rw [mergeEdges] at h
    split at h
    · cases h
    · rename_i value howner
      rcases ih h with ⟨v, hv, hid⟩ | ⟨a, ha, w, hw, hid⟩
      · rcases id_of_mem_addEdge hv with hnew | ⟨u, hu, hold⟩
        · exact .inr ⟨entry, List.mem_cons_self, value, howner, hid ▸ hnew⟩
        · exact .inl ⟨u, hu, hold.trans hid⟩
      · exact .inr ⟨a, List.mem_cons_of_mem _ ha, w, hw, hid⟩

/-- Each vertex gathered from nothing is that of an owner. -/
theorem exists_owner_of_mem_mergeEdges {entries merged : List Entry}
    (h : mergeEdges [] entries = .ok merged) {e : Entry} (he : e ∈ merged) :
    ∃ a ∈ entries, ∃ value, a.row.find? .ownerVertex = some value ∧
      e.row.id = some ⟨value.plain⟩ := by
  rcases id_of_mem_mergeEdges h he with ⟨v, hv, -⟩ | hfound
  · cases hv
  · exact hfound

/-- Edges of different owners are gathered into vertices of different identifiers. -/
theorem idsApart_of_mergeEdges {as bs mergedAs mergedBs : List Entry} (hapart : OwnersApart as bs)
    (has : mergeEdges [] as = .ok mergedAs) (hbs : mergeEdges [] bs = .ok mergedBs) :
    IdsApart mergedAs mergedBs := by
  intro e he f hf heq
  obtain ⟨a, ha, v, hv, hid⟩ := exists_owner_of_mem_mergeEdges has he
  obtain ⟨b, hb, w, hw, hid'⟩ := exists_owner_of_mem_mergeEdges hbs hf
  rw [hid, hid', Option.some.injEq, Identifier.mk.injEq] at heq
  exact hapart a ha b hb v w hv hw heq

/-- Edges of parts without a common owner are gathered part by part. -/
theorem mergeEdges_flatten {parts : List (List Entry)} (hapart : parts.Pairwise OwnersApart)
    {entries : List Entry} (h : mergeEdges [] parts.flatten = .ok entries) :
    ∃ merged, List.Forall₂ (fun part m => mergeEdges [] part = .ok m) parts merged ∧
      entries = merged.flatten ∧ merged.Pairwise IdsApart := by
  induction parts generalizing entries with
  | nil =>
    cases h
    exact ⟨[], .nil, rfl, .nil⟩
  | cons part rest ih =>
    rw [List.flatten_cons, mergeEdges_append] at h
    obtain ⟨first, hfirst, hmore⟩ := h
    have hfar : OwnersApart part rest.flatten := by
      intro a ha b hb
      obtain ⟨other, hother, hb⟩ := List.mem_flatten.mp hb
      exact List.rel_of_pairwise_cons hapart hother a ha b hb
    have hbehind : ∀ e ∈ rest.flatten, ∀ value, e.row.find? .ownerVertex = some value →
        ∀ v ∈ first, v.row.id ≠ some ⟨value.plain⟩ := by
      intro e he value hvalue v hv heq
      obtain ⟨a, ha, w, hw, hid⟩ := exists_owner_of_mem_mergeEdges hfirst hv
      rw [hid, Option.some.injEq, Identifier.mk.injEq] at heq
      exact hfar a ha e he w value hw hvalue heq
    have hshift := mergeEdges_behind hbehind []
    rw [List.append_nil] at hshift
    rw [hshift] at hmore
    obtain ⟨later, hrest, hentries⟩ := map_ok_iff.mp hmore
    obtain ⟨merged, hmerged, rfl, hids⟩ := ih (List.Pairwise.of_cons hapart) hrest
    refine ⟨first :: merged, .cons hfirst hmerged, hentries.symm, .cons ?_ hids⟩
    intro m hm
    obtain ⟨other, hother, hotherMerged⟩ := exists_mem_of_forall₂ hmerged hm
    exact idsApart_of_mergeEdges (List.rel_of_pairwise_cons hapart hother) hfirst hotherMerged

/-- Parts are gathered by their kind as all of them together, as long as edges of one owner are in
one part. -/
theorem ElementKind.merge_flatten {kind : ElementKind} {parts : List (List Entry)}
    (hapart : kind = .edge → parts.Pairwise OwnersApart) {entries : List Entry}
    (h : kind.merge parts.flatten = .ok entries) :
    ∃ merged, List.Forall₂ (fun part m => kind.merge part = .ok m) parts merged ∧
      entries = merged.flatten ∧ (kind = .edge → merged.Pairwise IdsApart) := by
  by_cases hkind : kind = .edge
  · subst hkind
    obtain ⟨merged, hmerged, hentries, hids⟩ := mergeEdges_flatten (hapart rfl) h
    exact ⟨merged, hmerged, hentries, fun _ => hids⟩
  · obtain ⟨f, hf⟩ : ∃ f : Entry → Entry, ∀ es, kind.merge es = .ok (es.map f) := by
      cases kind with
      | vertex => exact ⟨Entry.withVertexId, fun _ => rfl⟩
      | edge => exact absurd rfl hkind
      | _ => exact ⟨id, fun es => by rw [List.map_id]; rfl⟩
    rw [hf, Except.ok.injEq] at h
    refine ⟨parts.map (List.map f), ?_, ?_, fun hedge => absurd hedge hkind⟩
    · rw [List.forall₂_map_right_iff]
      exact List.forall₂_same.mpr fun part _ => hf part
    · rw [← h, List.map_flatten]

end WideGraph
