import Mathlib.Data.List.Induction
import Mathlib.Data.List.Nodup
import WideGraph.Proofs.GraphTable.Merging

/-!
# Edges by their owners

Gathering edges puts every edge below the vertex of its owner. There is one vertex for each text that
names an owner, in the order in which owners are first seen, and below it are the edges of that owner
in their own order. The result is the same when the places of the vertices are kept in a table
instead of being searched for.
-/

namespace WideGraph

section FirstSeen

variable {α : Type} [DecidableEq α]

/-- An item behind others is only seen first if it is not among them. -/
theorem eraseDups_concat (items : List α) (a : α) :
    (items ++ [a]).eraseDups = if a ∈ items then items.eraseDups else items.eraseDups ++ [a] := by
  rw [List.eraseDups_append, List.removeAll]
  by_cases h : a ∈ items <;> simp [h, List.eraseDups_cons]

/-- No item is seen first twice. -/
theorem nodup_eraseDups (items : List α) : items.eraseDups.Nodup := by
  induction items using List.reverseRecOn with
  | nil => exact List.nodup_nil
  | append_singleton items a ih =>
    rw [eraseDups_concat]
    split
    · exact ih
    · rename_i hnew
      refine List.nodup_append.mpr ⟨ih, List.nodup_singleton a, fun b hb c hc => ?_⟩
      rw [List.mem_eraseDups] at hb
      rw [List.mem_singleton.mp hc]
      exact fun heq => hnew (heq ▸ hb)

end FirstSeen

/-- The text that names the owner of an edge. -/
def Entry.ownerText? (entry : Entry) : Option String :=
  (entry.row.find? .ownerVertex).map Value.plain

/-- The texts that name owners of edges, in the order in which they are first seen. -/
def ownersSeen (entries : List Entry) : List String :=
  (entries.filterMap Entry.ownerText?).eraseDups

/-- The edges of the owner with a text. -/
def edgesOf (text : String) (entries : List Entry) : List Entry :=
  entries.filter fun entry => entry.ownerText? = some text

/-- A vertex gathers the edges of the owner with a text. It has that text for its identifier, the
owner's value as it is first seen for its id and no properties, and nothing else but the edges of the
owner below it, in their order. -/
structure Entry.Gathers (vertex : Entry) (entries : List Entry) (text : String) : Prop where
  kind : vertex.row.kind = .vertex
  id : vertex.row.id = some ⟨text⟩
  columns : ∃ owner, (edgesOf text entries).head?.bind (·.row.find? .ownerVertex) = some owner ∧
    vertex.row.columns = (ColumnValues.empty.set .id owner).set .properties (.map .empty)
  subRows : vertex.subRows = (edgesOf text entries).map (·.row)

namespace Entry

variable {entries : List Entry} {edge : Entry} {owner : Value} {text : String}

/-- The text of an owner is that of its value. -/
theorem ownerText?_eq (howner : edge.row.find? .ownerVertex = some owner) :
    edge.ownerText? = some owner.plain := by
  rw [ownerText?, howner, Option.map_some]

/-- An edge of the owner is behind the others. -/
theorem edgesOf_concat_self (h : edge.ownerText? = some text) :
    edgesOf text (entries ++ [edge]) = edgesOf text entries ++ [edge] := by
  simp [edgesOf, h]

/-- An edge of another owner is not among those of the owner. -/
theorem edgesOf_concat_of_ne (h : edge.ownerText? ≠ some text) :
    edgesOf text (entries ++ [edge]) = edgesOf text entries := by
  simp [edgesOf, h]

/-- An owner has edges if it has been seen. -/
theorem edgesOf_eq_nil_iff : edgesOf text entries = [] ↔ text ∉ ownersSeen entries := by
  simp [edgesOf, ownersSeen, List.filter_eq_nil_iff]

namespace Gathers

variable {vertex : Entry}

/-- With an edge of its owner put below it a vertex gathers the edges with that edge behind them. -/
theorem concat_self (h : vertex.Gathers entries text) (hedge : edge.ownerText? = some text) :
    Gathers { vertex with subRows := vertex.subRows ++ [edge.row] } (entries ++ [edge]) text := by
  obtain ⟨owner, hfirst, hcolumns⟩ := h.columns
  obtain ⟨first, hhead, howner⟩ := Option.bind_eq_some_iff.mp hfirst
  refine ⟨h.kind, h.id, ⟨owner, ?_, hcolumns⟩, ?_⟩
  · rw [edgesOf_concat_self hedge, List.head?_append, hhead, Option.some_or, Option.bind_some,
      howner]
  · rw [edgesOf_concat_self hedge, List.map_append, ← h.subRows]
    rfl

/-- An edge of another owner changes nothing. -/
theorem concat_of_ne (h : vertex.Gathers entries text) (hedge : edge.ownerText? ≠ some text) :
    vertex.Gathers (entries ++ [edge]) text :=
  ⟨h.kind, h.id, (edgesOf_concat_of_ne hedge).symm ▸ h.columns,
    (edgesOf_concat_of_ne hedge).symm ▸ h.subRows⟩

/-- The first edge of an owner is gathered by the vertex that is made for it. -/
theorem first (howner : edge.row.find? .ownerVertex = some owner)
    (hnew : owner.plain ∉ ownersSeen entries) :
    Gathers (Entry.owner owner edge.row) (entries ++ [edge]) owner.plain := by
  have hedges : edgesOf owner.plain (entries ++ [edge]) = [edge] := by
    rw [edgesOf_concat_self (ownerText?_eq howner), edgesOf_eq_nil_iff.mpr hnew, List.nil_append]
  refine ⟨rfl, rfl, ⟨owner, ?_, rfl⟩, ?_⟩
  · rw [hedges, List.head?_singleton, Option.bind_some, howner]
  · rw [hedges]
    rfl

end Gathers

end Entry

section Step

variable {entries vertices : List Entry} {edge : Entry} {owner : Value} {texts : List String}
  (howner : edge.row.find? .ownerVertex = some owner)
  (h : List.Forall₂ (fun text vertex => vertex.Gathers entries text) texts vertices)

include howner h

/-- Vertices of other owners still gather their edges. -/
theorem gathers_of_not_mem (hnot : owner.plain ∉ texts) :
    List.Forall₂ (fun text vertex => vertex.Gathers (entries ++ [edge]) text) texts vertices := by
  induction h with
  | nil => exact .nil
  | cons hfirst _ ih =>
    obtain ⟨hne, hrest⟩ := List.ne_and_not_mem_of_not_mem_cons hnot
    refine .cons (hfirst.concat_of_ne ?_) (ih hrest)
    rw [Entry.ownerText?_eq howner, ne_eq, Option.some.injEq]
    exact hne

/-- An edge is put below the vertex of its owner if there is one. -/
theorem gathers_addEdge_of_mem (hdistinct : texts.Nodup) (hmem : owner.plain ∈ texts) :
    List.Forall₂ (fun text vertex => vertex.Gathers (entries ++ [edge]) text) texts
      (addEdge owner edge.row vertices) := by
  induction h with
  | nil => cases hmem
  | @cons text vertex texts vertices hfirst hmore ih =>
    obtain ⟨hnot, hdistinct⟩ := List.nodup_cons.mp hdistinct
    rw [addEdge, hfirst.id]
    by_cases heq : text = owner.plain
    · subst heq
      rw [if_pos rfl]
      exact .cons (hfirst.concat_self (Entry.ownerText?_eq howner))
        (gathers_of_not_mem howner hmore hnot)
    · rw [if_neg (by simpa using heq)]
      refine .cons (hfirst.concat_of_ne ?_) (ih hdistinct ?_)
      · rw [Entry.ownerText?_eq howner, ne_eq, Option.some.injEq]
        exact Ne.symm heq
      · exact (List.mem_cons.mp hmem).resolve_left (Ne.symm heq)

/-- An edge is put below a new vertex behind the others if there is none of its owner. -/
theorem gathers_addEdge_of_not_mem (hnot : owner.plain ∉ texts)
    (hnew : owner.plain ∉ ownersSeen entries) :
    List.Forall₂ (fun text vertex => vertex.Gathers (entries ++ [edge]) text)
      (texts ++ [owner.plain]) (addEdge owner edge.row vertices) := by
  have hapart : ∀ vertex ∈ vertices, vertex.row.id ≠ some ⟨owner.plain⟩ := by
    intro vertex hvertex heq
    obtain ⟨text, htext, hgathers⟩ := exists_mem_of_forall₂ h hvertex
    rw [hgathers.id, Option.some.injEq, Identifier.mk.injEq] at heq
    exact hnot (heq ▸ htext)
  have hadd := @addEdge_append _ edge.row _ hapart []
  rw [List.append_nil] at hadd
  rw [hadd]
  exact List.rel_append (gathers_of_not_mem howner h hnot)
    (.cons (Entry.Gathers.first howner hnew) .nil)

end Step

/-- What gathering edges gives is a vertex for each owner, in the order in which owners are first
seen. -/
theorem gathers_mergeEdges {entries merged : List Entry} (h : mergeEdges [] entries = .ok merged) :
    List.Forall₂ (fun text vertex => vertex.Gathers entries text) (ownersSeen entries) merged := by
  induction entries using List.reverseRecOn generalizing merged with
  | nil =>
    cases h
    exact .nil
  | append_singleton entries edge ih =>
    obtain ⟨vertices, hvertices, hlast⟩ := mergeEdges_append.mp h
    have hgathers := ih hvertices
    rw [mergeEdges] at hlast
    split at hlast
    · cases hlast
    · rename_i owner howner
      cases hlast
      have hseen : ownersSeen (entries ++ [edge]) =
          if owner.plain ∈ ownersSeen entries then ownersSeen entries
          else ownersSeen entries ++ [owner.plain] := by
        rw [ownersSeen, List.filterMap_append, List.filterMap_cons_some
          (Entry.ownerText?_eq howner), List.filterMap_nil, eraseDups_concat]
        simp only [ownersSeen, List.mem_eraseDups]
      rw [hseen]
      split
      · rename_i hmem
        exact gathers_addEdge_of_mem howner hgathers (nodup_eraseDups _) hmem
      · rename_i hnew
        exact gathers_addEdge_of_not_mem howner hgathers hnew hnew

/-- Gathering edges fails if one of them has no owner, and in no other way. -/
theorem mergeEdges_eq_error_iff {vertices entries : List Entry} {error : BackendError} :
    mergeEdges vertices entries = .error error ↔
      error = .contractViolation .mergeWithoutOwner ∧
        ∃ edge ∈ entries, edge.row.find? .ownerVertex = none := by
  induction entries generalizing vertices with
  | nil => simp [mergeEdges]
  | cons edge rest ih =>
    rw [mergeEdges]
    cases howner : edge.row.find? .ownerVertex with
    | none => simp [howner, eq_comm]
    | some owner =>
      dsimp only
      rw [ih]
      simp [howner]

/-- The vertex of an owner without an edge below it. -/
def Entry.bareOwner (value : Value) : Entry where
  row := {
    kind := .vertex
    id := some ⟨value.plain⟩
    columns := (ColumnValues.empty.set .id value).set .properties (.map .empty) }

/-- The entry with an edge put below it. -/
def Entry.withSubRow (entry : Entry) (edge : EntryRow) : Entry :=
  { entry with subRows := entry.subRows ++ [edge] }

/-- The vertices that edges are put below, and a table of their places. -/
structure Gathering where
  vertices : List Entry := []
  places : List (Identifier × Nat) := []

namespace Gathering

/-- The place of the vertex of an owner. One that is not in the table is put behind the others,
without an edge below it as yet. -/
def enter (gathering : Gathering) (owner : Value) : Nat × Gathering :=
  match gathering.places.lookup ⟨owner.plain⟩ with
  | some place => (place, gathering)
  | none =>
    let place := gathering.vertices.length
    (place, {
      vertices := gathering.vertices ++ [Entry.bareOwner owner]
      places := (⟨owner.plain⟩, place) :: gathering.places })

/-- Put an edge below the vertex at the place of its owner. -/
def add (gathering : Gathering) (owner : Value) (edge : EntryRow) : Gathering :=
  let (place, gathering) := gathering.enter owner
  { gathering with vertices := gathering.vertices.modify place (·.withSubRow edge) }

/-- Put edges below the vertices at the places of their owners, one after the other. -/
def addAll (gathering : Gathering) : List Entry → Except BackendError Gathering
  | [] => .ok gathering
  | entry :: rest =>
    match entry.row.find? .ownerVertex with
    | none => .error (.contractViolation .mergeWithoutOwner)
    | some owner => (gathering.add owner entry.row).addAll rest

/-- The identifier of the vertex at a place. -/
def idAt (vertices : List Entry) (place : Nat) : Option Identifier :=
  vertices[place]?.bind (·.row.id)

/-- The table has the places of exactly the identifiers of the vertices. -/
def InStep (gathering : Gathering) : Prop :=
  ∀ id place, gathering.places.lookup id = some place ↔ idAt gathering.vertices place = some id

variable {gathering : Gathering} {vertices : List Entry} {owner : Value} {edge : EntryRow}
  {place : Nat}

/-- An edge is added at the first place that has the identifier of its owner. -/
theorem addEdge_eq_modify (hplace : idAt vertices place = some ⟨owner.plain⟩)
    (hfirst : ∀ earlier < place, idAt vertices earlier ≠ some ⟨owner.plain⟩) :
    addEdge owner edge vertices = vertices.modify place (·.withSubRow edge) := by
  induction vertices generalizing place with
  | nil => cases hplace
  | cons vertex rest ih =>
    rw [addEdge]
    cases place with
    | zero =>
      have hid : vertex.row.id = some ⟨owner.plain⟩ := hplace
      rw [if_pos hid, List.modify_zero_cons]
      rfl
    | succ place =>
      have hid : vertex.row.id ≠ some ⟨owner.plain⟩ := hfirst 0 place.succ_pos
      rw [if_neg hid, List.modify_succ_cons,
        ih hplace fun earlier hearlier => hfirst (earlier + 1) (Nat.succ_lt_succ hearlier)]

/-- An edge whose owner has no place is added below a new vertex behind the others. -/
theorem addEdge_eq_append (hnone : ∀ place, idAt vertices place ≠ some ⟨owner.plain⟩) :
    addEdge owner edge vertices = vertices ++ [Entry.owner owner edge] := by
  have hapart : ∀ vertex ∈ vertices, vertex.row.id ≠ some ⟨owner.plain⟩ := by
    intro vertex hvertex
    obtain ⟨place, hplace⟩ := List.getElem?_of_mem hvertex
    have hid := hnone place
    rwa [idAt, hplace] at hid
  have hadd := @addEdge_append _ edge _ hapart []
  rwa [List.append_nil] at hadd

/-- A vertex keeps its identifier when an edge is put below one. -/
theorem idAt_modify (place' : Nat) :
    idAt (vertices.modify place (·.withSubRow edge)) place' = idAt vertices place' := by
  rw [idAt, idAt, List.getElem?_modify]
  cases vertices[place']? with
  | none => rfl
  | some vertex => split <;> rfl

/-- A new vertex is at the place behind the others. -/
theorem idAt_append (vertex : Entry) :
    idAt (vertices ++ [vertex]) place =
      if place = vertices.length then vertex.row.id else idAt vertices place := by
  rw [idAt, idAt]
  rcases Nat.lt_trichotomy place vertices.length with hlt | heq | hgt
  · rw [List.getElem?_append_left hlt, if_neg (by omega)]
  · rw [if_pos heq, heq, List.getElem?_concat_length, Option.bind_some]
  · have hbehind : (vertices ++ [vertex]).length ≤ place := by
      rw [List.length_append, List.length_singleton]
      exact hgt
    rw [if_neg (by omega), List.getElem?_eq_none hbehind, List.getElem?_eq_none (by omega)]

/-- The table stays in step when an edge is put below a vertex. -/
theorem InStep.modify (h : gathering.InStep) (place : Nat) (edge : EntryRow) :
    InStep { gathering with
      vertices := gathering.vertices.modify place (·.withSubRow edge) } := by
  intro id other
  rw [idAt_modify]
  exact h id other

/-- The table stays in step when a new vertex and its place are put into it. -/
theorem InStep.push (h : gathering.InStep) {vertex : Entry} {id : Identifier}
    (hid : vertex.row.id = some id) (hnone : ∀ place, idAt gathering.vertices place ≠ some id) :
    InStep ⟨gathering.vertices ++ [vertex], (id, gathering.vertices.length) :: gathering.places⟩ := by
  have hbehind : idAt gathering.vertices gathering.vertices.length = none := by
    rw [idAt, List.getElem?_eq_none (Nat.le_refl _), Option.bind_none]
  intro other place
  have hold := h other place
  rw [idAt_append, List.lookup_cons, hid]
  by_cases hother : other = id
  · subst hother
    rw [BEq.rfl]
    by_cases hplace : place = gathering.vertices.length
    · simp [hplace]
    · simp [hplace, hnone place, Ne.symm hplace]
  · rw [beq_eq_false_iff_ne.mpr hother]
    by_cases hplace : place = gathering.vertices.length
    · subst hplace
      simp [hold, hbehind, Ne.symm hother]
    · simp [hold, hplace]

/-- Putting an edge at the place of its owner adds it where a search does, and keeps the table in
step. -/
theorem InStep.add (h : gathering.InStep) (owner : Value) (edge : EntryRow) :
    (gathering.add owner edge).vertices = addEdge owner edge gathering.vertices ∧
      (gathering.add owner edge).InStep := by
  cases hlookup : gathering.places.lookup ⟨owner.plain⟩ with
  | some place =>
    have hadd : gathering.add owner edge = { gathering with
        vertices := gathering.vertices.modify place (·.withSubRow edge) } := by
      rw [Gathering.add, enter, hlookup]
    rw [hadd]
    refine ⟨(addEdge_eq_modify ((h _ _).mp hlookup) fun earlier hearlier heq => ?_).symm,
      h.modify place edge⟩
    have hsame := (h _ _).mpr heq
    rw [hlookup, Option.some.injEq] at hsame
    omega
  | none =>
    have hnone : ∀ place, idAt gathering.vertices place ≠ some ⟨owner.plain⟩ := by
      intro place heq
      rw [(h _ _).mpr heq] at hlookup
      cases hlookup
    have hadd : gathering.add owner edge = ⟨(gathering.vertices ++ [Entry.bareOwner owner]).modify
        gathering.vertices.length (·.withSubRow edge),
          (⟨owner.plain⟩, gathering.vertices.length) :: gathering.places⟩ := by
      rw [Gathering.add, enter, hlookup]
    rw [hadd]
    refine ⟨?_, (h.push rfl hnone).modify _ edge⟩
    rw [addEdge_eq_append hnone, List.modify_eq_take_drop, List.take_left, List.drop_left]
    rfl

/-- Putting edges at the places of their owners gathers them as searching for the owners does. -/
theorem InStep.addAll (h : gathering.InStep) (entries : List Entry) :
    (gathering.addAll entries).map (·.vertices) = mergeEdges gathering.vertices entries := by
  induction entries generalizing gathering with
  | nil => rfl
  | cons entry rest ih =>
    rw [Gathering.addAll, mergeEdges]
    cases entry.row.find? .ownerVertex with
    | none => rfl
    | some owner =>
      obtain ⟨hvertices, hstep⟩ := h.add owner entry.row
      exact (ih hstep).trans (congrArg (mergeEdges · rest) hvertices)

end Gathering

/-- Gather edges with a table of the places of their owners' vertices. -/
def mergeByPlaces (entries : List Entry) : Except BackendError (List Entry) :=
  (Gathering.addAll {} entries).map (·.vertices)

/-- Gathering edges neither loses nor repeats one. It fails exactly if an edge has no owner.
Otherwise it gives a vertex for each text that names an owner, in the order in which owners are first
seen, each with the edges of its owner below it in their order, so that the edges below all vertices
are those that were gathered. Keeping a table of the places of vertices makes no difference. -/
theorem merge_edges_by_owner (entries : List Entry) :
    (∀ error, ElementKind.edge.merge entries = .error error ↔
      error = .contractViolation .mergeWithoutOwner ∧
        ∃ edge ∈ entries, edge.row.find? .ownerVertex = none) ∧
    ((∀ edge ∈ entries, edge.row.find? .ownerVertex ≠ none) →
      ∃ merged, ElementKind.edge.merge entries = .ok merged ∧
        List.Forall₂ (fun text vertex => vertex.Gathers entries text) (ownersSeen entries) merged ∧
        (ownersSeen entries).Nodup ∧
        (merged.flatMap (·.subRows)).Perm (entries.map (·.row))) ∧
    mergeByPlaces entries = ElementKind.edge.merge entries := by
  refine ⟨fun error => mergeEdges_eq_error_iff, fun howners => ?_, ?_⟩
  · cases hmerge : ElementKind.edge.merge entries with
    | error error =>
      obtain ⟨-, edge, hmem, hnone⟩ := mergeEdges_eq_error_iff.mp hmerge
      exact absurd hnone (howners edge hmem)
    | ok merged =>
      exact ⟨merged, rfl, gathers_mergeEdges hmerge, nodup_eraseDups _, subRows_mergeEdges hmerge⟩
  · have hempty : Gathering.InStep {} := fun id place => by simp [Gathering.idAt]
    exact hempty.addAll entries

/-- An edge of an owner to another vertex. -/
def edgeBetween (owner : Value) (other : String) : Entry :=
  { row := ({ kind := .edge : EntryRow }.set .ownerVertex owner).set .otherVertex (.text other) }

/-- Edges of two owners, one of which is named by a number and by its digits. -/
def interleaved : List Entry :=
  [edgeBetween (.bigint 3) "a", edgeBetween (.text "W") "b", edgeBetween (.text "3") "c"]

/-- The edges of the two owners are gathered into two vertices, the first of which keeps the number
for its id. -/
theorem merge_edges_by_owner_interleaved :
    (∀ edge ∈ interleaved, edge.row.find? .ownerVertex ≠ none) ∧
    ∃ merged, ElementKind.edge.merge interleaved = .ok merged ∧
      List.Forall₂ (fun text vertex => vertex.Gathers interleaved text) ["3", "W"] merged ∧
      (merged.map fun vertex => (vertex.row.find? .id, vertex.subRows.map (·.text? .otherVertex))) =
        [(some (.bigint 3), [some "a", some "c"]), (some (.text "W"), [some "b"])] := by
  have howners : ∀ edge ∈ interleaved, edge.row.find? .ownerVertex ≠ none := by decide
  have hseen : ownersSeen interleaved = ["3", "W"] := by decide +kernel
  have hvertices : ((ElementKind.edge.merge interleaved).toOption.map fun merged =>
      merged.map fun vertex => (vertex.row.find? .id, vertex.subRows.map (·.text? .otherVertex))) =
        some [(some (.bigint 3), [some "a", some "c"]), (some (.text "W"), [some "b"])] := by
    decide +kernel
  obtain ⟨merged, hmerged, hgathers, -, -⟩ := (merge_edges_by_owner interleaved).2.1 howners
  obtain ⟨merged', hmerged', hrows⟩ := exists_ok_of_map_toOption hvertices
  rw [hmerged, Except.ok.injEq] at hmerged'
  exact ⟨howners, merged, hmerged, hseen ▸ hgathers, hmerged' ▸ hrows⟩

end WideGraph
