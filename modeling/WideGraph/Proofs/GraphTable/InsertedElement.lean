import WideGraph.GraphTable.Writing
import WideGraph.Proofs.GraphTable.IdLookup
import WideGraph.Proofs.Identifier
import WideGraph.Proofs.Store.Insertion

/-!
# Elements that were inserted

An element that was inserted and committed is found under its identifier, and nothing else is. Its
columns are those of the row that was there before, if any, with the inserted values written over
them.
-/

namespace WideGraph.GraphTable

variable {table : GraphTable} {row : EntryRow}

/-- The plan of an insert is one statement. -/
theorem eq_stage_of_insertPlan {plan : ChangePlan} (h : table.insertPlan row = .ok plan) :
    plan = .stage (.insert ⟨table.name, row.assignments⟩) := by
  rw [insertPlan] at h
  split at h
  · cases h
  · split at h
    · cases h
    · exact (Except.ok.inj h).symm

/-- To insert is to stage one statement. -/
theorem eq_add_of_insert {c staged : Connection} (h : table.insert row c = (.ok (), staged)) :
    staged = c.add (.insert ⟨table.name, row.assignments⟩) := by
  obtain ⟨plan, hplan, hrun⟩ := carryOut_eq_ok_iff.mp h
  obtain rfl := eq_stage_of_insertPlan hplan
  exact (Prod.mk.inj hrun).2.symm

/-- An insert that was committed alone was applied to its table. -/
theorem insert_of_commit {c staged after : Connection} (hbatch : c.session.batch = [])
    (hinsert : table.insert row c = (.ok (), staged)) {n : Nat}
    (hcommit : staged.commit = (.ok n, after)) {before : StoredTable}
    (hbefore : c.cluster.table c.session.keyspace table.name = .ok before) :
    ∃ changed, before.insert ⟨table.name, row.assignments⟩ = .ok changed ∧
      after.cluster.table after.session.keyspace table.name = .ok changed := by
  rw [eq_add_of_insert hinsert] at hcommit
  obtain ⟨found, changed, hfound, happly, hkeyspace, hafter, -⟩ :=
    Connection.apply_of_commit_add hbatch hcommit
  have hsame : found = before := Except.ok.inj (hfound.symm.trans hbefore)
  exact ⟨changed, hsame ▸ happly, hkeyspace ▸ hafter⟩

/-- A value that fits its column as it is is written as it is. -/
theorem find?_of_writtenOver {d : TableDefinition} {values before after : ColumnValues}
    (h : values.WrittenOver d before after) {part : Column × Value} (hfits : FitsAsIs d part)
    (hpart : values.find? part.1 = some part.2) : after.find? part.1 = some part.2 := by
  obtain ⟨type, htype, hbind, hnull⟩ := hfits
  have hcell := h part.1
  rw [hpart] at hcell
  obtain ⟨found, bound, hfound, hbound, hcell⟩ := hcell
  rw [htype, Option.some.injEq] at hfound
  subst hfound
  rw [hbind, Except.ok.injEq] at hbound
  rw [hcell, ← hbound, hnull, if_neg Bool.false_ne_true]

/-- Cells with key values that fit their columns have the key. -/
theorem hasKey_of_find? {d : TableDefinition} {cells : ColumnValues} {key : List (Column × Value)}
    (hkey : ∀ part ∈ key, FitsAsIs d part)
    (hcells : ∀ part ∈ key, cells.find? part.1 = some part.2) : hasKey cells.find? key = true := by
  rw [hasKey, List.all_eq_true]
  intro part hpart
  obtain ⟨type, -, hbind, -⟩ := hkey part hpart
  have hstorable := ColumnType.storable_of_bind hbind
  rw [hcells part hpart, Option.any_some, Value.same_iff hstorable hstorable]

/-- What was inserted with a whole key and committed is the only row that a query for the key
gathers. -/
theorem query_withId_of_insert (hkind : table.kind ≠ .indexLabel) {c staged after : Connection}
    (hreach : c.cluster.Reachable) (hkeeps : c.cluster.Keeps c.session.keyspace table.kind)
    (hbatch : c.session.batch = []) (hinsert : table.insert row c = (.ok (), staged)) {n : Nat}
    (hcommit : staged.commit = (.ok n, after)) {key : List (Column × Value)}
    (hkey : table.IsIdKey key) (hrow : ∀ part ∈ key, row.find? part.1 = some part.2) :
    ∃ before cells, c.cluster.table c.session.keyspace table.name = .ok before ∧
      row.columns.WrittenOver table.definition (before.cellsAt key) cells ∧
      (∀ part ∈ key, cells.find? part.1 = some part.2) ∧
      ∀ id, table.idKeyValues id = .ok key → ∀ entries,
        (table.query ((Query.all table.kind).withId id) after).1 = .ok entries ↔
          table.kind.merge [⟨⟨table.kind, none, cells⟩, []⟩] = .ok entries := by
  obtain ⟨before, hbefore, hdefinition⟩ := hkeeps
  change before.definition = table.definition at hdefinition
  have hcoherent := hreach.coherent hbefore
  obtain ⟨changed, happly, hafter⟩ := insert_of_commit hbatch hinsert hcommit hbefore
  have hchanged := hcoherent.insert happly
  obtain ⟨hsame, rowKey, written, hmem, hwritten⟩ := hcoherent.writtenOver_of_insert happly
  have hfits := hkey.fits
  have hcover := hkey.isPrimaryKey_iff hkind
  rw [← hdefinition] at hfits hcover
  have hcells : ∀ part ∈ key, written.cells.find? part.1 = some part.2 := fun part hpart =>
    find?_of_writtenOver hwritten (hfits part hpart) (hrow part hpart)
  have hhas := hasKey_of_find? hfits hcells
  have hcoherentRow := hchanged.rows _ hmem
  rw [hsame] at hcoherentRow
  refine ⟨before, written.cells, hbefore, ?_, hcells, fun id hid entries => ?_⟩
  · rw [StoredTable.cellsAt_eq hcoherent hfits hcover hcoherentRow.fits hhas,
      ← hcoherentRow.key_eq, ← hdefinition]
    exact hwritten
  · rw [← hsame] at hfits hcover
    rw [query_withId_iff hafter (hsame.trans hdefinition) hchanged hid,
      StoredTable.filter_hasKey_eq_singleton hchanged hfits hcover hmem hhas]
    rfl

/-- An identifier of a vertex is the text of its id column. -/
theorem idKeyValues_vertex (configuration : Configuration) (text : String) :
    idKeyValues ⟨.vertex, configuration⟩ ⟨text⟩ = .ok [(.id, .text text)] :=
  rfl

/-- The parts of an identifier of an edge are the texts of its key columns. -/
theorem idKeyValues_edge (configuration : Configuration) {id : Identifier}
    {owner direction label sortValues other : String}
    (h : id.edgeParts .outgoing = [owner, direction, label, sortValues, other]) :
    idKeyValues ⟨.edge, configuration⟩ id = .ok [(.ownerVertex, .text owner),
      (.direction, .text direction), (.label, .text label), (.sortValues, .text sortValues),
      (.otherVertex, .text other)] := by
  rw [idKeyValues, ElementKind.idParts, h]
  rfl

/-- What was inserted is found under its identifier, whatever characters this has. A query for the
text in the id column of a vertex gives the vertex alone, and a query for the joined texts of the key
columns of an edge gives the edge alone, below its owner; for an outgoing edge the direction may be
left out. The columns found are those of the row before the insert, if there was one, with the
inserted values written over them. -/
theorem inserted_found_by_id (configuration : Configuration) (c : Connection)
    (hreach : c.cluster.Reachable) (hbatch : c.session.batch = []) :
    (∀ (row : EntryRow) (text : String) (staged after : Connection) (n : Nat),
      c.cluster.Keeps c.session.keyspace .vertex → row.find? .id = some (.text text) →
      insert ⟨.vertex, configuration⟩ row c = (.ok (), staged) → staged.commit = (.ok n, after) →
      ∃ before columns,
        c.cluster.table c.session.keyspace ElementKind.vertex.layout.name = .ok before ∧
        row.columns.WrittenOver ElementKind.vertex.layout (before.cellsAt [(.id, .text text)])
          columns ∧
        (query ⟨.vertex, configuration⟩ ((Query.all .vertex).withId ⟨text⟩) after).1 =
          .ok [{ row := { kind := .vertex, id := some ⟨text⟩, columns } }]) ∧
    ∀ (row : EntryRow) (owner direction label sortValues other : String)
      (staged after : Connection) (n : Nat),
      c.cluster.Keeps c.session.keyspace .edge →
      row.find? .ownerVertex = some (.text owner) →
      row.find? .direction = some (.text direction) → row.find? .label = some (.text label) →
      row.find? .sortValues = some (.text sortValues) →
      row.find? .otherVertex = some (.text other) →
      insert ⟨.edge, configuration⟩ row c = (.ok (), staged) → staged.commit = (.ok n, after) →
      ∃ before columns vertex,
        c.cluster.table c.session.keyspace ElementKind.edge.layout.name = .ok before ∧
        row.columns.WrittenOver ElementKind.edge.layout
          (before.cellsAt [(.ownerVertex, .text owner), (.direction, .text direction),
            (.label, .text label), (.sortValues, .text sortValues), (.otherVertex, .text other)])
          columns ∧
        vertex.row.kind = .vertex ∧ vertex.row.id = some ⟨owner⟩ ∧
        vertex.subRows = [{ kind := .edge, columns }] ∧
        (query ⟨.edge, configuration⟩ ((Query.all .edge).withId
          (.splice [owner, direction, label, sortValues, other])) after).1 = .ok [vertex] ∧
        (direction = "OUT" →
          (query ⟨.edge, configuration⟩ ((Query.all .edge).withId
            (.splice [owner, label, sortValues, other])) after).1 = .ok [vertex]) := by
  constructor
  · intro row text staged after n hkeeps hid hinsert hcommit
    have hkey := idKeyValues_vertex configuration text
    obtain ⟨before, columns, hbefore, hwritten, hcells, hquery⟩ := query_withId_of_insert
      (by simp) hreach hkeeps hbatch hinsert hcommit (isIdKey_of_idKeyValues hkey)
      (by simpa using hid)
    refine ⟨before, columns, hbefore, hwritten, (hquery _ hkey _).mpr ?_⟩
    have htext : EntryRow.text? ⟨.vertex, none, columns⟩ .id = some text := by
      rw [EntryRow.text?, EntryRow.find?, hcells (.id, .text text) (by simp)]
      rfl
    simp [ElementKind.merge, Entry.withVertexId, htext]
  · intro row owner direction label sortValues other staged after n hkeeps howner hdirection hlabel
      hsortValues hother hinsert hcommit
    have hparts : (Identifier.splice [owner, direction, label, sortValues, other]).edgeParts
        .outgoing = [owner, direction, label, sortValues, other] := by
      rw [Identifier.edgeParts, Identifier.split_splice_cons]
    have hkey := idKeyValues_edge configuration hparts
    obtain ⟨before, columns, hbefore, hwritten, hcells, hquery⟩ := query_withId_of_insert
      (by simp) hreach hkeeps hbatch hinsert hcommit (isIdKey_of_idKeyValues hkey)
      (by simp [howner, hdirection, hlabel, hsortValues, hother])
    have hmerge : ElementKind.merge .edge [⟨⟨.edge, none, columns⟩, []⟩] =
        .ok [Entry.owner (.text owner) ⟨.edge, none, columns⟩] := by
      have hcell : EntryRow.find? ⟨.edge, none, columns⟩ .ownerVertex = some (.text owner) :=
        hcells (.ownerVertex, .text owner) (by simp)
      simp [ElementKind.merge, mergeEdges, hcell, addEdge]
    refine ⟨before, columns, _, hbefore, hwritten, rfl, rfl, rfl, (hquery _ hkey _).mpr hmerge,
      fun hout => (hquery _ ?_ _).mpr hmerge⟩
    refine idKeyValues_edge configuration ?_
    rw [Identifier.edgeParts, Identifier.split_splice_cons, hout]
    rfl

/-- A session creates the tables of vertices and edges and writes a vertex. -/
def writeOddVertex : List (String × Request) :=
  [("writer", .connect "graph"), ("writer", .changeSchema ElementKind.vertex.layout.createTable),
    ("writer", .changeSchema ElementKind.edge.layout.createTable),
    ("writer", .add (.insert ⟨"vertices", [("ID", .text "a:b`"), ("LABEL", .text "person")]⟩)),
    ("writer", .commit)]

/-- A fresh connection to the two tables. -/
def toOddVertex : Connection :=
  ⟨(World.run {} writeOddVertex).cluster, { keyspace := "graph" }⟩

/-- The vertex without its label. -/
def unlabelledVertex : EntryRow :=
  { kind := .vertex, columns := .ofList [(.id, .text "a:b`"), (.label, .null)] }

/-- An outgoing edge of the vertex. -/
def oddEdge : EntryRow where
  kind := .edge
  columns := .ofList [(.ownerVertex, .text "a:b`"), (.direction, .text "OUT"), (.label, .text ""),
    (.sortValues, .text "`:"), (.otherVertex, .text "::")]

/-- A vertex and an edge with separators and escapes in their identifiers are found under these, the
vertex without the label that was taken away. -/
theorem inserted_found_by_id_oddVertex :
    (∃ after columns,
      ((insert ⟨.vertex, {}⟩ unlabelledVertex toOddVertex).2).commit = (.ok 1, after) ∧
      (query ⟨.vertex, {}⟩ ((Query.all .vertex).withId ⟨"a:b`"⟩) after).1 =
        .ok [{ row := { kind := .vertex, id := some ⟨"a:b`"⟩, columns } }] ∧
      columns.find? .label = none) ∧
    ∃ after vertex, ((insert ⟨.edge, {}⟩ oddEdge toOddVertex).2).commit = (.ok 1, after) ∧
      vertex.row.id = some ⟨"a:b`"⟩ ∧ vertex.subRows.length = 1 ∧
      (query ⟨.edge, {}⟩ ((Query.all .edge).withId
        (.splice ["a:b`", "OUT", "", "`:", "::"])) after).1 = .ok [vertex] ∧
      (query ⟨.edge, {}⟩ ((Query.all .edge).withId
        (.splice ["a:b`", "", "`:", "::"])) after).1 = .ok [vertex] := by
  have hkeepsVertex : toOddVertex.cluster.Keeps "graph" .vertex :=
    Cluster.keeps_iff.mpr (by decide +kernel)
  have hkeepsEdge : toOddVertex.cluster.Keeps "graph" .edge :=
    Cluster.keeps_iff.mpr (by decide +kernel)
  obtain ⟨afterVertex, hcommitVertex⟩ : ∃ after,
      ((insert ⟨.vertex, {}⟩ unlabelledVertex toOddVertex).2).commit = (.ok 1, after) :=
    ⟨_, Prod.ext (by decide +kernel) rfl⟩
  obtain ⟨afterEdge, hcommitEdge⟩ : ∃ after,
      ((insert ⟨.edge, {}⟩ oddEdge toOddVertex).2).commit = (.ok 1, after) :=
    ⟨_, Prod.ext (by decide +kernel) rfl⟩
  obtain ⟨hvertex, hedge⟩ := inserted_found_by_id {} toOddVertex ⟨writeOddVertex, rfl⟩ rfl
  constructor
  · obtain ⟨before, columns, -, hwritten, hquery⟩ := hvertex unlabelledVertex "a:b`" _ _ _
      hkeepsVertex (by decide +kernel) rfl hcommitVertex
    refine ⟨afterVertex, columns, hcommitVertex, hquery, ?_⟩
    have hlabel : unlabelledVertex.columns.find? .label = some .null := by decide +kernel
    have hcell := hwritten .label
    rw [hlabel] at hcell
    obtain ⟨type, bound, -, hbind, hcell⟩ := hcell
    obtain rfl := ColumnType.eq_of_bind hbind trivial
    exact hcell
  · obtain ⟨before, columns, vertex, -, -, -, hid, hedges, hquery, hshort⟩ :=
      hedge oddEdge "a:b`" "OUT" "" "`:" "::" _ _ _ hkeepsEdge (by decide +kernel)
        (by decide +kernel) (by decide +kernel) (by decide +kernel) (by decide +kernel) rfl
        hcommitEdge
    exact ⟨afterEdge, vertex, hcommitEdge, hid, by rw [hedges]; rfl, hquery, hshort rfl⟩

end WideGraph.GraphTable
