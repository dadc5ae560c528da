import WideGraph.GraphTable.Writing
import WideGraph.Proofs.GraphTable.IdLookup
import WideGraph.Proofs.Store.Deletion

/-!
# Elements deleted by identifier

A query for an identifier and a delete of the element with the identifier go different ways: the
query restricts a select, whose clauses are decided row by row, and the delete binds the key values
once and compares cells. Both address the same rows. What a delete takes out is what the query gave
just before, and the query gives nothing afterwards.
-/

namespace WideGraph

namespace StoredTable

/-- A row has key values that fit their columns as they are if they are in its cells. -/
theorem hasKey_iff_find? {d : TableDefinition} {row : StoredRow} (hrow : row.cells.Fits d)
    {key : List (Column × Value)} (hkey : ∀ part ∈ key, GraphTable.FitsAsIs d part) :
    hasKey row.cells.find? key = true ↔ ∀ part ∈ key, row.cells.find? part.1 = some part.2 := by
  rw [hasKey, List.all_eq_true]
  refine forall₂_congr fun part hpart => ?_
  obtain ⟨type, -, hbind, -⟩ := hkey part hpart
  cases hcell : row.cells.find? part.1 with
  | none => simp
  | some cell =>
    rw [Option.any_some, Option.some.injEq,
      Value.same_iff (hrow part.1 cell hcell).2 (ColumnType.storable_of_bind hbind)]

section KeyDelete

variable {table : StoredTable} {key : List (Column × Value)}
  (hkey : ∀ part ∈ key, GraphTable.FitsAsIs table.definition part)
  (hdistinct : (key.map (·.1)).Nodup) (name : String)

include hkey hdistinct

/-- The delete by some key values succeeds and leaves the rows that do not have them. -/
theorem Coherent.delete_equalities (hcoherent : table.Coherent) (hsome : key ≠ []) :
    table.delete ⟨name, GraphTable.equalities key⟩ = .ok { table with
      rows := table.rows.filter fun entry => !hasKey entry.2.cells.find? key } := by
  have hbind : ∀ part ∈ key, ∃ type, table.definition.typeOf? part.1 = some type ∧
      type.bind part.2 = .ok part.2 := fun part hpart =>
    let ⟨type, htype, hvalue, _⟩ := hkey part hpart
    ⟨type, htype, hvalue⟩
  rw [GraphTable.equalities, delete_of_bind_self hbind hsome]
  refine congrArg (fun rows => Except.ok { table with rows }) ?_
  refine List.filter_congr fun entry hentry => congrArg _ ?_
  have hrow := (hcoherent.rows entry hentry).fits
  rw [Bool.eq_iff_iff, hasKey_iff_find? hrow hkey, hasCells_ofList_iff hbind hrow]
  simp only [ColumnValues.find?_ofList_iff hdistinct, Prod.forall]

end KeyDelete

end StoredTable

/-- Entries are gathered if each edge among them has an owner. -/
theorem ElementKind.exists_merge {kind : ElementKind} {entries : List Entry}
    (h : kind = .edge → ∀ entry ∈ entries, (entry.row.find? .ownerVertex).isSome = true) :
    ∃ merged, kind.merge entries = .ok merged := by
  by_cases hkind : kind = .edge
  · subst hkind
    have hall := h rfl
    have hmerge : ∀ vertices, ∃ merged, mergeEdges vertices entries = .ok merged := by
      clear h
      induction entries with
      | nil => exact fun vertices => ⟨vertices, rfl⟩
      | cons entry rest ih =>
        obtain ⟨howner, hrest⟩ := List.forall_mem_cons.mp hall
        obtain ⟨value, hvalue⟩ := Option.isSome_iff_exists.mp howner
        intro vertices
        rw [mergeEdges, hvalue]
        exact ih hrest _
    exact hmerge []
  · cases kind <;> first | exact absurd rfl hkind | exact ⟨_, rfl⟩

/-- Nothing is gathered from nothing. -/
theorem ElementKind.merge_nil (kind : ElementKind) : kind.merge [] = .ok [] := by
  cases kind <;> rfl

/-- No kind decodes an identifier into one column twice, or into none. -/
theorem ElementKind.idColumns_distinct (kind : ElementKind) :
    kind.idColumns.Nodup ∧ kind.idColumns ≠ [] := by
  cases kind <;> decide

namespace GraphTable

variable {table : GraphTable} {row : EntryRow} {id : Identifier} {key : List (Column × Value)}

/-- An identifier that decodes for edges does not name a label. -/
theorem edgeParts_ne_singleton (hkind : table.kind = .edge) (hkey : table.idKeyValues id = .ok key)
    (label : String) : id.edgeParts .outgoing ≠ [label] := by
  intro hparts
  obtain ⟨kind, configuration⟩ := table
  cases hkind
  rw [idKeyValues, ElementKind.idParts, hparts] at hkey
  cases hkey

/-- An entry that is nothing but an identifier is planned as the delete of its key values. -/
theorem deletePlan_of_id (hkind : table.kind.isIndex = false)
    (hkey : table.idKeyValues id = .ok key) (hid : row.id = some id)
    (hcolumns : row.hasColumns = false) :
    table.deletePlan row = .ok (.stage (.delete ⟨table.name, equalities key⟩)) := by
  have hrow : table.deleteRowPlan row = .ok (.stage (.delete ⟨table.name, equalities key⟩)) := by
    have hclauses : table.keyClauses row = .ok (equalities key) := by
      rw [keyClauses, hid]
      exact congrArg _ hkey
    rw [deleteRowPlan, hcolumns, hclauses]
    rfl
  rw [deletePlan.eq_def]
  split
  · rename_i hedge
    rw [deleteEdgePlan.eq_def, hid]
    dsimp only
    split
    · rename_i label hparts
      exact absurd hparts (edgeParts_ne_singleton hedge hkey label)
    · exact hrow
  · rename_i hindex
    rw [hindex] at hkind
    cases hkind
  · rename_i hindex
    rw [hindex] at hkind
    cases hkind
  · exact hrow

/-- A query for an identifier finds its rows: they can be gathered, and each is behind the answer
once. -/
theorem exists_query_withId {c : Connection} {stored : StoredTable}
    (hstored : c.cluster.table c.session.keyspace table.name = .ok stored)
    (hdefinition : stored.definition = table.definition) (hcoherent : stored.Coherent)
    (hkey : table.idKeyValues id = .ok key) :
    ∃ entries, (table.query ((Query.all table.kind).withId id) c).1 = .ok entries ∧
      (entries.flatMap (Entry.rowsBehind table.kind)).Perm
        ((stored.rows.filter fun entry => hasKey entry.2.cells.find? key).map (·.2.cells)) := by
  have howner : table.kind = .edge →
      ∀ entry ∈ (stored.rows.filter fun entry => hasKey entry.2.cells.find? key).map
        fun entry => entry.2.entry table.kind,
      (entry.row.find? .ownerVertex).isSome = true := by
    intro hedge entry hentry
    obtain ⟨found, hfound, rfl⟩ := List.mem_map.mp hentry
    have hhas := (List.mem_filter.mp hfound).2
    have hcolumn : Column.ownerVertex ∈ key.map (·.1) := by
      rw [(isIdKey_of_idKeyValues hkey).columns_eq, idColumns, hedge]
      exact List.mem_cons_self
    obtain ⟨part, hpart, hname⟩ := List.mem_map.mp hcolumn
    have hcell := List.all_eq_true.mp hhas part hpart
    rw [hname] at hcell
    change (found.2.cells.find? .ownerVertex).isSome = true
    cases hvalue : found.2.cells.find? .ownerVertex with
    | none =>
      rw [hvalue] at hcell
      cases hcell
    | some value => rfl
  obtain ⟨entries, hmerge⟩ := ElementKind.exists_merge howner
  refine ⟨entries, (query_withId_iff hstored hdefinition hcoherent hkey).mpr hmerge, ?_⟩
  have hgathered : table.kind.merge (((stored.rows.filter fun entry =>
      hasKey entry.2.cells.find? key).map (·.2)).map (StoredRow.entry table.kind)) = .ok entries := by
    rw [List.map_map]
    exact hmerge
  have hrows := rowsBehind_merge hgathered
  rwa [List.map_map] at hrows

/-- Lookup and delete by identifier address the same rows. For every kind but the indexes and every
identifier that decodes, the query for the identifier succeeds, the delete of an entry that is
nothing but the identifier is staged and committed, and it takes out the rows behind the answer of
the query, each of which was there once. Every other row, with its cells, and every other table is
as it was, and the same query finds nothing afterwards. -/
theorem delete_by_id_exact (table : GraphTable) (hkind : table.kind.isIndex = false) (c : Connection)
    (hreach : c.cluster.Reachable) (hkeeps : c.cluster.Keeps c.session.keyspace table.kind)
    (hbatch : c.session.batch = []) {id : Identifier} {key : List (Column × Value)}
    (hkey : table.idKeyValues id = .ok key) {row : EntryRow} (hid : row.id = some id)
    (hcolumns : row.hasColumns = false) :
    ∃ before entries staged after,
      c.cluster.table c.session.keyspace table.name = .ok before ∧
      (table.query ((Query.all table.kind).withId id) c).1 = .ok entries ∧
      table.delete row c = (.ok (), staged) ∧ staged.commit = (.ok 1, after) ∧
      (entries.flatMap (Entry.rowsBehind table.kind)).Perm ((before.rows.filter fun entry =>
        (entries.flatMap (Entry.rowsBehind table.kind)).contains entry.2.cells).map (·.2.cells)) ∧
      after.cluster.table c.session.keyspace table.name = .ok { before with
        rows := before.rows.filter fun entry =>
          !(entries.flatMap (Entry.rowsBehind table.kind)).contains entry.2.cells } ∧
      (∀ keyspace name, (keyspace, name) ≠ (c.session.keyspace, table.name) →
        after.cluster.table keyspace name = c.cluster.table keyspace name) ∧
      (table.query ((Query.all table.kind).withId id) after).1 = .ok [] := by
  obtain ⟨before, hbefore, hdefinition⟩ := hkeeps
  change before.definition = table.definition at hdefinition
  have hcoherent := hreach.coherent hbefore
  have hparts := isIdKey_of_idKeyValues hkey
  have hfits : ∀ part ∈ key, FitsAsIs before.definition part := hdefinition ▸ hparts.fits
  obtain ⟨hdistinct, hsome⟩ := table.kind.idColumns_distinct
  change table.idColumns.Nodup at hdistinct
  change table.idColumns ≠ [] at hsome
  rw [← hparts.columns_eq] at hdistinct hsome
  obtain ⟨entries, hquery, hbehind⟩ :=
    exists_query_withId hbefore hdefinition hcoherent hkey
  -- A row has the key values exactly if its cells are behind the answer.
  have hsame : ∀ entry ∈ before.rows,
      (entries.flatMap (Entry.rowsBehind table.kind)).contains entry.2.cells =
        hasKey entry.2.cells.find? key := by
    intro entry hentry
    rw [Bool.eq_iff_iff, List.contains_iff_mem, hbehind.mem_iff, List.mem_map]
    constructor
    · rintro ⟨found, hfound, hcells⟩
      rw [← hcells]
      exact (List.mem_filter.mp hfound).2
    · exact fun hhas => ⟨entry, List.mem_filter.mpr ⟨hentry, hhas⟩, rfl⟩
  have hnamed : c.cluster.table c.session.keyspace
      (Statement.delete ⟨table.name, equalities key⟩).table = .ok before := hbefore
  have happly : before.apply (.delete ⟨table.name, equalities key⟩) = .ok _ :=
    hcoherent.delete_equalities hfits hdistinct table.name (by simpa using hsome)
  obtain ⟨after, hcommit, hkeyspace, hafter, hothers⟩ :=
    Connection.commit_add hbatch hnamed happly
  have hplan := deletePlan_of_id hkind hkey hid hcolumns
  refine ⟨before, entries, c.add (.delete ⟨table.name, equalities key⟩), after, hbefore, hquery,
    carryOut_eq_ok_iff.mpr ⟨_, hplan, rfl⟩, hcommit, ?_, ?_, hothers, ?_⟩
  · rw [List.filter_congr hsame]
    exact hbehind
  · rw [List.filter_congr fun entry hentry => congrArg _ (hsame entry hentry)]
    exact hafter
  · rw [← hkeyspace] at hafter
    refine (query_withId_iff hafter hdefinition (hcoherent.filter_rows _) hkey).mpr ?_
    rw [List.filter_filter]
    simp [ElementKind.merge_nil]

/-- A session creates the table of index labels and writes one label on two bases, and another. -/
def writeThreeIndexLabels : List (String × Request) :=
  [("writer", .connect "graph"), ("writer", .changeSchema ElementKind.indexLabel.layout.createTable),
    ("writer", .add (.insert ⟨"index_labels", [("NAME", .text "byName"),
      ("BASE_TYPE", .text "VERTEX"), ("BASE_VALUE", .text "person")]⟩)),
    ("writer", .add (.insert ⟨"index_labels", [("NAME", .text "byName"),
      ("BASE_TYPE", .text "EDGE"), ("BASE_VALUE", .text "knows")]⟩)),
    ("writer", .add (.insert ⟨"index_labels", [("NAME", .text "byAge"),
      ("BASE_TYPE", .text "VERTEX"), ("BASE_VALUE", .text "person")]⟩)),
    ("writer", .commit)]

/-- A fresh connection to the three index labels. -/
def toThreeIndexLabels : Connection :=
  ⟨(World.run {} writeThreeIndexLabels).cluster, { keyspace := "graph" }⟩

/-- The entry that is nothing but the name of an index label. -/
def byName : EntryRow :=
  { kind := .indexLabel, id := some ⟨"byName"⟩ }

/-- A name that two rows share finds both, and a delete by the name takes out both and leaves the
third. -/
theorem delete_by_id_exact_byName :
    ∃ entries after,
      (query ⟨.indexLabel, {}⟩ ((Query.all .indexLabel).withId ⟨"byName"⟩)
        toThreeIndexLabels).1 = .ok entries ∧ entries.length = 2 ∧
      (delete ⟨.indexLabel, {}⟩ byName toThreeIndexLabels).2.commit = (.ok 1, after) ∧
      after.cluster.rowCount "graph" "index_labels" = 1 ∧
      (query ⟨.indexLabel, {}⟩ ((Query.all .indexLabel).withId ⟨"byName"⟩) after).1 = .ok [] := by
  have hkeeps : toThreeIndexLabels.cluster.Keeps "graph" .indexLabel :=
    Cluster.keeps_iff.mpr (by decide +kernel)
  have hcount : ((query ⟨.indexLabel, {}⟩ ((Query.all .indexLabel).withId ⟨"byName"⟩)
      toThreeIndexLabels).1.toOption.map (·.length)) = some 2 := by decide +kernel
  have hleft : ((delete ⟨.indexLabel, {}⟩ byName toThreeIndexLabels).2.commit).2.cluster.rowCount
      "graph" "index_labels" = 1 := by decide +kernel
  have hkey : idKeyValues ⟨.indexLabel, {}⟩ ⟨"byName"⟩ = .ok [(.name, .text "byName")] := rfl
  have hid : byName.id = some ⟨"byName"⟩ := rfl
  obtain ⟨before, entries, staged, after, -, hquery, hdelete, hcommit, -, -, -, hgone⟩ :=
    delete_by_id_exact ⟨.indexLabel, {}⟩ rfl toThreeIndexLabels ⟨writeThreeIndexLabels, rfl⟩ hkeeps
      rfl hkey hid rfl
  obtain ⟨found, hfound, hlength⟩ := exists_ok_of_map_toOption hcount
  rw [hquery, Except.ok.injEq] at hfound
  subst hfound
  rw [hdelete, hcommit] at hleft
  exact ⟨entries, after, hquery, hlength, by rw [hdelete, hcommit], hleft, hgone⟩

end GraphTable

end WideGraph
