import WideGraph.Proofs.Store.Answer
import WideGraph.Proofs.Store.Deletion
import WideGraph.Proofs.Store.Origins
import WideGraph.Proofs.Store.Representation

/-!
# Rows that hold their keys

The key of a row and the cells of its key columns are two copies of the same values. They are in
step exactly if no part of the key is null, and then the row is returned with its key and deleted by
it. A null in a key is never refused: it leaves a row without the cell, and it can only have come
from a statement that gave null for the column. What is refused is a statement that gives no value
at all for a key column.
-/

namespace WideGraph

/-- The columns of the primary key, those of the partition first. -/
def TableDefinition.primaryColumns (d : TableDefinition) : List Column :=
  d.partitionColumns ++ d.clusteringColumns

/-- The columns of the primary key are those that are part of it. -/
theorem TableDefinition.mem_primaryColumns {d : TableDefinition} {column : Column} :
    column ∈ d.primaryColumns ↔ d.isPrimaryKey column = true := by
  rw [primaryColumns, List.mem_append, isPrimaryKey, Bool.or_eq_true]
  exact or_congr List.contains_iff_mem.symm List.contains_iff_mem.symm

/-- The parts of a key, those of the partition first. -/
def RowKey.parts (key : RowKey) : List Value :=
  key.partition ++ key.clustering

/-- A row holds its key: the cell of each key column is there, is not null and is the part of the
key in its place. -/
def StoredRow.HoldsKey (d : TableDefinition) (key : RowKey) (row : StoredRow) : Prop :=
  List.Forall₂ (fun column part => row.cells.find? column = some part ∧ part.isNull = false)
    d.primaryColumns key.parts

instance (d : TableDefinition) (key : RowKey) (row : StoredRow) :
    Decidable (row.HoldsKey d key) :=
  inferInstanceAs (Decidable (List.Forall₂ _ _ _))

namespace ColumnValues

/-- Of pairs made by a function each column has what the function gives for it. -/
theorem find?_ofList_map {columns : List Column} {f : Column → Value} {column : Column}
    {value : Value} : (ofList (columns.map fun column => (column, f column))).find? column =
      some value ↔ column ∈ columns ∧ f column = value := by
  constructor
  · intro hfound
    obtain ⟨other, hother, heq⟩ := List.mem_map.mp (mem_of_find?_ofList hfound)
    obtain ⟨rfl, rfl⟩ := Prod.mk.inj heq
    exact ⟨hother, rfl⟩
  · rintro ⟨hcolumn, rfl⟩
    refine find?_ofList_of_only (List.mem_map.mpr ⟨column, hcolumn, rfl⟩) fun other hother => ?_
    obtain ⟨_, -, heq⟩ := List.mem_map.mp hother
    obtain ⟨rfl, rfl⟩ := Prod.mk.inj heq
    rfl

end ColumnValues

namespace StoredRow.Coherent

variable {d : TableDefinition} {key : RowKey} {row : StoredRow} (hrow : row.Coherent d key)

include hrow

/-- The parts of a key are what is seen in the key columns of its row. -/
theorem parts_eq : key.parts = d.primaryColumns.map row.valueOf := by
  rw [TableDefinition.primaryColumns, List.map_append, hrow.key_eq]
  rfl

/-- A row holds its key if what is seen in the key columns is there and not null. -/
theorem holdsKey_iff_cells : row.HoldsKey d key ↔ ∀ column ∈ d.primaryColumns,
    row.cells.find? column = some (row.valueOf column) ∧ (row.valueOf column).isNull = false := by
  rw [HoldsKey, hrow.parts_eq, List.forall₂_map_right_iff, List.forall₂_same]

/-- A row holds its key if no part of it is null. -/
theorem holdsKey_iff : row.HoldsKey d key ↔ ∀ part ∈ key.parts, part.isNull = false := by
  rw [hrow.holdsKey_iff_cells, hrow.parts_eq, List.forall_mem_map]
  refine forall₂_congr fun column _ => ⟨fun h => h.2, fun hnull => ⟨?_, hnull⟩⟩
  rw [valueOf] at hnull ⊢
  cases hcell : row.cells.find? column with
  | none =>
    rw [hcell] at hnull
    cases hnull
  | some value => rfl

end StoredRow.Coherent

namespace StoredTable

variable {table : StoredTable}

/-- A select without restriction is answered with every row. -/
theorem select_all (table : StoredTable) (name : String) :
    table.select { table := name } = .ok (table.rows.map fun entry => table.project entry.2) := by
  rw [select_of_test rfl (fun _ => true) fun _ _ => rfl, List.filter_true]

/-- A row with the same cells in the key columns as another is that row. -/
theorem Coherent.eq_of_key_cells (hcoherent : table.Coherent) {entry other : RowKey × StoredRow}
    (hentry : entry ∈ table.rows) (hother : other ∈ table.rows)
    (hcells : ∀ column ∈ table.definition.primaryColumns,
      other.2.cells.find? column = entry.2.cells.find? column) : other = entry := by
  have hkeys : other.1 = entry.1 := by
    rw [(hcoherent.rows other hother).key_eq, (hcoherent.rows entry hentry).key_eq]
    refine StoredRow.keyIn_eq_iff.mpr fun column hprimary => ?_
    rw [StoredRow.valueOf, hcells column (TableDefinition.mem_primaryColumns.mpr hprimary)]
    rfl
  exact hcoherent.eq_of_parts hother hentry (by rw [hkeys]) (by rw [hkeys])

/-- The delete by the key that a row holds takes out the row and no other. -/
theorem Coherent.delete_by_key (hcoherent : table.Coherent) {statements : Statement → Prop}
    (horiginates : table.Originates statements) {entry : RowKey × StoredRow}
    (hentry : entry ∈ table.rows) (hholds : entry.2.HoldsKey table.definition entry.1)
    (hsome : table.definition.primaryColumns ≠ []) (name : String) :
    table.delete ⟨name, (table.definition.primaryColumns.zip entry.1.parts).map fun pair =>
        Clause.eq pair.1.nativeName pair.2⟩ =
      .ok { table with rows := table.rows.filter fun other => decide (other ≠ entry) } := by
  have hrow := hcoherent.rows entry hentry
  have hcells := hrow.holdsKey_iff_cells.mp hholds
  have hzip : table.definition.primaryColumns.zip entry.1.parts =
      table.definition.primaryColumns.map fun column => (column, entry.2.valueOf column) := by
    rw [hrow.parts_eq]
    simpa using List.zip_map' (f := id) (g := entry.2.valueOf)
  have hpairs : ∀ pair ∈ table.definition.primaryColumns.map
      fun column => (column, entry.2.valueOf column),
      ∃ type, table.definition.typeOf? pair.1 = some type ∧ type.bind pair.2 = .ok pair.2 := by
    rw [List.forall_mem_map]
    exact fun column hcolumn => ((horiginates entry hentry).key column
      (TableDefinition.mem_primaryColumns.mp hcolumn)).bind_self
  rw [hzip, delete_of_bind_self hpairs (by simpa using hsome)]
  refine congrArg (fun rows => Except.ok { table with rows }) ?_
  refine List.filter_congr fun other hother => ?_
  rw [Bool.eq_iff_iff, Bool.not_eq_true', ← Bool.not_eq_true, decide_eq_true_iff]
  refine not_congr ?_
  rw [hasCells_ofList_iff hpairs (hcoherent.rows other hother).fits]
  simp only [ColumnValues.find?_ofList_map]
  constructor
  · intro hsame
    refine hcoherent.eq_of_key_cells hentry hother fun column hcolumn => ?_
    rw [(hcells column hcolumn).1]
    exact hsame column _ ⟨hcolumn, rfl⟩
  · rintro rfl column value ⟨hcolumn, rfl⟩
    exact (hcells column hcolumn).1

/-- An insert or update that gives no value for a key column is refused. -/
theorem refused_of_not_given {statement : Statement} {column : Column}
    (hprimary : table.definition.isPrimaryKey column = true)
    (hnone : ∀ value, ¬statement.Gives column value)
    (hdelete : ∀ delete, statement ≠ .delete delete) : ∃ e, table.apply statement = .error e := by
  cases happly : table.apply statement with
  | error e => exact ⟨e, rfl⟩
  | ok changed =>
    have hgiven : ∃ value, Given (Eq statement) table.definition column value := by
      cases statement with
      | insert insert =>
        obtain ⟨bound, key, hbind, hkey, -⟩ := insert_eq_ok_iff.mp happly
        obtain ⟨value, hvalue⟩ := exists_find?_of_keyOf hkey hprimary
        exact ⟨value, given_of_insert rfl hbind hvalue⟩
      | update update =>
        obtain ⟨bound, key, changes, cells, haddressed, -, -⟩ := update_eq_ok_iff.mp happly
        obtain ⟨hbind, hkey, -⟩ := addressed_eq_ok_iff.mp haddressed
        obtain ⟨value, hvalue⟩ := exists_find?_of_keyOf hkey hprimary
        exact ⟨value, given_of_update rfl hbind hvalue⟩
      | delete delete => exact absurd rfl (hdelete delete)
    obtain ⟨value, _, given, type, rfl, hgives, -⟩ := hgiven
    exact absurd hgives (hnone given)

/-- A row that does not hold its key has a null in it, which one of the statements gave. -/
theorem Coherent.null_given (hcoherent : table.Coherent) {statements : Statement → Prop}
    (horiginates : table.Originates statements) {entry : RowKey × StoredRow}
    (hentry : entry ∈ table.rows) (hholds : ¬entry.2.HoldsKey table.definition entry.1) :
    ∃ column statement, table.definition.isPrimaryKey column = true ∧
      entry.2.valueOf column = .null ∧ statements statement ∧ statement.Gives column .null := by
  have hrow := hcoherent.rows entry hentry
  rw [hrow.holdsKey_iff, hrow.parts_eq, List.forall_mem_map] at hholds
  push Not at hholds
  obtain ⟨column, hcolumn, hnull⟩ := hholds
  have hprimary := TableDefinition.mem_primaryColumns.mp hcolumn
  have hvalue : entry.2.valueOf column = .null := by
    cases hseen : entry.2.valueOf column with
    | null => rfl
    | _ =>
      rw [hseen] at hnull
      exact absurd rfl hnull
  obtain ⟨statement, given, type, hstatement, hgives, -, hbind⟩ :=
    (horiginates entry hentry).key column hprimary
  rw [hvalue] at hbind
  rw [ColumnType.eq_null_of_bind hbind] at hgives
  exact ⟨column, statement, hprimary, hvalue, hstatement, hgives⟩

end StoredTable

namespace CommitLog

/-- When the rows of a table that some requests lead to hold their keys. A row does exactly if no
part of its key is null; then it is among the rows of the table as they are returned, with its whole
key, and the delete by the key takes it out and no other row. A row that does not hold its key was
given null for a key column by a statement that was committed to the table. An insert or update that
gives a key column no value at all is refused. -/
theorem holdsKey_unless_null (requests : List (String × Request)) {keyspace name : String}
    {table : StoredTable}
    (htable : (World.run {} requests).cluster.table keyspace name = .ok table) :
    (∀ entry ∈ table.rows,
      (entry.2.HoldsKey table.definition entry.1 ↔ ∀ part ∈ entry.1.parts, part.isNull = false) ∧
      (entry.2.HoldsKey table.definition entry.1 →
        (∃ answer, table.select { table := name } = .ok answer ∧
          table.project entry.2 ∈ answer ∧
          List.Forall₂ (fun column part =>
              (table.project entry.2).find? column.nativeName = some part)
            table.definition.primaryColumns entry.1.parts) ∧
        (table.definition.partitionKeys ≠ [] →
          table.delete ⟨name, (table.definition.primaryColumns.zip entry.1.parts).map fun pair =>
              Clause.eq pair.1.nativeName pair.2⟩ =
            .ok { table with rows := table.rows.filter fun other => decide (other ≠ entry) })) ∧
      (¬entry.2.HoldsKey table.definition entry.1 →
        ∃ column statement, table.definition.isPrimaryKey column = true ∧
          entry.2.valueOf column = .null ∧
          CommittedTo (ofRequests requests) keyspace name statement ∧
          statement.Gives column .null)) ∧
    ∀ statement column, table.definition.isPrimaryKey column = true →
      (∀ value, ¬statement.Gives column value) → (∀ delete, statement ≠ .delete delete) →
      ∃ e, table.apply statement = .error e := by
  have hreach : (World.run {} requests).cluster.Reachable := ⟨requests, rfl⟩
  have hcoherent := hreach.coherent htable
  have horiginates := originates_run requests htable
  refine ⟨fun entry hentry => ?_, fun statement column => StoredTable.refused_of_not_given⟩
  have hrow := hcoherent.rows entry hentry
  refine ⟨hrow.holdsKey_iff, fun hholds => ⟨?_, fun hsome => ?_⟩,
    hcoherent.null_given horiginates hentry⟩
  · refine ⟨_, table.select_all name, List.mem_map_of_mem hentry, ?_⟩
    refine List.Forall₂.imp (fun column part hpart => ?_) hholds
    rw [StoredTable.find?_project hrow.fits]
    exact hpart.1
  · have hprimary : table.definition.primaryColumns ≠ [] := by
      simp [TableDefinition.primaryColumns, TableDefinition.partitionColumns, hsome]
    exact hcoherent.delete_by_key horiginates hentry hholds hprimary name

/-- A session writes two vertices, one of them with null for its identifier. -/
def writeNullId : List (String × Request) :=
  [("writer", .connect "graph"), ("writer", .changeSchema ElementKind.vertex.layout.createTable),
    ("writer", .add (.insert ⟨"vertices", [("ID", .null), ("LABEL", .text "person")]⟩)),
    ("writer", .add (.insert ⟨"vertices", [("ID", .text "1")]⟩)), ("writer", .commit)]

/-- The vertex with an identifier holds its key and is deleted by it; the other one does not, because
null was given for its identifier. -/
theorem holdsKey_unless_null_writeNullId :
    ∃ table whole broken,
      (World.run {} writeNullId).cluster.table "graph" "vertices" = .ok table ∧
      whole ∈ table.rows ∧ whole.2.HoldsKey table.definition whole.1 ∧
      table.delete ⟨"vertices", (table.definition.primaryColumns.zip whole.1.parts).map fun pair =>
          Clause.eq pair.1.nativeName pair.2⟩ =
        .ok { table with rows := table.rows.filter fun other => decide (other ≠ whole) } ∧
      broken ∈ table.rows ∧
      (∃ column statement, table.definition.isPrimaryKey column = true ∧
        CommittedTo (ofRequests writeNullId) "graph" "vertices" statement ∧
        statement.Gives column .null) ∧
      ∃ e, table.apply (.insert ⟨"vertices", [("LABEL", .text "person")]⟩) = .error e := by
  have hrows : ((World.run {} writeNullId).cluster.table "graph" "vertices").toOption.map
      (fun table => (table.definition, table.rows.any fun entry =>
          decide (entry.2.HoldsKey table.definition entry.1),
        table.rows.any fun entry => !decide (entry.2.HoldsKey table.definition entry.1))) =
      some (ElementKind.vertex.layout, true, true) := by decide +kernel
  obtain ⟨table, htable, hfacts⟩ := exists_ok_of_map_toOption hrows
  rw [Prod.mk.injEq, Prod.mk.injEq] at hfacts
  obtain ⟨hdefinition, hwhole, hbroken⟩ := hfacts
  obtain ⟨whole, hmem, hholds⟩ := List.any_eq_true.mp hwhole
  obtain ⟨broken, hbrokenMem, hnot⟩ := List.any_eq_true.mp hbroken
  rw [decide_eq_true_iff] at hholds
  rw [Bool.not_eq_true', decide_eq_false_iff_not] at hnot
  obtain ⟨hentries, hrefused⟩ := holdsKey_unless_null writeNullId htable
  obtain ⟨column, statement, hprimary, -, hcommitted, hgives⟩ :=
    (hentries broken hbrokenMem).2.2 hnot
  have hpartition : table.definition.partitionKeys ≠ [] := by
    rw [hdefinition]
    decide
  refine ⟨table, whole, broken, htable, hmem, hholds, ((hentries whole hmem).2.1 hholds).2 hpartition,
    hbrokenMem, ⟨column, statement, hprimary, hcommitted, hgives⟩, ?_⟩
  refine hrefused _ .id (by rw [hdefinition]; decide) ?_ (fun _ h => by cases h)
  rintro value ⟨given, hgiven, hmem⟩
  obtain rfl : given = "LABEL" := congrArg Prod.fst (List.mem_singleton.mp hmem)
  revert hgiven
  decide

/-- Not every stored row holds its key. -/
theorem nullId_stored_without_key :
    ¬ ∀ (requests : List (String × Request)) (keyspace name : String) (table : StoredTable),
      (World.run {} requests).cluster.table keyspace name = .ok table →
      ∀ entry ∈ table.rows, entry.2.HoldsKey table.definition entry.1 := by
  intro hall
  have hbroken : ((World.run {} writeNullId).cluster.table "graph" "vertices").toOption.map
      (fun table => table.rows.any fun entry =>
        !decide (entry.2.HoldsKey table.definition entry.1)) = some true := by decide +kernel
  obtain ⟨table, htable, hsome⟩ := exists_ok_of_map_toOption hbroken
  obtain ⟨entry, hentry, hnot⟩ := List.any_eq_true.mp hsome
  rw [Bool.not_eq_true', decide_eq_false_iff_not] at hnot
  exact hnot (hall writeNullId "graph" "vertices" table htable entry hentry)

end CommitLog

end WideGraph
