import WideGraph.Proofs.Store.BoundValues
import WideGraph.Proofs.Store.Reachable

/-!
# Coherent tables

The rows of a table are in the order of their keys. Each row holds storable values of declared
columns, and its key is made of its cells, missing ones being seen as null, with the token of its
partition. New tables are coherent and every statement keeps them so, whatever their definition;
hence every table of a reachable cluster is.
-/

namespace WideGraph

namespace ColumnValues

/-- The values with a column given what may be kept of it. -/
def keep (values : ColumnValues) (column : Column) : Option Value → ColumnValues
  | none => values.erase column
  | some value => values.set column value

/-- A column has what was kept of it, and any other what it had. -/
theorem find?_keep (values : ColumnValues) (column : Column) (kept : Option Value)
    (other : Column) :
    (values.keep column kept).find? other =
      if other = column then kept else values.find? other := by
  cases kept with
  | none => rw [keep, find?_erase]
  | some value => rw [keep, find?_set]

/-- Values still fit after a declared column is given what may be kept of it. -/
theorem Fits.keep {values : ColumnValues} {d : TableDefinition} (h : values.Fits d)
    {column : Column} (hdeclared : ∃ type, d.typeOf? column = some type) {kept : Option Value}
    (hkept : ∀ value, kept = some value → value.Storable) : (values.keep column kept).Fits d := by
  intro other value hvalue
  rw [find?_keep] at hvalue
  split at hvalue
  · rename_i heq
    exact ⟨heq ▸ hdeclared, hkept value hvalue⟩
  · exact h other value hvalue

end ColumnValues

namespace StoredRow

/-- The key of a row by its cells, missing ones being seen as null. -/
def keyIn (d : TableDefinition) (row : StoredRow) : RowKey where
  token := partitionToken (d.partitionColumns.map row.valueOf)
  partition := d.partitionColumns.map row.valueOf
  clustering := d.clusteringColumns.map row.valueOf

/-- The value of a column with fitting cells is storable. -/
theorem storable_valueOf {d : TableDefinition} {row : StoredRow} (h : row.cells.Fits d)
    (column : Column) : (row.valueOf column).Storable := by
  rw [valueOf]
  cases hcell : row.cells.find? column with
  | none => trivial
  | some value => exact (h column value hcell).2

/-- Rows have the same key if they have the same values in the columns of the primary key. -/
theorem keyIn_eq_iff {d : TableDefinition} {row other : StoredRow} :
    row.keyIn d = other.keyIn d ↔
      ∀ column, d.isPrimaryKey column = true → row.valueOf column = other.valueOf column := by
  have hparts : row.keyIn d = other.keyIn d ↔
      d.partitionColumns.map row.valueOf = d.partitionColumns.map other.valueOf ∧
        d.clusteringColumns.map row.valueOf = d.clusteringColumns.map other.valueOf := by
    rw [keyIn, keyIn, RowKey.mk.injEq]
    exact ⟨fun h => h.2, fun h => ⟨congrArg partitionToken h.1, h⟩⟩
  rw [hparts, List.map_inj_left, List.map_inj_left]
  simp only [TableDefinition.isPrimaryKey, TableDefinition.isPartitionKey,
    TableDefinition.isClusteringKey, Bool.or_eq_true, List.contains_iff_mem, or_imp, forall_and]

/-- A key made of bound values is that of a row with these values. -/
theorem eq_keyIn_of_keyOf {table : StoredTable} {bound : ColumnValues} {key : RowKey}
    (h : table.keyOf bound = .ok key) {row : StoredRow}
    (hrow : ∀ column value, bound.find? column = some value → row.valueOf column = value) :
    key = row.keyIn table.definition := by
  obtain ⟨hpartition, hclustering, htoken⟩ := StoredTable.keyOf_eq_ok_iff.mp h
  have hparts : ∀ {columns : List Column} {parts : List Value},
      StoredTable.keyPart bound columns = .ok parts → columns.map row.valueOf = parts := by
    intro columns parts hparts
    rw [← List.forall₂_eq_eq_eq, List.forall₂_map_left_iff]
    exact (StoredTable.keyPart_eq_ok_iff.mp hparts).imp hrow
  obtain ⟨token, partition, clustering⟩ := key
  rw [keyIn, hparts hpartition, hparts hclustering]
  exact congrArg (RowKey.mk · partition clustering) htoken

/-- A row holds storable values of declared columns and has the key of its cells. -/
structure Coherent (d : TableDefinition) (key : RowKey) (row : StoredRow) : Prop where
  fits : row.cells.Fits d
  key_eq : key = row.keyIn d

/-- The key of a row with fitting cells is storable. -/
theorem storable_keyIn {d : TableDefinition} {row : StoredRow} (h : row.cells.Fits d)
    (other : TableDefinition) : (row.keyIn other).Storable := by
  constructor <;>
  · intro value hvalue
    obtain ⟨column, -, rfl⟩ := List.mem_map.mp hvalue
    exact storable_valueOf h column

/-- The key of a coherent row is storable. -/
theorem Coherent.storable_key {d : TableDefinition} {key : RowKey} {row : StoredRow}
    (h : row.Coherent d key) : key.Storable := by
  rw [h.key_eq]
  exact storable_keyIn h.fits d

/-- A cell of the primary key that is not null is the same in every row with the key. -/
theorem Coherent.find?_eq_of_key {d : TableDefinition} {key : RowKey} {row other : StoredRow}
    (hrow : row.Coherent d key) (hother : other.Coherent d key) {column : Column}
    (hprimary : d.isPrimaryKey column = true) (hvalue : (row.valueOf column).isNull = false) :
    other.cells.find? column = row.cells.find? column := by
  have hsame := keyIn_eq_iff.mp (hrow.key_eq.symm.trans hother.key_eq) column hprimary
  rw [valueOf] at hvalue
  rw [valueOf, valueOf] at hsame
  cases hcell : row.cells.find? column with
  | none =>
    rw [hcell] at hvalue
    cases hvalue
  | some value =>
    rw [hcell] at hvalue hsame
    cases hfound : other.cells.find? column with
    | none =>
      rw [hfound] at hsame
      change value = .null at hsame
      rw [hsame] at hvalue
      cases hvalue
    | some found =>
      rw [hfound] at hsame
      exact congrArg some hsame.symm

end StoredRow

namespace StoredTable

/-- A key made of fitting values is storable. -/
theorem storable_of_keyOf {table : StoredTable} {values : ColumnValues} {d : TableDefinition}
    (h : values.Fits d) {key : RowKey} (hkey : table.keyOf values = .ok key) : key.Storable := by
  have hvalues : ∀ column value, values.find? column = some value →
      StoredRow.valueOf ⟨values, false⟩ column = value := fun column value hvalue => by
    rw [StoredRow.valueOf, hvalue, Option.getD_some]
  rw [StoredRow.eq_keyIn_of_keyOf hkey hvalues]
  exact StoredRow.storable_keyIn h _

/-- The rows are in the order of their keys and coherent with them. -/
structure Coherent (table : StoredTable) : Prop where
  increasing : Increasing table.rows
  rows : ∀ entry ∈ table.rows, entry.2.Coherent table.definition entry.1

/-- The keys of a coherent table are storable. -/
theorem Coherent.keysSatisfy {table : StoredTable} (h : table.Coherent) :
    Bindings.KeysSatisfy RowKey.Storable table.rows :=
  fun entry hentry => (h.rows entry hentry).storable_key

/-- What holds of every row of a coherent table, and of one that is put in, holds of every row
afterwards. -/
theorem Coherent.forall_mem_insert {table : StoredTable} (h : table.Coherent) {key : RowKey}
    (hkey : key.Storable) {row : StoredRow} {P : RowKey × StoredRow → Prop}
    (hrows : ∀ entry ∈ table.rows, P entry) (hrow : P (key, row)) :
    ∀ entry ∈ Bindings.insert key row table.rows, P entry := by
  intro entry hentry
  rcases (Bindings.mem_insert_iff RowKey.compare_lawfulOn h.increasing h.keysSatisfy hkey row
    entry).mp hentry with rfl | ⟨hold, -⟩
  · exact hrow
  · exact hrows entry hold

/-- A coherent table stays so when a coherent row is put in. -/
theorem Coherent.insert_row {table : StoredTable} (h : table.Coherent) {key : RowKey}
    {row : StoredRow} (hrow : row.Coherent table.definition key) :
    Coherent { table with rows := Bindings.insert key row table.rows } where
  increasing :=
    Bindings.increasing_insert_of_lawfulOn RowKey.compare_lawfulOn h.increasing h.keysSatisfy
      hrow.storable_key row
  rows := h.forall_mem_insert hrow.storable_key h.rows hrow

/-- A coherent table stays so when rows are taken out. -/
theorem Coherent.filter_rows {table : StoredTable} (h : table.Coherent)
    (p : RowKey × StoredRow → Bool) : Coherent { table with rows := table.rows.filter p } where
  increasing := Bindings.increasing_filter p h.increasing
  rows entry hentry := h.rows entry (List.mem_filter.mp hentry).1

/-- What is found under a key in a coherent table is a row of the table. -/
theorem Coherent.mem_of_find? {table : StoredTable} (h : table.Coherent) {key : RowKey}
    (hkey : key.Storable) {row : StoredRow} (hfound : Bindings.find? key table.rows = some row) :
    (key, row) ∈ table.rows :=
  (Bindings.find?_eq_some_iff_mem RowKey.compare_lawfulOn h.increasing h.keysSatisfy hkey row).mp
    hfound

/-- The row found under a key in a coherent table is coherent with it. -/
theorem Coherent.of_find? {table : StoredTable} (h : table.Coherent) {key : RowKey}
    (hkey : key.Storable) {row : StoredRow} (hfound : Bindings.find? key table.rows = some row) :
    row.Coherent table.definition key :=
  h.rows (key, row) (h.mem_of_find? hkey hfound)

/-- Of writes to distinct columns, one after the other, each column keeps its own. -/
theorem find?_foldl_write {bound : List (Column × Value)} (hinc : Increasing bound)
    (cells : ColumnValues) (column : Column) :
    (bound.foldl (fun cells b => if b.2.isNull then cells.erase b.1 else cells.set b.1 b.2)
      cells).find? column =
      match Bindings.find? column bound with
      | some value => if value.isNull then none else some value
      | none => cells.find? column := by
  induction bound generalizing cells with
  | nil => rfl
  | cons head rest ih =>
    obtain ⟨first, value⟩ := head
    rw [List.foldl_cons, ih (List.Pairwise.of_cons hinc)]
    by_cases heq : column = first
    · subst heq
      rw [Bindings.find?_tail_eq_none hinc]
      cases hnull : value.isNull <;> simp [Bindings.find?, hnull]
    · have hne : compare column first ≠ .eq := fun h => heq (Column.eq_of_compare h)
      cases hrest : Bindings.find? column rest <;> cases hnull : value.isNull <;>
        simp [Bindings.find?, hrest, hne, heq]

/-- A written column has its bound value, or no cell if that is null, and every other column the
cell it had. -/
theorem find?_writeCells (cells bound : ColumnValues) (column : Column) :
    (writeCells cells bound).find? column =
      match bound.find? column with
      | some value => if value.isNull then none else some value
      | none => cells.find? column :=
  find?_foldl_write bound.increasing cells column

/-- An insert writes the bound values into the row with their key. -/
theorem insert_eq_ok_iff {table changed : StoredTable} {statement : Insert} :
    table.insert statement = .ok changed ↔
      ∃ bound key, table.bindAll .empty statement.values = .ok bound ∧
        table.keyOf bound = .ok key ∧
        changed = { table with
          rows := Bindings.insert key
            ⟨writeCells ((Bindings.find? key table.rows).getD {}).cells bound, true⟩
            table.rows } := by
  rw [StoredTable.insert]
  simp only [bind_ok_iff, Except.ok.injEq, exists_and_left, @eq_comm _ changed]

/-- An update changes the cells of the row that it addresses, which stays if it was written whole or
has a cell outside its key. -/
theorem update_eq_ok_iff {table changed : StoredTable} {update : Update} :
    table.update update = .ok changed ↔
      ∃ bound key changes cells, table.addressed update = .ok (bound, key, changes) ∧
        assignCells ((Bindings.find? key table.rows).getD ⟨bound, false⟩).cells changes = .ok cells ∧
        changed = { table with
          rows :=
            if ((Bindings.find? key table.rows).getD ⟨bound, false⟩).inserted ||
                table.hasDataCell cells then
              Bindings.insert key
                ⟨cells, ((Bindings.find? key table.rows).getD ⟨bound, false⟩).inserted⟩ table.rows
            else Bindings.erase key table.rows } := by
  rw [update_eq, bind_ok_iff]
  constructor
  · rintro ⟨⟨bound, key, changes⟩, haddressed, hrest⟩
    obtain ⟨cells, hcells, hchanged⟩ := bind_ok_iff.mp hrest
    refine ⟨bound, key, changes, cells, haddressed, hcells, ?_⟩
    split at hchanged <;> rename_i hkept <;> cases hchanged
    · rw [if_pos hkept]
    · rw [if_neg hkept]
  · rintro ⟨bound, key, changes, cells, haddressed, hcells, rfl⟩
    refine ⟨(bound, key, changes), haddressed, bind_ok_iff.mpr ⟨cells, hcells, ?_⟩⟩
    split <;> rfl

/-- A delete takes out the rows that have all bound values, of which there has to be one. -/
theorem delete_eq_ok_iff {table changed : StoredTable} {delete : Delete} :
    table.delete delete = .ok changed ↔
      ∃ bound, table.bindEqualities .deleteNotByEquality .empty delete.clauses = .ok bound ∧
        bound.isEmpty = false ∧
        changed = { table with rows := table.rows.filter fun row => !hasCells row.2 bound } := by
  rw [StoredTable.delete, bind_ok_iff]
  refine exists_congr fun bound => and_congr_right fun _ => ?_
  cases bound.isEmpty <;> simp [eq_comm]

/-- An insert keeps a table coherent. -/
theorem Coherent.insert {table changed : StoredTable} (h : table.Coherent) {statement : Insert}
    (happly : table.insert statement = .ok changed) : changed.Coherent := by
  obtain ⟨bound, key, hbind, hkey, rfl⟩ := insert_eq_ok_iff.mp happly
  have hbound : bound.Fits table.definition := bindAll_fits hbind
  have hbefore : ((Bindings.find? key table.rows).getD {}).cells.Fits table.definition := by
    cases hfound : Bindings.find? key table.rows with
    | none => exact ColumnValues.fits_empty _
    | some row => exact (h.of_find? (storable_of_keyOf hbound hkey) hfound).fits
  refine h.insert_row ⟨?_, StoredRow.eq_keyIn_of_keyOf hkey fun column value hvalue => ?_⟩
  · intro column value hvalue
    rw [find?_writeCells] at hvalue
    split at hvalue
    · rename_i boundValue hboundValue
      split at hvalue
      · cases hvalue
      · cases hvalue
        exact hbound column value hboundValue
    · exact hbefore column value hvalue
  · rw [StoredRow.valueOf, find?_writeCells, hvalue]
    cases value <;> rfl

/-- Assignments only change columns that are declared and not part of the key. -/
def Changeable (d : TableDefinition)
    (changes : List (Column × ColumnType × Assignment)) : Prop :=
  ∀ change ∈ changes, (∃ type, d.typeOf? change.1 = some type) ∧ d.isPrimaryKey change.1 = false

/-- The column that an assignment changes, with its type; key columns may not be changed. -/
def assignedColumn (table : StoredTable) (assignment : Assignment) :
    Except StoreError (Column × ColumnType × Assignment) :=
  match table.definition.resolve assignment.column with
  | .error e => .error e
  | .ok (column, type) =>
    if table.definition.isPrimaryKey column then .error (.keyPartAssigned column)
    else .ok (column, type, assignment)

/-- The columns of assignments are found one by one. -/
theorem assignedColumns_eq_mapExcept (table : StoredTable) (assignments : List Assignment) :
    table.assignedColumns assignments = mapExcept table.assignedColumn assignments := by
  induction assignments with
  | nil => rfl
  | cons assignment rest ih =>
    rw [assignedColumns, mapExcept, assignedColumn, ih]
    cases table.definition.resolve assignment.column with
    | error e => rfl
    | ok resolved =>
      dsimp only
      split <;> rfl

/-- An assignment is made to the column of its name, which is outside the key, by its type. -/
theorem assignedColumn_eq_ok_iff {table : StoredTable} {assignment : Assignment}
    {change : Column × ColumnType × Assignment} :
    table.assignedColumn assignment = .ok change ↔
      table.definition.resolve assignment.column = .ok (change.1, change.2.1) ∧
        table.definition.isPrimaryKey change.1 = false ∧ change.2.2 = assignment := by
  obtain ⟨column, type, assigned⟩ := change
  rw [assignedColumn]
  constructor
  · intro h
    split at h
    · cases h
    · rename_i hresolve
      split at h <;> cases h
      rename_i hprimary
      exact ⟨hresolve, Bool.eq_false_iff.mpr hprimary, rfl⟩
  · rintro ⟨hresolve, hprimary, rfl⟩
    rw [hresolve]
    exact if_neg (Bool.eq_false_iff.mp hprimary)

/-- Assignments can be made if each of them can, and are made in their order. -/
theorem assignedColumns_eq_ok_iff {table : StoredTable} {assignments : List Assignment}
    {changes : List (Column × ColumnType × Assignment)} :
    table.assignedColumns assignments = .ok changes ↔
      List.Forall₂ (fun assignment change => table.assignedColumn assignment = .ok change)
        assignments changes := by
  rw [assignedColumns_eq_mapExcept, mapExcept_eq_ok_iff]

/-- Assignments are made to columns outside the key, by the types of the columns. -/
theorem resolved_of_assignedColumns {table : StoredTable} {assignments : List Assignment}
    {changes : List (Column × ColumnType × Assignment)}
    (h : table.assignedColumns assignments = .ok changes) :
    ∀ change ∈ changes, table.definition.typeOf? change.1 = some change.2.1 ∧
      table.definition.isPrimaryKey change.1 = false := by
  intro change hchange
  obtain ⟨assignment, -, hassigned⟩ :=
    exists_mem_of_forall₂ (assignedColumns_eq_ok_iff.mp h) hchange
  obtain ⟨hresolve, hprimary, -⟩ := assignedColumn_eq_ok_iff.mp hassigned
  exact ⟨(TableDefinition.resolve_eq_ok_iff.mp hresolve).2, hprimary⟩

/-- The columns that an update may assign are changeable. -/
theorem changeable_of_assignedColumns {table : StoredTable} {assignments : List Assignment}
    {changes : List (Column × ColumnType × Assignment)}
    (h : table.assignedColumns assignments = .ok changes) : Changeable table.definition changes :=
  fun change hchange =>
    (resolved_of_assignedColumns h change hchange).imp_left fun htype => ⟨change.2.1, htype⟩

/-- An assignment gives a set or a map. -/
theorem storable_of_applyTo {assignment : Assignment} {type : ColumnType}
    {collection after : Value} (h : assignment.applyTo type collection = .ok after) :
    after.Storable := by
  rw [Assignment.applyTo.eq_def] at h
  split at h
  case h_1 _ value =>
    obtain ⟨bound, -, hbound⟩ := bind_ok_iff.mp h
    split at hbound <;> cases hbound <;> trivial
  case h_3 _ value =>
    obtain ⟨bound, -, hbound⟩ := bind_ok_iff.mp h
    split at hbound <;> cases hbound <;> trivial
  all_goals cases h <;> trivial

/-- The cell that an assignment leaves is storable. -/
theorem storable_of_cellAfter {assignment : Assignment} {type : ColumnType} {cell : Option Value}
    {value : Value} (h : assignment.cellAfter type cell = .ok (some value)) : value.Storable := by
  rw [Assignment.cellAfter] at h
  obtain ⟨collection, -, hrest⟩ := bind_ok_iff.mp h
  obtain ⟨after, happly, hcell⟩ := bind_ok_iff.mp hrest
  rw [Except.ok.injEq] at hcell
  have hafter := storable_of_applyTo happly
  cases after with
  | set s =>
    rw [Value.collectionCell] at hcell
    split at hcell <;> cases hcell
    exact hafter
  | map m =>
    rw [Value.collectionCell] at hcell
    split at hcell <;> cases hcell
    exact hafter
  | _ =>
    cases hcell
    exact hafter

/-- An assignment changes one cell, if it can, and then the others are made. -/
theorem assignCells_cons (cells : ColumnValues) (column : Column) (type : ColumnType)
    (assignment : Assignment) (rest : List (Column × ColumnType × Assignment)) :
    assignCells cells ((column, type, assignment) :: rest) =
      assignment.cellAfter type (cells.find? column) >>= fun kept =>
        assignCells (cells.keep column kept) rest := by
  rw [assignCells]
  cases assignment.cellAfter type (cells.find? column) with
  | error e => rfl
  | ok kept => cases kept <;> rfl

/-- What each assignment preserves of the cells holds of those that all of them leave. -/
theorem assignCells_induction {P : ColumnValues → Prop}
    {changes : List (Column × ColumnType × Assignment)} {cells after : ColumnValues}
    (h : assignCells cells changes = .ok after) (hcells : P cells)
    (hstep : ∀ change ∈ changes, ∀ cells kept, P cells →
      change.2.2.cellAfter change.2.1 (cells.find? change.1) = .ok kept →
      P (cells.keep change.1 kept)) : P after := by
  induction changes generalizing cells with
  | nil =>
    cases h
    exact hcells
  | cons change rest ih =>
    obtain ⟨hfirst, hrest⟩ := List.forall_mem_cons.mp hstep
    rw [assignCells_cons] at h
    obtain ⟨kept, hkept, h⟩ := bind_ok_iff.mp h
    exact ih h (hfirst cells kept hcells hkept) hrest

/-- Assignments keep cells fitting. -/
theorem assignCells_fits {d : TableDefinition}
    {changes : List (Column × ColumnType × Assignment)} (hchanges : Changeable d changes)
    {cells after : ColumnValues} (hcells : cells.Fits d)
    (h : assignCells cells changes = .ok after) : after.Fits d := by
  refine assignCells_induction (P := (·.Fits d)) h hcells
    fun change hchange before kept hbefore hkept => ?_
  refine hbefore.keep (hchanges change hchange).1 ?_
  rintro value rfl
  exact storable_of_cellAfter hkept

/-- Assignments leave the cells of other columns alone. -/
theorem find?_assignCells_of_not_assigned {changes : List (Column × ColumnType × Assignment)}
    {cells after : ColumnValues} (h : assignCells cells changes = .ok after) {column : Column}
    (hother : ∀ change ∈ changes, change.1 ≠ column) :
    after.find? column = cells.find? column := by
  refine assignCells_induction (P := fun after => after.find? column = cells.find? column) h rfl
    fun change hchange before kept hbefore _ => ?_
  rw [ColumnValues.find?_keep, if_neg (Ne.symm (hother change hchange)), hbefore]

/-- Assignments leave the cells of the primary key alone. -/
theorem find?_assignCells_of_primary {d : TableDefinition}
    {changes : List (Column × ColumnType × Assignment)} (hchanges : Changeable d changes)
    {cells after : ColumnValues} (h : assignCells cells changes = .ok after) {column : Column}
    (hprimary : d.isPrimaryKey column = true) : after.find? column = cells.find? column := by
  refine find?_assignCells_of_not_assigned h fun change hchange heq => ?_
  have hnot := (hchanges change hchange).2
  rw [heq, hprimary] at hnot
  cases hnot

/-- What an update is found to be about: the values of its equalities, their key, and what it
assigns. -/
theorem addressed_eq_ok_iff {table : StoredTable} {update : Update} {bound : ColumnValues}
    {key : RowKey} {changes : List (Column × ColumnType × Assignment)} :
    table.addressed update = .ok (bound, key, changes) ↔
      table.bindEqualities .updateNotByEquality .empty update.clauses = .ok bound ∧
      table.keyOf bound = .ok key ∧ table.assignedColumns update.assignments = .ok changes := by
  rw [addressed]
  constructor
  · intro h
    obtain ⟨found, hbind, h⟩ := bind_ok_iff.mp h
    obtain ⟨foundKey, hkey, h⟩ := bind_ok_iff.mp h
    obtain ⟨foundChanges, hchanges, h⟩ := bind_ok_iff.mp h
    cases h
    exact ⟨hbind, hkey, hchanges⟩
  · rintro ⟨hbind, hkey, hchanges⟩
    exact bind_ok_iff.mpr ⟨bound, hbind, bind_ok_iff.mpr ⟨key, hkey,
      bind_ok_iff.mpr ⟨changes, hchanges, rfl⟩⟩⟩

/-- The values that an update binds fit, and it changes other columns than those of their key. -/
theorem addressed_eq_ok {table : StoredTable} {update : Update} {bound : ColumnValues}
    {key : RowKey} {changes : List (Column × ColumnType × Assignment)}
    (h : table.addressed update = .ok (bound, key, changes)) :
    bound.Fits table.definition ∧ table.keyOf bound = .ok key ∧
      Changeable table.definition changes := by
  obtain ⟨hbind, hkey, hchanges⟩ := addressed_eq_ok_iff.mp h
  exact ⟨bindEqualities_fits hbind, hkey,
    changeable_of_assignedColumns hchanges⟩

/-- An update keeps a table coherent. -/
theorem Coherent.update {table changed : StoredTable} (h : table.Coherent) {update : Update}
    (happly : table.update update = .ok changed) : changed.Coherent := by
  obtain ⟨bound, key, changes, cells, haddressed, hcells, rfl⟩ := update_eq_ok_iff.mp happly
  obtain ⟨hbound, hkey, hchanges⟩ := addressed_eq_ok haddressed
  have hbefore : ((Bindings.find? key table.rows).getD ⟨bound, false⟩).Coherent
      table.definition key := by
    cases hfound : Bindings.find? key table.rows with
    | none =>
      refine ⟨hbound, StoredRow.eq_keyIn_of_keyOf hkey fun column value hvalue => ?_⟩
      rw [Option.getD_none, StoredRow.valueOf, hvalue, Option.getD_some]
    | some row => exact h.of_find? (storable_of_keyOf hbound hkey) hfound
  split
  · refine h.insert_row ⟨assignCells_fits hchanges hbefore.fits hcells, ?_⟩
    rw [hbefore.key_eq]
    refine StoredRow.keyIn_eq_iff.mpr fun column hprimary => ?_
    rw [StoredRow.valueOf, StoredRow.valueOf,
      find?_assignCells_of_primary hchanges hcells hprimary]
  · exact h.filter_rows _

/-- A delete keeps a table coherent. -/
theorem Coherent.delete {table changed : StoredTable} (h : table.Coherent) {delete : Delete}
    (happly : table.delete delete = .ok changed) : changed.Coherent := by
  obtain ⟨bound, -, -, rfl⟩ := delete_eq_ok_iff.mp happly
  exact h.filter_rows _

/-- Every statement keeps a table coherent. -/
theorem Coherent.apply {table changed : StoredTable} {statement : Statement} (h : table.Coherent)
    (happly : table.apply statement = .ok changed) : changed.Coherent := by
  cases statement with
  | insert statement => exact h.insert happly
  | update statement => exact h.update happly
  | delete statement => exact h.delete happly

end StoredTable

namespace Cluster

/-- Every table of a reachable cluster is coherent. -/
theorem Reachable.coherent {cluster : Cluster} (h : cluster.Reachable) {keyspace name : String}
    {table : StoredTable} (htable : cluster.table keyspace name = .ok table) : table.Coherent :=
  h.of_preserved (fun _ => ⟨List.Pairwise.nil, by simp⟩)
    (fun _ _ hcoherent => ⟨hcoherent.increasing, hcoherent.rows⟩)
    (fun _ _ _ hcoherent happly => hcoherent.apply happly) htable

/-- Every table is coherent after any requests to a reachable cluster. -/
theorem Reachable.coherent_run {world : World} (h : world.cluster.Reachable)
    (requests : List (String × Request)) {keyspace name : String} {table : StoredTable}
    (htable : (world.run requests).cluster.table keyspace name = .ok table) : table.Coherent := by
  have hall : ∀ keyspace, Keyspace.AllTables StoredTable.Coherent (world.cluster.tables keyspace) :=
    fun keyspace name table hfound => h.coherent (table_eq_ok_iff.mpr hfound)
  exact allTables_run (fun _ => ⟨List.Pairwise.nil, by simp⟩)
    (fun _ _ hcoherent => ⟨hcoherent.increasing, hcoherent.rows⟩)
    (fun _ _ _ hcoherent happly => hcoherent.apply happly) hall requests keyspace name table
    (table_eq_ok_iff.mp htable)

end Cluster

end WideGraph
