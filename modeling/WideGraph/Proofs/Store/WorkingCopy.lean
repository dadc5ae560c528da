import WideGraph.Proofs.Fallible
import WideGraph.Proofs.Order.StorableValue
import WideGraph.Store.Cluster

/-!
# Batches run in place on a working copy

A store may change its tables in place, write by write, as a batch goes on. An update that fails
half-way then leaves a created row or a lost cell behind. The functions here keep what a run leaves
behind whether or not it fails, and a commit over a copy throws that away on failure. It comes to
the same as the commit that only ever sees whole statements.
-/

namespace WideGraph

namespace Bindings

variable {κ α : Type} [Ord κ]

/-- Of two insertions under one key only the second is left. -/
theorem insert_insert {k : κ} (hk : compare k k = .eq) (a b : α) (bindings : List (κ × α)) :
    insert k b (insert k a bindings) = insert k b bindings := by
  induction bindings with
  | nil => simp [insert, hk]
  | cons head rest ih =>
    obtain ⟨k', a'⟩ := head
    cases hcmp : compare k k' with
    | lt => simp [insert, hcmp, hk]
    | eq => simp [insert, hcmp]
    | gt => simp [insert, hcmp, ih]

/-- An erasure undoes an insertion under its key. -/
theorem erase_insert {k : κ} (hk : compare k k = .eq) (a : α) (bindings : List (κ × α)) :
    erase k (insert k a bindings) = erase k bindings := by
  induction bindings with
  | nil => simp [insert, erase, hk]
  | cons head rest ih =>
    obtain ⟨k', a'⟩ := head
    rw [erase, erase] at ih
    cases hcmp : compare k k' with
    | lt => simp [insert, erase, hcmp, hk]
    | eq => simp [insert, erase, hcmp]
    | gt => simp [insert, erase, hcmp, ih]

end Bindings

/-- To take a cell out and write it again is to write it. -/
theorem ColumnValues.set_erase (values : ColumnValues) (column : Column) (value : Value) :
    (values.erase column).set column value = values.set column value := by
  refine ColumnValues.eq_of_find? fun other => ?_
  by_cases h : other = column <;> simp [h]

namespace StoredTable

/-- What an update is found to be about before anything is written: the bound values, the key made
of them and the changes of columns. -/
def addressed (table : StoredTable) (update : Update) :
    Except StoreError (ColumnValues × RowKey × List (Column × ColumnType × Assignment)) := do
  let bound ← table.bindEqualities .updateNotByEquality .empty update.clauses
  let key ← table.keyOf bound
  let changes ← table.assignedColumns update.assignments
  .ok (bound, key, changes)

/-- The cells that assignments leave behind. Each takes its cell out before it works on it, so that
a failing one loses the cell. -/
def assignInPlace (cells : ColumnValues) :
    List (Column × ColumnType × Assignment) → Except StoreError Unit × ColumnValues
  | [] => (.ok (), cells)
  | (column, type, assignment) :: rest =>
    match assignment.cellAfter type (cells.find? column) with
    | .error e => (.error e, cells.erase column)
    | .ok none => assignInPlace (cells.erase column) rest
    | .ok (some value) => assignInPlace ((cells.erase column).set column value) rest

/-- The table that an update leaves behind. The row is there as soon as its key is known, and goes
again at the very end if nothing but its key is left. -/
def updateInPlace (table : StoredTable) (update : Update) : Except StoreError Unit × StoredTable :=
  match table.addressed update with
  | .error e => (.error e, table)
  | .ok (bound, key, changes) =>
    let row := (Bindings.find? key table.rows).getD ⟨bound, false⟩
    let (result, cells) := assignInPlace row.cells changes
    let touched := Bindings.insert key ⟨cells, row.inserted⟩ table.rows
    match result with
    | .error e => (.error e, { table with rows := touched })
    | .ok () =>
      if row.inserted || table.hasDataCell cells then (.ok (), { table with rows := touched })
      else (.ok (), { table with rows := Bindings.erase key touched })

/-- The table that a statement leaves behind. Inserts and deletes write nothing before everything
that can fail is done. -/
def applyInPlace (table : StoredTable) (statement : Statement) :
    Except StoreError Unit × StoredTable :=
  match statement with
  | .update update => table.updateInPlace update
  | statement =>
    match table.apply statement with
    | .error e => (.error e, table)
    | .ok changed => (.ok (), changed)

/-- Assignments in place fail as the pure ones do, and otherwise leave the same cells. -/
theorem assignInPlace_eq (cells : ColumnValues)
    (changes : List (Column × ColumnType × Assignment)) :
    (∃ e, assignCells cells changes = .error e ∧ (assignInPlace cells changes).1 = .error e) ∨
      ∃ after, assignCells cells changes = .ok after ∧
        assignInPlace cells changes = (.ok (), after) := by
  induction changes generalizing cells with
  | nil => exact .inr ⟨cells, rfl, rfl⟩
  | cons change rest ih =>
    obtain ⟨column, type, assignment⟩ := change
    rw [assignCells, assignInPlace]
    cases assignment.cellAfter type (cells.find? column) with
    | error e => exact .inl ⟨e, rfl, rfl⟩
    | ok cell =>
      cases cell with
      | none => exact ih (cells.erase column)
      | some value =>
        dsimp only
        rw [ColumnValues.set_erase]
        exact ih (cells.set column value)

/-- An update first finds out what it is about. -/
theorem update_eq (table : StoredTable) (update : Update) :
    table.update update = (do
      let (bound, key, changes) ← table.addressed update
      let row := (Bindings.find? key table.rows).getD ⟨bound, false⟩
      let cells ← assignCells row.cells changes
      if row.inserted || table.hasDataCell cells then
        .ok { table with rows := Bindings.insert key ⟨cells, row.inserted⟩ table.rows }
      else .ok { table with rows := Bindings.erase key table.rows }) := by
  rw [StoredTable.update, addressed]
  cases table.bindEqualities .updateNotByEquality .empty update.clauses with
  | error e => rfl
  | ok bound =>
    cases hkey : table.keyOf bound with
    | error e => simp [bind, Except.bind, hkey]
    | ok key => cases table.assignedColumns update.assignments <;> simp [bind, Except.bind, hkey]

/-- An update in place fails as the pure one does, and otherwise leaves the same table. -/
theorem updateInPlace_eq (table : StoredTable) (update : Update) :
    (∃ e, table.update update = .error e ∧ (table.updateInPlace update).1 = .error e) ∨
      ∃ after, table.update update = .ok after ∧ table.updateInPlace update = (.ok (), after) := by
  rw [update_eq, updateInPlace]
  cases table.addressed update with
  | error e => exact .inl ⟨e, rfl, rfl⟩
  | ok found =>
    obtain ⟨bound, key, changes⟩ := found
    simp only [bind, Except.bind]
    generalize (Bindings.find? key table.rows).getD ⟨bound, false⟩ = row
    obtain ⟨e, hpure, hplace⟩ | ⟨cells, hpure, hplace⟩ := assignInPlace_eq row.cells changes
    · exact .inl ⟨e, by rw [hpure], by rw [hplace]⟩
    · rw [hpure, hplace]
      by_cases hkept : (row.inserted || table.hasDataCell cells) = true
      · exact .inr ⟨_, if_pos hkept, if_pos hkept⟩
      · refine .inr ⟨_, if_neg hkept, ?_⟩
        dsimp only
        rw [if_neg hkept, Bindings.erase_insert (RowKey.order_self key)]

/-- A statement in place fails as the pure one does, and otherwise leaves the same table. -/
theorem applyInPlace_eq (table : StoredTable) (statement : Statement) :
    (∃ e, table.apply statement = .error e ∧ (table.applyInPlace statement).1 = .error e) ∨
      ∃ after, table.apply statement = .ok after ∧
        table.applyInPlace statement = (.ok (), after) := by
  cases statement with
  | update update => exact table.updateInPlace_eq update
  | insert insert =>
    simp only [applyInPlace]
    cases table.apply (.insert insert) with
    | error e => exact .inl ⟨e, rfl, rfl⟩
    | ok after => exact .inr ⟨after, rfl, rfl⟩
  | delete delete =>
    simp only [applyInPlace]
    cases table.apply (.delete delete) with
    | error e => exact .inl ⟨e, rfl, rfl⟩
    | ok after => exact .inr ⟨after, rfl, rfl⟩

end StoredTable

namespace Keyspace

/-- The tables that a batch leaves behind when its statements run in place, up to the first that
fails. -/
def runInPlace (tables : Keyspace) : List Statement → Except StoreError Unit × Keyspace
  | [] => (.ok (), tables)
  | statement :: rest =>
    match Bindings.find? statement.table tables with
    | none => (.error (.unconfiguredTable statement.table), tables)
    | some table =>
      match table.applyInPlace statement with
      | (.error e, touched) => (.error e, Bindings.insert statement.table touched tables)
      | (.ok (), changed) => runInPlace (Bindings.insert statement.table changed tables) rest

/-- A batch in place fails as the pure one does, and otherwise leaves the same tables. -/
theorem runInPlace_eq (tables : Keyspace) (batch : List Statement) :
    (∃ e, tables.applyBatch batch = .error e ∧ (runInPlace tables batch).1 = .error e) ∨
      ∃ after, tables.applyBatch batch = .ok after ∧ runInPlace tables batch = (.ok (), after) := by
  induction batch generalizing tables with
  | nil => exact .inr ⟨tables, rfl, rfl⟩
  | cons statement rest ih =>
    rw [applyBatch, applyStatement, runInPlace]
    cases Bindings.find? statement.table tables with
    | none => exact .inl ⟨_, rfl, rfl⟩
    | some table =>
      dsimp only
      obtain ⟨e, hpure, hplace⟩ | ⟨after, hpure, hplace⟩ := table.applyInPlace_eq statement
      · refine .inl ⟨e, by rw [hpure]; rfl, ?_⟩
        cases happly : table.applyInPlace statement with
        | mk result touched =>
          rw [happly] at hplace
          change result = .error e at hplace
          rw [hplace]
      · rw [hpure, hplace]
        exact ih (Bindings.insert statement.table after tables)

end Keyspace

/-- The commit that runs the batch in place on a copy of the tables, which replaces them only if
every statement has gone through. -/
def Connection.commitOverCopy (c : Connection) : Except StoreError Nat × Connection :=
  match Keyspace.runInPlace c.tables c.session.batch with
  | (.error e, _) => (.error e, c.rollback)
  | (.ok (), copy) =>
    (.ok c.session.batch.length,
      { c.rollback with cluster := c.cluster.setTables c.session.keyspace copy })

/-- A commit comes to the same as one that runs in place on a copy. -/
theorem Connection.commit_eq_commitOverCopy (c : Connection) : c.commit = c.commitOverCopy := by
  rw [commit, commitOverCopy]
  obtain ⟨e, hpure, hplace⟩ | ⟨after, hpure, hplace⟩ :=
    Keyspace.runInPlace_eq c.tables c.session.batch
  · cases hrun : Keyspace.runInPlace c.tables c.session.batch with
    | mk result touched =>
      rw [hrun] at hplace
      change result = .error e at hplace
      rw [hpure, hplace]
  · rw [hpure, hplace]

end WideGraph
