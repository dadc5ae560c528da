import WideGraph.Store.Collection
import WideGraph.Store.Table

/-!
# Applying statements

An insert writes the row under its key and marks it as written whole. An update changes collection
cells of the addressed row, which it creates if need be and removes again if nothing but its key is
left. A delete removes every row whose cells are the same as all bound values.
-/

namespace WideGraph.StoredTable

/-- Bind the values of equality clauses one after the other; the first other clause fails with the
given error. -/
def bindEqualities (table : StoredTable) (otherwise : StoreError) (bound : ColumnValues) :
    List Clause → Except StoreError ColumnValues
  | [] => .ok bound
  | .compare .eq name value :: rest =>
    match table.definition.bind name value with
    | .error e => .error e
    | .ok (column, value) => table.bindEqualities otherwise (bound.set column value) rest
  | _ :: _ => .error otherwise

/-- The cells with bound values written over them; a null takes its cell away. -/
def writeCells (cells : ColumnValues) (bound : ColumnValues) : ColumnValues :=
  bound.bindings.foldl
    (fun cells b => if b.2.isNull then cells.erase b.1 else cells.set b.1 b.2) cells

/-- The table after an insert. -/
def insert (table : StoredTable) (insert : Insert) : Except StoreError StoredTable := do
  let bound ← table.bindAll .empty insert.values
  let key ← table.keyOf bound
  let row := (Bindings.find? key table.rows).getD {}
  .ok { table with
    rows := Bindings.insert key ⟨writeCells row.cells bound, true⟩ table.rows }

/-- The columns and types that assignments change; key columns may not be changed. -/
def assignedColumns (table : StoredTable) :
    List Assignment → Except StoreError (List (Column × ColumnType × Assignment))
  | [] => .ok []
  | assignment :: rest =>
    match table.definition.resolve assignment.column with
    | .error e => .error e
    | .ok (column, type) =>
      if table.definition.isPrimaryKey column then .error (.keyPartAssigned column)
      else (table.assignedColumns rest).map ((column, type, assignment) :: ·)

/-- The cells after assignments have been applied one after the other. -/
def assignCells (cells : ColumnValues) :
    List (Column × ColumnType × Assignment) → Except StoreError ColumnValues
  | [] => .ok cells
  | (column, type, assignment) :: rest =>
    match assignment.cellAfter type (cells.find? column) with
    | .error e => .error e
    | .ok none => assignCells (cells.erase column) rest
    | .ok (some value) => assignCells (cells.set column value) rest

/-- Whether a row has a cell outside its key. -/
def hasDataCell (table : StoredTable) (cells : ColumnValues) : Bool :=
  cells.columns.any fun column => !table.definition.isPrimaryKey column

/-- The table after an update. -/
def update (table : StoredTable) (update : Update) : Except StoreError StoredTable := do
  let bound ← table.bindEqualities .updateNotByEquality .empty update.clauses
  let key ← table.keyOf bound
  let changes ← table.assignedColumns update.assignments
  let row := (Bindings.find? key table.rows).getD ⟨bound, false⟩
  let cells ← assignCells row.cells changes
  if row.inserted || table.hasDataCell cells then
    .ok { table with rows := Bindings.insert key ⟨cells, row.inserted⟩ table.rows }
  else .ok { table with rows := Bindings.erase key table.rows }

/-- Whether a row has the same value as a cell for every bound column. -/
def hasCells (row : StoredRow) (bound : ColumnValues) : Bool :=
  bound.bindings.all fun b => (row.cells.find? b.1).any (·.same b.2)

/-- The table after a delete. -/
def delete (table : StoredTable) (delete : Delete) : Except StoreError StoredTable := do
  let bound ← table.bindEqualities .deleteNotByEquality .empty delete.clauses
  if bound.isEmpty then .error .deleteUnrestricted
  else .ok { table with rows := table.rows.filter fun row => !hasCells row.2 bound }

/-- The table after a statement. -/
def apply (table : StoredTable) : Statement → Except StoreError StoredTable
  | .insert statement => table.insert statement
  | .update statement => table.update statement
  | .delete statement => table.delete statement

end WideGraph.StoredTable
