import WideGraph.Schema.ColumnValues
import WideGraph.Store.Binding
import WideGraph.Store.Token

/-!
# Stored tables

A stored table has a definition, the indexes that were created on it, and rows in the order of
their keys: by token, then by partition key, then by clustering key. A row remembers whether it was
written whole; otherwise it lasts only as long as it has a cell outside its key.
-/

namespace WideGraph

/-- The place of a row in its table. -/
structure RowKey where
  token : Int64
  partition : List Value
  clustering : List Value
deriving DecidableEq

namespace RowKey

/-- Row keys in the order of token, partition and clustering. -/
def order (a b : RowKey) : Ordering :=
  (compare a.token b.token).then
    ((Value.orderLists a.partition b.partition).then
      (Value.orderLists a.clustering b.clustering))

instance : Ord RowKey := ⟨RowKey.order⟩

end RowKey

/-- The cells of a row, and whether the row was written whole. -/
structure StoredRow where
  cells : ColumnValues := .empty
  inserted : Bool := false
deriving DecidableEq

/-- A table with its rows. -/
structure StoredTable where
  definition : TableDefinition
  indexes : List (String × Column) := []
  rows : List (RowKey × StoredRow) := []
deriving DecidableEq

namespace StoredRow

/-- The value of a column, null where there is no cell. -/
def valueOf (row : StoredRow) (column : Column) : Value :=
  (row.cells.find? column).getD .null

end StoredRow

namespace StoredTable

/-- Whether an index was created on a column. -/
def isIndexed (table : StoredTable) (column : Column) : Bool :=
  table.indexes.any fun index => index.2 == column

/-- The values of key columns, in the given order; the first missing one is reported. -/
def keyPart (values : ColumnValues) : List Column → Except StoreError (List Value)
  | [] => .ok []
  | column :: rest =>
    match values.find? column with
    | none => .error (.missingKeyPart column)
    | some value => (keyPart values rest).map (value :: ·)

/-- The key of the row with the given values. -/
def keyOf (table : StoredTable) (values : ColumnValues) : Except StoreError RowKey := do
  let partition ← keyPart values table.definition.partitionColumns
  let clustering ← keyPart values table.definition.clusteringColumns
  .ok ⟨partitionToken partition, partition, clustering⟩

/-- Bind named values to the columns of the table; of values for one column the last counts. -/
def bindAll (table : StoredTable) (bound : ColumnValues) :
    List (String × Value) → Except StoreError ColumnValues
  | [] => .ok bound
  | (name, value) :: rest =>
    match table.definition.bind name value with
    | .error e => .error e
    | .ok (column, value) => table.bindAll (bound.set column value) rest

/-- The sum of some numbers of bytes. -/
def totalBytes : List Nat → Nat
  | [] => 0
  | n :: rest => n + totalBytes rest

mutual

/-- The bytes that a value takes. -/
def valueBytes : Value → Nat
  | .null => 0
  | .text t => t.utf8ByteSize
  | .bigint _ => 8
  | .decimal _ => 8
  | .set s => totalBytes (s.toList.map String.utf8ByteSize)
  | .map m => totalBytes (m.bindings.map fun b => b.1.utf8ByteSize + b.2.utf8ByteSize)
  | .list items => itemBytes items

/-- The bytes that several values take together. -/
def itemBytes : List Value → Nat
  | [] => 0
  | item :: rest => valueBytes item + itemBytes rest

end

/-- The bytes that the cells of all rows take, with the names of their columns. -/
def byteSize (table : StoredTable) : Nat :=
  totalBytes (table.rows.flatMap fun row => row.2.cells.bindings.map fun cell =>
    cell.1.nativeName.utf8ByteSize + valueBytes cell.2)

end StoredTable

end WideGraph
