import WideGraph.BackendError
import WideGraph.Row
import WideGraph.Schema.ColumnValues
import WideGraph.Schema.ElementKind

/-!
# Entries

An entry is an element of the graph on its way to or from its table: columns by key, and perhaps an
identifier. Rows of a store become entries and entries become rows; in between, names are folded to
the columns they stand for. A vertex that is read with its edges carries them below itself.
-/

namespace WideGraph

/-- The columns of one element, and its identifier if it is known. -/
structure EntryRow where
  kind : ElementKind
  id : Option Identifier := none
  columns : ColumnValues := .empty
deriving DecidableEq

/-- An element with the rows that belong to it. -/
structure Entry where
  row : EntryRow
  subRows : List EntryRow := []
deriving DecidableEq

namespace EntryRow

/-- The row with one column set. -/
def set (row : EntryRow) (column : Column) (value : Value) : EntryRow :=
  { row with columns := row.columns.set column value }

/-- The value of a column. -/
def find? (row : EntryRow) (column : Column) : Option Value :=
  row.columns.find? column

/-- The text of a column, if its value is a text. -/
def text? (row : EntryRow) (column : Column) : Option String :=
  (row.find? column).bind Value.text?

/-- Whether the row has any column. -/
def hasColumns (row : EntryRow) : Bool :=
  !row.columns.isEmpty

/-- The columns as named values, in column order. -/
def assignments (row : EntryRow) : List (String × Value) :=
  row.columns.bindings.map fun b => (b.1.nativeName, b.2)

/-- The row with every named value set; the first name that is no column's is reported. -/
def setNamed (table : String) (row : EntryRow) :
    List (String × Value) → Except BackendError EntryRow
  | [] => .ok row
  | (name, value) :: rest =>
    match Column.ofName? name with
    | none => .error (.unknownColumn table name)
    | some column => setNamed table (row.set column value) rest

end EntryRow

/-- The entry of a stored row; of columns with one name the last counts. -/
def Entry.ofRow (kind : ElementKind) (table : String) (row : Row) : Except BackendError Entry :=
  (EntryRow.setNamed table { kind } row.columns).map fun entryRow => { row := entryRow }

end WideGraph
