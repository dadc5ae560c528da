import WideGraph.Schema.Definition
import WideGraph.StoreError
import WideGraph.Value.Written

/-!
# Values bound to columns

A value that a statement gives for a column is turned into the form in which the column keeps it:
a whole number becomes a decimal and a list a set of texts. A collection column also takes a plain
text, which stands for one of its elements.
-/

namespace WideGraph

/-- The form in which a column of a type keeps a value. -/
def ColumnType.bind (type : ColumnType) (value : Value) : Except StoreError Value :=
  match type, value with
  | _, .null => .ok .null
  | .text, .text t => .ok (.text t)
  | .decimal, .decimal x => .ok (.decimal x)
  | .decimal, .bigint n => .ok (.decimal (Binary64.ofInt n.toInt))
  | .textSet, .set s => .ok (.set s)
  | .textSet, .list items => .ok (.set (.ofList (items.map Value.plain)))
  | .textMap, .map m => .ok (.map m)
  | .textSet, .text t => .ok (.text t)
  | .textMap, .text t => .ok (.text t)
  | type, value => .error (.invalidValue value.kindName type)

namespace TableDefinition

/-- The declared column with a name in any letter case, and its type. -/
def resolve (d : TableDefinition) (name : String) : Except StoreError (Column × ColumnType) :=
  match (Column.ofName? name).bind fun column => (d.typeOf? column).map (column, ·) with
  | some found => .ok found
  | none => .error (.undefinedColumn name d.name)

/-- The declared column with a name, and the form in which it keeps a value. -/
def bind (d : TableDefinition) (name : String) (value : Value) :
    Except StoreError (Column × Value) := do
  let (column, type) ← d.resolve name
  .ok (column, ← type.bind value)

end TableDefinition

end WideGraph
