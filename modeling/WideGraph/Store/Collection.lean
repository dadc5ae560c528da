import WideGraph.Statement.Basic
import WideGraph.Store.Binding

/-!
# Changes of collection cells

An assignment adds to a collection or takes something out of it. A missing cell is the empty
collection of its column, and an empty collection is kept as a missing cell.
-/

namespace WideGraph

/-- The collection that an assignment starts from; only collection columns have one. -/
def ColumnType.collectionOf (type : ColumnType) (cell : Option Value) :
    Except StoreError Value :=
  match type, cell with
  | .textSet, none => .ok (.set .empty)
  | .textMap, none => .ok (.map .empty)
  | .textSet, some value => .ok value
  | .textMap, some value => .ok value
  | other, _ => .error (.notACollection other)

/-- The collection after an assignment. -/
def Assignment.applyTo (assignment : Assignment) (type : ColumnType) (collection : Value) :
    Except StoreError Value :=
  match collection, assignment with
  | .set s, .append _ value => do
    match ← type.bind value with
    | .set items => .ok (.set (s.union items))
    | other => .ok (.set (s.insert other.plain))
  | .map m, .append _ (.map pairs) => .ok (.map (m.override pairs))
  | .set s, .removeAll _ value => do
    match ← type.bind value with
    | .set items => .ok (.set (s.diff items))
    | _ => .ok (.set s)
  | .map m, .removeAll _ (.set keys) => .ok (.map (m.eraseKeys keys))
  | .set s, .remove _ value => .ok (.set (s.erase value.plain))
  | .map m, .remove _ value => .ok (.map (m.erase value.plain))
  | _, assignment => .error (.invalidAssignment assignment.column type)

/-- The cell that keeps a collection, none for an empty one. -/
def Value.collectionCell : Value → Option Value
  | .set s => if s.isEmpty then none else some (.set s)
  | .map m => if m.isEmpty then none else some (.map m)
  | value => some value

/-- The cell after an assignment. -/
def Assignment.cellAfter (assignment : Assignment) (type : ColumnType) (cell : Option Value) :
    Except StoreError (Option Value) := do
  let collection ← type.collectionOf cell
  .ok (← assignment.applyTo type collection).collectionCell

end WideGraph
