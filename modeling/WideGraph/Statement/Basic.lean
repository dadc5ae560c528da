import WideGraph.Statement.Clause

/-!
# Statements

A select reads rows of one table; an insert, update or delete changes them. Each has one text with
markers for the values that are bound to it.
-/

namespace WideGraph

/-- The direction in which a column orders rows. -/
inductive SortOrder where
  | ascending
  | descending
deriving DecidableEq, Repr

/-- The word for a sort order in a statement. -/
def SortOrder.word : SortOrder → String
  | .ascending => "ASC"
  | .descending => "DESC"

/-- A request for rows of one table. -/
structure Select where
  table : String
  clauses : List Clause := []
  orders : List (String × SortOrder) := []
  limit : Option Nat := none
  allowFiltering : Bool := false
deriving DecidableEq

/-- The text of a select. -/
def Select.bound (select : Select) : BoundText :=
  let orders := select.orders.map fun order => order.1 ++ " " ++ order.2.word
  .plain ("SELECT * FROM " ++ select.table) ++ whereText select.clauses ++
    .plain ((if orders = [] then "" else " ORDER BY " ++ ", ".intercalate orders) ++
      (match select.limit with | some limit => " LIMIT " ++ toString limit | none => "") ++
      (if select.allowFiltering then " ALLOW FILTERING" else "") ++ ";")

/-- A row to be written whole. -/
structure Insert where
  table : String
  values : List (String × Value)
deriving DecidableEq

/-- The text of an insert. -/
def Insert.bound (insert : Insert) : BoundText :=
  ⟨"INSERT INTO " ++ insert.table ++ " (" ++ ", ".intercalate (insert.values.map (·.1)) ++
    ") VALUES (" ++ markers insert.values ++ ");", insert.values.map (·.2)⟩

/-- A change of one collection column. -/
inductive Assignment where
  /-- Add elements to a set or pairs to a map. -/
  | append (column : String) (value : Value)
  /-- Take the elements of a set out of a set, or as keys out of a map. -/
  | removeAll (column : String) (value : Value)
  /-- Take one element or key out. -/
  | remove (column : String) (value : Value)
deriving DecidableEq

namespace Assignment

/-- The column that an assignment changes. -/
def column : Assignment → String
  | .append column _ | .removeAll column _ | .remove column _ => column

/-- The text of an assignment. -/
def bound : Assignment → BoundText
  | .append column value => ⟨column ++ " = " ++ column ++ " + ?", [value]⟩
  | .removeAll column value => ⟨column ++ " = " ++ column ++ " - ?", [value]⟩
  | .remove column value => ⟨column ++ " = " ++ column ++ " - \x7b?\x7d", [value]⟩

end Assignment

/-- Changes of collections in the row that the clauses address. -/
structure Update where
  table : String
  assignments : List Assignment
  clauses : List Clause
deriving DecidableEq

/-- The text of an update. -/
def Update.bound (update : Update) : BoundText :=
  .plain ("UPDATE " ++ update.table ++ " SET ") ++
    .joined ", " (update.assignments.map Assignment.bound) ++ whereText update.clauses ++
    .plain ";"

/-- The removal of every row that the clauses match. -/
structure Delete where
  table : String
  clauses : List Clause
deriving DecidableEq

/-- The text of a delete. -/
def Delete.bound (delete : Delete) : BoundText :=
  .plain ("DELETE FROM " ++ delete.table) ++ whereText delete.clauses ++ .plain ";"

/-- A change of one table. -/
inductive Statement where
  | insert (insert : Insert)
  | update (update : Update)
  | delete (delete : Delete)
deriving DecidableEq

namespace Statement

/-- The table that a statement changes. -/
def table : Statement → String
  | .insert s => s.table
  | .update s => s.table
  | .delete s => s.table

/-- The text of a statement. -/
def bound : Statement → BoundText
  | .insert s => s.bound
  | .update s => s.bound
  | .delete s => s.bound

end Statement

end WideGraph
