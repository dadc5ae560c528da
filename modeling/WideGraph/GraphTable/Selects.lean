import WideGraph.GraphTable.Basic
import WideGraph.Query.Basic
import WideGraph.Query.Compiled

/-!
# The selects of a query

A query becomes the selects whose answers, one after the other, answer it. Without identifiers there
is one. If identifiers decode into one column they share one select, and otherwise each has its
own, because a list of alternatives is not allowed on several key columns. The conditions and
orders of the query restrict and sort every select.
-/

namespace WideGraph

/-- The largest limit of a select. -/
def Select.maxLimit : Nat :=
  Int32.maxValue.toInt.toNat

/-- Do something fallible for each item, up to the first failure. -/
def mapExcept {ε α β : Type} (f : α → Except ε β) : List α → Except ε (List β)
  | [] => .ok []
  | a :: rest =>
    match f a with
    | .error e => .error e
    | .ok b => (mapExcept f rest).map (b :: ·)

namespace GraphTable

/-- The select with the orders and the limit of a query and no restriction. -/
def baseSelect (table : GraphTable) (query : Query) : Except BackendError Select :=
  if query.hasLimit && Select.maxLimit < query.limit.toNat then
    .error (.invalidArgument (.limitTooLarge query.limit table.name Select.maxLimit))
  else
    .ok {
      table := table.name
      orders := query.orders.map fun order => (order.1.nativeName, order.2)
      limit := if query.hasLimit then some query.limit.toNat else none }

/-- The selects that restrict a base select to the decoded identifiers. -/
def keyedSelects (table : GraphTable) (base : Select) (keys : List (List (Column × Value))) :
    List Select :=
  match keys, table.idColumns with
  | [], _ => [base]
  | _, [column] => [{ base with clauses := [.isIn column.nativeName (keys.flatten.map (·.2))] }]
  | _, _ => keys.map fun key =>
      { base with clauses := key.map fun part => Clause.eq part.1.nativeName part.2 }

/-- The select with compiled conditions added to its restrictions. -/
def restrict (select : Select) (conditions : List CompiledCondition) : Select :=
  { select with
    clauses := select.clauses ++ conditions.map (·.clause)
    allowFiltering := select.allowFiltering || conditions.any (·.allowFiltering) }

/-- The selects that answer a query. A limit of zero needs none. Otherwise the limit, the
identifiers, the number of selects and the conditions are checked in this order. -/
def selects (table : GraphTable) (query : Query) : Except BackendError (List Select) :=
  if query.isEmptyByLimit then .ok []
  else do
    let base ← table.baseSelect query
    let keys ← mapExcept table.idKeyValues query.ids
    let seeds := table.keyedSelects base keys
    let max := table.configuration.maxQueryStatements
    if max ≠ 0 ∧ max < seeds.length then
      .error (.invalidArgument (.tooManySelects table.name seeds.length max))
    else
      let conditions ← mapExcept (·.compile table.definition.partitionNames) query.conditions
      .ok (seeds.map (restrict · conditions))

end GraphTable

end WideGraph
