import WideGraph.Query.Condition
import WideGraph.Schema.ElementKind
import WideGraph.Statement.Basic

/-!
# Queries for graph elements

A query asks for elements of one kind by their identifiers and by conditions that all have to
hold. It is built up one part at a time: an identifier or a condition that is there already is not
added again, and ordering a column again replaces the direction where it stands.
-/

namespace WideGraph

/-- The limit that stands for none. -/
def Query.noLimit : UInt64 :=
  UInt64.ofNat (UInt64.size - 1)

/-- A request for elements of one kind. -/
structure Query where
  kind : ElementKind
  ids : List Identifier := []
  conditions : List Condition := []
  orders : List (Column × SortOrder) := []
  limit : UInt64 := Query.noLimit
  offset : UInt64 := 0

namespace Query

/-- The query for every element of a kind. -/
def all (kind : ElementKind) : Query :=
  { kind }

/-- Ask for one more identifier. -/
def withId (query : Query) (id : Identifier) : Query :=
  if query.ids.contains id then query else { query with ids := query.ids ++ [id] }

/-- Ask for several identifiers. -/
def withIds (query : Query) (ids : List Identifier) : Query :=
  ids.foldl withId query

/-- Ask that one more condition holds. -/
def withCondition (query : Query) (condition : Condition) : Query :=
  if query.conditions.any (·.same condition) then query
  else { query with conditions := query.conditions ++ [condition] }

/-- The orders after a column has been ordered once more. -/
def setOrder (column : Column) (order : SortOrder) :
    List (Column × SortOrder) → List (Column × SortOrder)
  | [] => [(column, order)]
  | (c, o) :: rest =>
    if c = column then (c, order) :: rest else (c, o) :: setOrder column order rest

/-- Order the answers by a column. -/
def orderedBy (query : Query) (column : Column) (order : SortOrder) : Query :=
  { query with orders := setOrder column order query.orders }

/-- Ask for at most this many rows. -/
def withLimit (query : Query) (limit : UInt64) : Query :=
  { query with limit }

/-- Ask to skip this many rows. -/
def withOffset (query : Query) (offset : UInt64) : Query :=
  { query with offset }

/-- Whether the number of rows is limited. -/
def hasLimit (query : Query) : Bool :=
  query.limit != noLimit

/-- Whether the query asks for no rows at all. -/
def isEmptyByLimit (query : Query) : Bool :=
  query.limit == 0 && query.hasLimit

/-- A part of a query's text, left out when there is nothing to list. -/
def listedPart (label : String) (items : List String) : String :=
  if items = [] then "" else " " ++ label ++ "=[" ++ ", ".intercalate items ++ "]"

/-- A query as it is shown in messages. -/
def shown (query : Query) : String :=
  "Query for " ++ query.kind.name ++
    listedPart "ids" (query.ids.map fun id => Text.quoted id.text) ++
    listedPart "conditions" (query.conditions.map Condition.tagged) ++
    listedPart "orders" (query.orders.map fun o => "(" ++ o.1.tag ++ ", " ++ Text.camelCase o.2.word ++ ")") ++
    (if query.hasLimit then " limit=" ++ toString query.limit.toNat else "") ++
    (if query.offset = 0 then "" else " offset=" ++ toString query.offset.toNat)

end Query

end WideGraph
