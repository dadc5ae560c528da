import WideGraph.Statement.Basic
import WideGraph.Row
import WideGraph.Store.Table
import WideGraph.Sorting
import WideGraph.Text.Numeral

/-!
# Answering selects

A select is first checked against the definition and the indexes of its table, and then answered:
the rows that match every clause, sorted stably by the ordered columns, as many as the limit
admits. A comparison with a missing cell is false. Values are bound to their columns when a row is
looked at, and a conjunction stops at the first clause that does not match.
-/

namespace WideGraph.StoredTable

/-- Refuse a restriction that is answered neither by the key nor by an index, unless filtering is
allowed. -/
def requireAccess (allowed : Bool) : Except StoreError Unit :=
  if allowed then .ok () else .error .filteringRequired

/-- Check one clause that is no conjunction. -/
def checkLeaf (table : StoredTable) (allowFiltering : Bool) (leaf : Clause) :
    Except StoreError Unit :=
  match leaf with
  | .tokenAtLeast columns _ | .tokenBelow columns _ =>
    if columns = table.definition.partitionNames then .ok ()
    else .error (.tokenArguments table.definition.name)
  | .containsKey name _ => do
    let (column, type) ← table.definition.resolve name
    if type ≠ .textMap then .error (.containsKeyOnNonMap name)
    else requireAccess (allowFiltering || table.isIndexed column)
  | .compare _ name _ | .isIn name _ => do
    let (column, _) ← table.definition.resolve name
    requireAccess
      (allowFiltering || table.definition.isPrimaryKey column || table.isIndexed column)
  | .and _ _ => .ok ()

/-- Check clauses one after the other, up to the first fault. -/
def checkLeaves (table : StoredTable) (allowFiltering : Bool) : List Clause → Except StoreError Unit
  | [] => .ok ()
  | leaf :: rest =>
    match table.checkLeaf allowFiltering leaf with
    | .error e => .error e
    | .ok () => table.checkLeaves allowFiltering rest

/-- Whether a value is among the bound forms of some values, which are bound up to the first that
is the same. -/
def isAmong (type : ColumnType) (current : Value) : List Value → Except StoreError Bool
  | [] => .ok false
  | value :: rest =>
    match type.bind value with
    | .error e => .error e
    | .ok bound => if bound.same current then .ok true else isAmong type current rest

/-- The token that a literal writes. -/
def tokenOf (literal : String) : Except StoreError Int64 :=
  match Text.wordLiteral? literal with
  | some token => .ok token
  | none => .error (.invalidToken literal)

/-- Whether a row matches a clause. -/
def rowMatches (table : StoredTable) (key : RowKey) (row : StoredRow) :
    Clause → Except StoreError Bool
  | .compare comparison name value => do
    let (column, type) ← table.definition.resolve name
    let current := row.valueOf column
    let expected ← type.bind value
    .ok (!current.isNull && comparison.accepts (current.order expected))
  | .isIn name values => do
    let (column, type) ← table.definition.resolve name
    isAmong type (row.valueOf column) values
  | .containsKey name value => do
    let (column, _) ← table.definition.resolve name
    match row.valueOf column with
    | .map m => .ok (m.containsKey value.plain)
    | _ => .ok false
  | .tokenAtLeast _ literal => do
    .ok (decide ((← tokenOf literal) ≤ key.token))
  | .tokenBelow _ literal => do
    .ok (decide (key.token < (← tokenOf literal)))
  | .and left right =>
    match table.rowMatches key row left with
    | .error e => .error e
    | .ok false => .ok false
    | .ok true => table.rowMatches key row right

/-- Whether a row matches every clause. -/
def rowMatchesAll (table : StoredTable) (key : RowKey) (row : StoredRow) :
    List Clause → Except StoreError Bool
  | [] => .ok true
  | clause :: rest =>
    match table.rowMatches key row clause with
    | .error e => .error e
    | .ok false => .ok false
    | .ok true => table.rowMatchesAll key row rest

/-- The rows that match every clause, in table order. -/
def matchingRows (table : StoredTable) (clauses : List Clause) :
    List (RowKey × StoredRow) → Except StoreError (List StoredRow)
  | [] => .ok []
  | (key, row) :: rest =>
    match table.rowMatchesAll key row clauses with
    | .error e => .error e
    | .ok true => (table.matchingRows clauses rest).map (row :: ·)
    | .ok false => table.matchingRows clauses rest

/-- The columns that order an answer; only clustering keys may. -/
def orderColumns (table : StoredTable) :
    List (String × SortOrder) → Except StoreError (List (Column × SortOrder))
  | [] => .ok []
  | (name, order) :: rest =>
    match table.definition.resolve name with
    | .error e => .error e
    | .ok (column, _) =>
      if table.definition.isClusteringKey column then
        (table.orderColumns rest).map ((column, order) :: ·)
      else .error (.orderOutsideClustering name)

/-- Rows in the order of several columns, the first of which decides first. -/
def compareRows (a b : StoredRow) : List (Column × SortOrder) → Ordering
  | [] => .eq
  | (column, .ascending) :: rest =>
    ((a.valueOf column).order (b.valueOf column)).then (compareRows a b rest)
  | (column, .descending) :: rest =>
    ((b.valueOf column).order (a.valueOf column)).then (compareRows a b rest)

/-- The cells of a row under lower-case names, in the order in which rows list columns. -/
def project (table : StoredTable) (row : StoredRow) : Row :=
  ⟨table.definition.rowOrder.filterMap fun declared =>
    (row.cells.find? declared.column).map fun value =>
      (Text.lower declared.column.nativeName, value)⟩

/-- The first rows of a list, or all of it without a limit. -/
def takeLimit (limit : Option Nat) (rows : List StoredRow) : List StoredRow :=
  match limit with
  | some n => rows.take n
  | none => rows

/-- The answer to a select. -/
def select (table : StoredTable) (select : Select) : Except StoreError (List Row) := do
  table.checkLeaves select.allowFiltering (select.clauses.flatMap Clause.leaves)
  let hits ← table.matchingRows select.clauses table.rows
  let orders ← table.orderColumns select.orders
  let sorted := sortStable (fun a b => compareRows a b orders) hits
  .ok ((takeLimit select.limit sorted).map table.project)

end WideGraph.StoredTable
