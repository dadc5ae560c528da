import WideGraph.GraphTable.Merging
import WideGraph.GraphTable.Selects
import WideGraph.Session
import WideGraph.TokenRange

/-!
# Creating and reading graph tables

Creating a table also creates its indexes. A query runs its selects in turn and gathers the answer
of each on its own. A table can also say into which token ranges its bytes are to be split.
-/

namespace WideGraph.GraphTable

variable {σ : Type} [Session σ]

/-- Change the schema by several statements, one after the other. -/
def runSchema : List SchemaStatement → SessionM σ Unit
  | [] => pure ()
  | statement :: rest => do
    SessionM.ofStore statement.text (Session.executeSchema statement)
    runSchema rest

/-- Create the table and its indexes. -/
def init (table : GraphTable) : SessionM σ Unit :=
  runSchema (table.definition.createTable :: table.definition.createIndexes)

/-- Drop the table. -/
def clear (table : GraphTable) : SessionM σ Unit :=
  runSchema [table.definition.dropTable]

/-- The entries of the rows of one answer. -/
def entriesOfRows (table : GraphTable) (kind : ElementKind) (rows : List Row) :
    Except BackendError (List Entry) := do
  table.kind.merge (← mapExcept (Entry.ofRow kind table.name) rows)

/-- The entries that the given selects find for a query. -/
def runSelects (table : GraphTable) (query : Query) : List Select → SessionM σ (List Entry)
  | [] => pure []
  | select :: rest => do
    let rows ← SessionM.ofStore ("failed to query [" ++ query.shown ++ "]") (Session.execute select)
    let entries ← SessionM.ofExcept (table.entriesOfRows query.kind rows)
    return entries ++ (← table.runSelects query rest)

/-- The entries that a query finds. -/
def query (table : GraphTable) (query : Query) : SessionM σ (List Entry) := do
  table.runSelects query (← SessionM.ofExcept (table.selects query))

/-- The ranges into which the token ring is split for a table, by the size of a split in bytes. -/
def splitsOfSize (table : GraphTable) (size : Value) : SessionM σ (List TokenRange) :=
  match size.integer? with
  | some n =>
    if 0 ≤ n.toInt then do
      let bytes ← SessionM.ofStore ("size estimate of " ++ table.name)
        (Session.sizeEstimate table.name)
      SessionM.ofExcept (TokenRange.split bytes n.toInt.toNat)
    else SessionM.ofExcept (.error (.invalidArgument (.splitSizeNotNatural size.kindName)))
  | none => SessionM.ofExcept (.error (.invalidArgument (.splitSizeNotNatural size.kindName)))

/-- The only question about a table that has a name. -/
def splitsName : String :=
  "splits"

/-- The answer to a named question about the table; `splits` takes the size of a split. -/
def metadata (table : GraphTable) (name : String) (arguments : List Value) :
    SessionM σ (List TokenRange) :=
  if name ≠ splitsName then SessionM.ofExcept (.error (.invalidMetadataName name))
  else
    match arguments with
    | [size] => table.splitsOfSize size
    | _ => SessionM.ofExcept
      (.error (.invalidArgument (.wrongArgumentCount name 1 arguments.length)))

/-- The ranges for the configured size of a split. -/
def splits (table : GraphTable) : SessionM σ (List TokenRange) :=
  table.splitsOfSize (.bigint (Value.clampToWord table.configuration.defaultSplitSize))

end WideGraph.GraphTable
