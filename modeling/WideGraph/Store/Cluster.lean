import WideGraph.Session
import WideGraph.Store.Change
import WideGraph.Store.Selection

/-!
# A cluster and its sessions

A cluster keeps the tables of several keyspaces and is shared by all sessions. A session works on
one keyspace; what it adds is staged on a batch of its own and reaches the tables when the batch is
committed, either every statement of it or none.
-/

namespace WideGraph

/-- The tables of a keyspace by name. -/
abbrev Keyspace :=
  List (String × StoredTable)

/-- The keyspaces by name. -/
structure Cluster where
  keyspaces : List (String × Keyspace) := []
deriving DecidableEq

/-- What belongs to one session: its keyspace, its staged batch in the order of staging, and the
selects it has run, the latest first. -/
structure SessionState where
  keyspace : String
  batch : List Statement := []
  history : List Select := []
deriving DecidableEq

/-- The selects that a session has run, in the order of running. -/
def SessionState.executed (session : SessionState) : List Select :=
  session.history.reverse

/-- A session together with the cluster it is connected to. -/
structure Connection where
  cluster : Cluster
  session : SessionState
deriving DecidableEq

namespace Keyspace

/-- The tables after one statement has been applied to the table it names. -/
def applyStatement (tables : Keyspace) (statement : Statement) : Except StoreError Keyspace :=
  match Bindings.find? statement.table tables with
  | none => .error (.unconfiguredTable statement.table)
  | some table => (table.apply statement).map fun changed =>
      Bindings.insert statement.table changed tables

/-- The tables after several statements, one after the other. -/
def applyBatch (tables : Keyspace) : List Statement → Except StoreError Keyspace
  | [] => .ok tables
  | statement :: rest =>
    match applyStatement tables statement with
    | .error e => .error e
    | .ok changed => applyBatch changed rest

/-- The tables after a change of the schema. A table or index that exists already is kept. -/
def applySchema (tables : Keyspace) : SchemaStatement → Except StoreError Keyspace
  | .createTable definition => .ok (Bindings.insertNew definition.name { definition } tables)
  | .dropTable name => .ok (Bindings.erase name tables)
  | .createIndex index name column =>
    match Bindings.find? name tables with
    | none => .error (.unconfiguredTable name)
    | some table => do
      let _ ← table.definition.resolve column.nativeName
      .ok (Bindings.insert name
        { table with indexes := Bindings.insertNew index column table.indexes } tables)

end Keyspace

namespace Cluster

/-- The tables of a keyspace. -/
def tables (cluster : Cluster) (keyspace : String) : Keyspace :=
  (Bindings.find? keyspace cluster.keyspaces).getD []

/-- The cluster with the tables of a keyspace replaced. -/
def setTables (cluster : Cluster) (keyspace : String) (tables : Keyspace) : Cluster :=
  ⟨Bindings.insert keyspace tables cluster.keyspaces⟩

/-- A table of a keyspace. -/
def table (cluster : Cluster) (keyspace name : String) : Except StoreError StoredTable :=
  match Bindings.find? name (cluster.tables keyspace) with
  | some table => .ok table
  | none => .error (.unconfiguredTable name)

/-- The names of the tables of a keyspace. -/
def tableNames (cluster : Cluster) (keyspace : String) : List String :=
  (cluster.tables keyspace).map (·.1)

/-- The number of rows of a table, zero if there is no such table. -/
def rowCount (cluster : Cluster) (keyspace name : String) : Nat :=
  match cluster.table keyspace name with
  | .ok table => table.rows.length
  | .error _ => 0

end Cluster

namespace Connection

/-- The tables that the session works on. -/
def tables (c : Connection) : Keyspace :=
  c.cluster.tables c.session.keyspace

/-- Answer a select, which is kept in the history whether it succeeds or not. -/
def execute (select : Select) (c : Connection) : Except StoreError (List Row) × Connection :=
  let answer := do (← c.cluster.table c.session.keyspace select.table).select select
  (answer, { c with session := { c.session with history := select :: c.session.history } })

/-- Change the schema. -/
def executeSchema (statement : SchemaStatement) (c : Connection) :
    Except StoreError Unit × Connection :=
  match Keyspace.applySchema c.tables statement with
  | .error e => (.error e, c)
  | .ok tables => (.ok (), { c with cluster := c.cluster.setTables c.session.keyspace tables })

/-- Stage a statement. -/
def add (statement : Statement) (c : Connection) : Connection :=
  { c with session := { c.session with batch := c.session.batch ++ [statement] } }

/-- The bytes that a table takes. -/
def sizeEstimate (name : String) (c : Connection) : Except StoreError Nat × Connection :=
  ((c.cluster.table c.session.keyspace name).map StoredTable.byteSize, c)

/-- Drop the staged batch. -/
def rollback (c : Connection) : Connection :=
  { c with session := { c.session with batch := [] } }

/-- Forget the selects that have been run. -/
def clearHistory (c : Connection) : Connection :=
  { c with session := { c.session with history := [] } }

/-- Apply the staged batch and give the number of its statements. If one of them fails no table
changes; the batch is spent either way. -/
def commit (c : Connection) : Except StoreError Nat × Connection :=
  match Keyspace.applyBatch c.tables c.session.batch with
  | .error e => (.error e, c.rollback)
  | .ok tables =>
    (.ok c.session.batch.length,
      { c.rollback with cluster := c.cluster.setTables c.session.keyspace tables })

instance : Session Connection where
  execute := execute
  executeSchema := executeSchema
  add := add
  sizeEstimate := sizeEstimate

end Connection

end WideGraph
