import WideGraph.Store.Cluster

/-!
# Sessions on one cluster

Several named sessions take turns on one cluster. A request of a session sees the cluster as the
requests before it left it, and changes besides the cluster only that session's own state.
-/

namespace WideGraph

/-- A cluster and the sessions that are open on it. -/
structure World where
  cluster : Cluster := {}
  sessions : List (String × SessionState) := []
deriving DecidableEq

/-- What a session may ask for. -/
inductive Request where
  | connect (keyspace : String)
  | add (statement : Statement)
  | rollback
  | commit
  | clearHistory
  | execute (select : Select)
  | sizeEstimate (table : String)
  | changeSchema (statement : SchemaStatement)
deriving DecidableEq

/-- How a request is answered. -/
inductive Reply where
  | done
  | rows (rows : List Row)
  | number (n : Nat)
  | failed (error : StoreError)
  | noSession
deriving DecidableEq

namespace Reply

/-- The reply to a step that gives nothing. -/
def ofUnit : Except StoreError Unit → Reply
  | .ok () => .done
  | .error e => .failed e

/-- The reply to a step that gives a number. -/
def ofNumber : Except StoreError Nat → Reply
  | .ok n => .number n
  | .error e => .failed e

/-- The reply to a step that gives rows. -/
def ofRows : Except StoreError (List Row) → Reply
  | .ok found => .rows found
  | .error e => .failed e

end Reply

namespace Connection

/-- Answer a request over a connection. Connecting gives the session a fresh state. -/
def answer (request : Request) (c : Connection) : Reply × Connection :=
  match request with
  | .connect keyspace => (.done, { c with session := { keyspace } })
  | .add statement => (.done, c.add statement)
  | .rollback => (.done, c.rollback)
  | .commit => let (result, c) := c.commit; (.ofNumber result, c)
  | .clearHistory => (.done, c.clearHistory)
  | .execute select => let (result, c) := c.execute select; (.ofRows result, c)
  | .sizeEstimate table => let (result, c) := c.sizeEstimate table; (.ofNumber result, c)
  | .changeSchema statement => let (result, c) := c.executeSchema statement; (.ofUnit result, c)

end Connection

namespace World

/-- The state of an open session. -/
def session? (world : World) (name : String) : Option SessionState :=
  Bindings.find? name world.sessions

/-- The world after a connection of a session has been used. -/
def store (world : World) (name : String) (c : Connection) : World :=
  ⟨c.cluster, Bindings.insert name c.session world.sessions⟩

/-- Run a step over the connection of an open session. -/
def onSession {α : Type} (world : World) (name : String) (step : Connection → α × Connection) :
    Option (α × World) :=
  (world.session? name).map fun session =>
    let (a, c) := step ⟨world.cluster, session⟩
    (a, world.store name c)

/-- Answer a request of a named session. Connecting opens or replaces it. -/
def answer (world : World) (name : String) (request : Request) : Reply × World :=
  match request with
  | .connect keyspace => (.done, world.store name ⟨world.cluster, { keyspace }⟩)
  | request => (world.onSession name (Connection.answer request)).getD (.noSession, world)

/-- The world after the requests of named sessions, one after the other. -/
def run (world : World) (requests : List (String × Request)) : World :=
  requests.foldl (fun world request => (world.answer request.1 request.2).2) world

end World

end WideGraph
