import Mathlib.Data.List.DropRight
import Mathlib.Logic.Function.Basic
import WideGraph.Proofs.Fallible
import WideGraph.Proofs.Store.Turns

/-!
# The log of what took effect

The requests of several sessions and the replies to them tell what took effect: the schema
statements that succeeded and, at each commit that succeeded, the statements that its session had
added since it last committed, rolled back or connected. Replaying this log alone gives the tables
of every keyspace, and what a session reads depends on nothing else.
-/

namespace WideGraph

/-- A change of the tables of a keyspace. -/
inductive Change where
  | schema (statement : SchemaStatement)
  | statement (statement : Statement)

/-- The statement of a change that is none of the schema. -/
def Change.statement? : Change → Option Statement
  | .statement s => some s
  | .schema _ => none

/-- A change that took effect, with the session that asked for it and its keyspace. -/
structure LogEntry where
  session : String
  keyspace : String
  change : Change

namespace Keyspace

/-- The tables of a keyspace after a change. -/
def redo (tables : Keyspace) : Change → Except StoreError Keyspace
  | .schema statement => tables.applySchema statement
  | .statement statement => tables.applyStatement statement

/-- The tables of a keyspace after several changes, one after the other. -/
def replay (tables : Keyspace) : List Change → Except StoreError Keyspace
  | [] => .ok tables
  | change :: rest => do replay (← tables.redo change) rest

/-- The statements of a batch are replayed as the batch is applied. -/
theorem replay_statements (tables : Keyspace) (statements : List Statement) :
    tables.replay (statements.map .statement) = tables.applyBatch statements := by
  induction statements generalizing tables with
  | nil => rfl
  | cons statement rest ih =>
    rw [List.map_cons, replay, applyBatch, redo]
    cases tables.applyStatement statement with
    | error e => rfl
    | ok changed => exact ih changed

/-- A table of a keyspace. -/
def get (tables : Keyspace) (name : String) : Except StoreError StoredTable :=
  match Bindings.find? name tables with
  | some table => .ok table
  | none => .error (.unconfiguredTable name)

/-- How a request that only reads is answered from the tables of a keyspace. -/
def readReply? (tables : Keyspace) : Request → Option Reply
  | .execute select => some (.ofRows do (← tables.get select.table).select select)
  | .sizeEstimate name => some (.ofNumber ((tables.get name).map StoredTable.byteSize))
  | _ => none

end Keyspace

namespace CommitLog

/-- The requests of one session among those of all. -/
def requestsOf (name : String) (past : List (String × Request)) : List Request :=
  past.filterMap fun request => if request.1 = name then some request.2 else none

/-- The statements that a session has added. -/
def added (name : String) (past : List (String × Request)) : List Statement :=
  (requestsOf name past).filterMap Request.added?

/-- The statements that a session has added since it last committed, rolled back or connected. -/
def pending (name : String) (past : List (String × Request)) : List Statement :=
  ((requestsOf name past).rtakeWhile (!·.endsBatch)).filterMap Request.added?

/-- The keyspace that a session connected to last. -/
def connectedTo? (name : String) (past : List (String × Request)) : Option String :=
  ((requestsOf name past).filterMap Request.connected?).getLast?

/-- What took effect by a request, by the statements that were pending and the reply. -/
def effects (pending : List Statement) : Request → Reply → List Change
  | .changeSchema statement, .done => [.schema statement]
  | .commit, .number _ => pending.map .statement
  | _, _ => []

/-- What took effect by a request of a session, by the requests before it and the reply to it. -/
def logged (past : List (String × Request)) (name : String) (request : Request) (reply : Reply) :
    List LogEntry :=
  match connectedTo? name past with
  | some keyspace =>
    (effects (pending name past) request reply).map fun change => ⟨name, keyspace, change⟩
  | none => []

/-- What takes effect by requests that follow others. -/
def logFrom (past : List (String × Request)) (world : World) :
    List (String × Request) → List LogEntry
  | [] => []
  | (name, request) :: rest =>
    logged past name request (world.answer name request).1 ++
      logFrom (past ++ [(name, request)]) (world.answer name request).2 rest

/-- What takes effect by requests to an empty cluster. -/
def ofRequests (requests : List (String × Request)) : List LogEntry :=
  logFrom [] {} requests

/-- The statements of a log that a session committed. -/
def committed (name : String) (log : List LogEntry) : List Statement :=
  (log.filter fun entry => entry.session = name).filterMap (·.change.statement?)

/-- The changes of a log that are for one keyspace. -/
def changesOf (keyspace : String) (log : List LogEntry) : List Change :=
  log.filterMap fun entry => if entry.keyspace = keyspace then some entry.change else none

/-- The tables of all keyspaces after the changes of a log, one after the other. -/
def replay (tables : String → Keyspace) : List LogEntry → Except StoreError (String → Keyspace)
  | [] => .ok tables
  | entry :: rest => do
    let changed ← (tables entry.keyspace).redo entry.change
    replay (Function.update tables entry.keyspace changed) rest

section Requests

variable (name : String) (past : List (String × Request))

/-- A request is added to those of its session. -/
theorem requestsOf_concat (other : String) (request : Request) :
    requestsOf name (past ++ [(other, request)]) =
      if other = name then requestsOf name past ++ [request] else requestsOf name past := by
  rw [requestsOf, List.filterMap_append]
  by_cases h : other = name <;> simp [h, requestsOf]

/-- What a session has pending after a request of its own. -/
theorem pending_concat_self (request : Request) :
    pending name (past ++ [(name, request)]) =
      if request.endsBatch then [] else pending name past ++ request.added?.toList := by
  rw [pending, requestsOf_concat, if_pos rfl]
  by_cases h : request.endsBatch = true
  · rw [List.rtakeWhile_concat_neg _ _ _ (by simp [h]), if_pos h]
    rfl
  · rw [List.rtakeWhile_concat_pos _ _ _ (by simpa using h), if_neg h, List.filterMap_append]
    cases request <;> rfl

/-- What a session has pending does not change by the requests of others. -/
theorem pending_concat_of_ne {other : String} (h : other ≠ name) (request : Request) :
    pending name (past ++ [(other, request)]) = pending name past := by
  rw [pending, requestsOf_concat, if_neg h, pending]

/-- The keyspace of a session after a request of its own. -/
theorem connectedTo?_concat_self (request : Request) :
    connectedTo? name (past ++ [(name, request)]) =
      request.connected?.or (connectedTo? name past) := by
  rw [connectedTo?, requestsOf_concat, if_pos rfl, List.filterMap_append, List.getLast?_append]
  cases request <;> rfl

/-- The keyspace of a session does not change by the requests of others. -/
theorem connectedTo?_concat_of_ne {other : String} (h : other ≠ name) (request : Request) :
    connectedTo? name (past ++ [(other, request)]) = connectedTo? name past := by
  rw [connectedTo?, requestsOf_concat, if_neg h, connectedTo?]

/-- The statements that a session has added after another request. -/
theorem added_cons (request : String × Request) (rest : List (String × Request)) :
    added name (request :: rest) =
      (if request.1 = name then request.2.added?.toList else []) ++ added name rest := by
  by_cases h : request.1 = name
  · rw [added, requestsOf, List.filterMap_cons_some (by rw [if_pos h]), if_pos h]
    cases request.2 <;> rfl
  · rw [added, requestsOf, List.filterMap_cons_none (by rw [if_neg h]), if_neg h]
    rfl

end Requests

/-- Logs are replayed one after the other. -/
theorem replay_append {first second : List LogEntry} {tables middle reached : String → Keyspace}
    (hfirst : replay tables first = .ok middle) (hsecond : replay middle second = .ok reached) :
    replay tables (first ++ second) = .ok reached := by
  induction first generalizing tables with
  | nil =>
    cases hfirst
    exact hsecond
  | cons entry rest ih =>
    obtain ⟨changed, hredo, hrest⟩ := bind_ok_iff.mp hfirst
    exact bind_ok_iff.mpr ⟨changed, hredo, ih hrest⟩

/-- Replaying changes of one keyspace leaves the other keyspaces as they are. -/
theorem replay_map (name keyspace : String) {changes : List Change} {tables : String → Keyspace}
    {reached : Keyspace} (h : (tables keyspace).replay changes = .ok reached) :
    replay tables (changes.map fun change => ⟨name, keyspace, change⟩) =
      .ok (Function.update tables keyspace reached) := by
  induction changes generalizing tables with
  | nil =>
    cases h
    rw [Function.update_eq_self]
    rfl
  | cons change rest ih =>
    obtain ⟨changed, hredo, hrest⟩ := bind_ok_iff.mp h
    refine bind_ok_iff.mpr ⟨changed, hredo, ?_⟩
    rw [ih (by rwa [Function.update_self]), Function.update_idem]

/-- What a log does to one keyspace is what its changes for that keyspace do. -/
theorem replay_changesOf {log : List LogEntry} {tables reached : String → Keyspace}
    (h : replay tables log = .ok reached) (keyspace : String) :
    (tables keyspace).replay (changesOf keyspace log) = .ok (reached keyspace) := by
  induction log generalizing tables with
  | nil =>
    cases h
    rfl
  | cons entry rest ih =>
    obtain ⟨changed, hredo, hrest⟩ := bind_ok_iff.mp h
    have hafter := ih hrest
    by_cases heq : entry.keyspace = keyspace
    · subst heq
      rw [Function.update_self] at hafter
      rw [changesOf, List.filterMap_cons_some (by rw [if_pos rfl])]
      exact bind_ok_iff.mpr ⟨changed, hredo, hafter⟩
    · rw [Function.update_of_ne (Ne.symm heq)] at hafter
      rwa [changesOf, List.filterMap_cons_none (by rw [if_neg heq])]

/-- The open sessions are those that have connected, and each has staged what it has pending. -/
structure Tracks (past : List (String × Request)) (world : World) : Prop where
  keyspace : ∀ name, (world.session? name).map (·.keyspace) = connectedTo? name past
  batch : ∀ name session, world.session? name = some session → session.batch = pending name past

/-- Before any request no session is open. -/
theorem tracks_nil : Tracks [] {} where
  keyspace _ := rfl
  batch _ _ h := by cases h

/-- A request is tracked by the session that makes it. -/
theorem Tracks.answer {past : List (String × Request)} {world : World} (h : Tracks past world)
    (name : String) (request : Request) :
    Tracks (past ++ [(name, request)]) (world.answer name request).2 where
  keyspace other := by
    by_cases heq : other = name
    · subst heq
      rw [World.keyspace_answer, connectedTo?_concat_self, h.keyspace]
    · rw [world.session?_answer_of_ne heq, connectedTo?_concat_of_ne _ _ (Ne.symm heq), h.keyspace]
  batch other session hsession := by
    by_cases heq : other = name
    · subst heq
      rw [pending_concat_self]
      exact world.batch_answer hsession (h.batch other)
    · rw [world.session?_answer_of_ne heq] at hsession
      rw [pending_concat_of_ne _ _ (Ne.symm heq), h.batch _ _ hsession]

/-- What takes effect by a request leads from the tables before it to those after it. -/
theorem replay_effects (request : Request) (c : Connection) :
    ∃ reached, c.tables.replay (effects c.session.batch request (c.answer request).1) =
        .ok reached ∧
      (c.answer request).2.cluster.tables =
        Function.update c.cluster.tables c.session.keyspace reached := by
  have hnone : c.cluster.tables = Function.update c.cluster.tables c.session.keyspace c.tables :=
    (Function.update_eq_self c.session.keyspace c.cluster.tables).symm
  cases request with
  | commit =>
    obtain ⟨reached, happlies⟩ | ⟨e, hstuck⟩ := c.applies_or_stuck
    · rw [Connection.answer, Connection.commit_of_applies happlies]
      refine ⟨reached, ?_, Cluster.tables_setTables _ _ _⟩
      exact (Keyspace.replay_statements _ _).trans
        ((Keyspace.applyBatch_eq_ok_iff _ _ _).mpr happlies)
    · rw [Connection.answer, Connection.commit_of_stuck hstuck]
      exact ⟨c.tables, rfl, hnone⟩
  | changeSchema statement =>
    rw [Connection.answer, Connection.executeSchema]
    cases happly : Keyspace.applySchema c.tables statement with
    | error e => exact ⟨c.tables, rfl, hnone⟩
    | ok reached =>
      exact ⟨reached, bind_ok_iff.mpr ⟨reached, happly, rfl⟩, Cluster.tables_setTables _ _ _⟩
  | _ => exact ⟨c.tables, rfl, hnone⟩

/-- What is logged of a request leads from the tables before it to those after it. -/
theorem Tracks.replay_logged {past : List (String × Request)} {world : World}
    (h : Tracks past world) (name : String) (request : Request) :
    replay world.cluster.tables (logged past name request (world.answer name request).1) =
      .ok (world.answer name request).2.cluster.tables := by
  have hkeyspace := h.keyspace name
  cases hsession : world.session? name with
  | none =>
    rw [hsession] at hkeyspace
    rw [logged, ← hkeyspace, world.answer_of_no_session hsession]
    cases request <;> rfl
  | some session =>
    rw [hsession] at hkeyspace
    rw [logged, ← hkeyspace, ← h.batch name session hsession, world.answer_of_session hsession]
    obtain ⟨reached, hreplay, htables⟩ := replay_effects request ⟨world.cluster, session⟩
    rw [World.store, htables]
    exact replay_map name session.keyspace hreplay

/-- Requests are tracked, and what is logged of them leads from the tables before to those after. -/
theorem Tracks.run {past : List (String × Request)} {world : World} (h : Tracks past world)
    (requests : List (String × Request)) :
    Tracks (past ++ requests) (world.run requests) ∧
      replay world.cluster.tables (logFrom past world requests) =
        .ok (world.run requests).cluster.tables := by
  induction requests generalizing past world with
  | nil =>
    rw [List.append_nil]
    exact ⟨h, rfl⟩
  | cons request rest ih =>
    obtain ⟨name, request⟩ := request
    obtain ⟨htracks, hreplay⟩ := ih (h.answer name request)
    rw [List.append_assoc] at htracks
    exact ⟨htracks, replay_append (h.replay_logged name request) hreplay⟩

/-- Only a commit logs statements, and they are those that were pending. -/
theorem statements_effects (statements : List Statement) (request : Request) (reply : Reply) :
    (effects statements request reply).filterMap Change.statement? = [] ∨
      request = .commit ∧
        (effects statements request reply).filterMap Change.statement? = statements := by
  rw [effects.eq_def]
  split
  · exact .inl rfl
  · refine .inr ⟨rfl, ?_⟩
    rw [List.filterMap_map]
    exact List.filterMap_some
  · exact .inl rfl

/-- Of what a request of a session logs, the session committed nothing, or by a commit all that it
had pending. -/
theorem committed_logged (name : String) (past : List (String × Request)) (request : Request)
    (reply : Reply) :
    committed name (logged past name request reply) = [] ∨
      request = .commit ∧ committed name (logged past name request reply) = pending name past := by
  rw [logged]
  split
  · rw [committed, List.filter_eq_self.mpr (by simp), List.filterMap_map]
    exact statements_effects _ _ _
  · exact .inl rfl

/-- Of what a request of another session logs, a session committed nothing. -/
theorem committed_logged_of_ne {name other : String} (h : other ≠ name)
    (past : List (String × Request)) (request : Request) (reply : Reply) :
    committed name (logged past other request reply) = [] := by
  rw [logged]
  split <;> simp [committed, h]

/-- What a session commits by a request, and has pending afterwards, is among what it had pending
before and adds by the request. -/
theorem sublist_of_logged (name : String) (past : List (String × Request))
    (request : String × Request) (reply : Reply) :
    (committed name (logged past request.1 request.2 reply) ++
      pending name (past ++ [request])).Sublist (pending name past ++ added name [request]) := by
  obtain ⟨other, request⟩ := request
  by_cases heq : other = name
  · subst heq
    rw [pending_concat_self, added_cons, if_pos rfl]
    rcases committed_logged other past request reply with hnone | ⟨rfl, hall⟩
    · rw [hnone, List.nil_append]
      split
      · exact List.nil_sublist _
      · exact .append_left (List.sublist_append_left _ _) _
    · rw [hall]
      exact .append_left (List.nil_sublist _) _
  · rw [committed_logged_of_ne heq, pending_concat_of_ne _ _ heq, added_cons, if_neg heq]
    exact List.sublist_append_left _ _

/-- No statement that a session added is committed twice, and those that it has pending were not
committed. -/
theorem sublist_of_logFrom (name : String) (past : List (String × Request)) (world : World)
    (requests : List (String × Request)) :
    (committed name (logFrom past world requests) ++ pending name (past ++ requests)).Sublist
      (pending name past ++ added name requests) := by
  induction requests generalizing past world with
  | nil =>
    rw [List.append_nil]
    exact List.sublist_append_left _ _
  | cons request rest ih =>
    obtain ⟨other, request⟩ := request
    have hrest := ih (past ++ [(other, request)]) (world.answer other request).2
    have hfirst := sublist_of_logged name past (other, request) (world.answer other request).1
    rw [List.append_assoc, List.singleton_append] at hrest
    have hadded : added name ((other, request) :: rest) =
        added name [(other, request)] ++ added name rest := by
      rw [added_cons, added_cons, List.append_assoc]
      rfl
    rw [logFrom, committed, List.filter_append, List.filterMap_append, List.append_assoc, hadded]
    -- What is committed later, or pending in the end, comes of what is pending after the first.
    exact (hrest.append_left _).trans (by
      rw [← List.append_assoc, ← List.append_assoc]
      exact hfirst.append_right _)

/-- What a session reads is in the tables of its keyspace, and reading leaves them as they are. -/
theorem answer_of_readReply? {world : World} {name : String} {session : SessionState}
    (h : world.session? name = some session) {request : Request} {reply : Reply}
    (hread : (world.cluster.tables session.keyspace).readReply? request = some reply) :
    (world.answer name request).1 = reply ∧
      (world.answer name request).2.cluster = world.cluster := by
  rw [world.answer_of_session h]
  cases request with
  | execute select =>
    cases hread
    exact ⟨rfl, rfl⟩
  | sizeEstimate table =>
    cases hread
    exact ⟨rfl, rfl⟩
  | _ => cases hread

/-- Sessions that take turns are serialised by their commits. Replaying what took effect, in all
keyspaces or in each on its own, gives the tables that the requests lead to. A session has staged
what it has pending; that was not committed, and nothing that it added was committed twice. What an
open session reads is in the replayed tables of its keyspace, and reading leaves them as they are. -/
theorem run_serialised (requests : List (String × Request)) :
    ∃ tables, replay (fun _ => []) (ofRequests requests) = .ok tables ∧
      (World.run {} requests).cluster.tables = tables ∧
      (∀ keyspace, Keyspace.replay [] (changesOf keyspace (ofRequests requests)) =
        .ok (tables keyspace)) ∧
      ∀ name, (committed name (ofRequests requests) ++ pending name requests).Sublist
          (added name requests) ∧
        ∀ session, (World.run {} requests).session? name = some session →
          connectedTo? name requests = some session.keyspace ∧
          session.batch = pending name requests ∧
          ∀ request reply, (tables session.keyspace).readReply? request = some reply →
            ((World.run {} requests).answer name request).1 = reply ∧
            ((World.run {} requests).answer name request).2.cluster.tables = tables := by
  obtain ⟨htracks, hreplay⟩ := tracks_nil.run requests
  refine ⟨_, hreplay, rfl, replay_changesOf hreplay, fun name => ⟨?_, fun session hsession => ?_⟩⟩
  · exact sublist_of_logFrom name [] {} requests
  · refine ⟨?_, htracks.batch name session hsession, fun request reply hread => ?_⟩
    · rw [← List.nil_append requests, ← htracks.keyspace, hsession]
      rfl
    · obtain ⟨hreply, hcluster⟩ := answer_of_readReply? hsession hread
      exact ⟨hreply, by rw [hcluster]⟩

/-- The vertex of an id written whole. -/
def writeId (id : String) : Statement :=
  .insert ⟨"vertices", [("ID", .text id)]⟩

/-- Two sessions write to one table. Of the second the first write is rolled back, a commit fails
together with the write before it, and the last write is not committed. -/
def twoWriters : List (String × Request) :=
  [("first", .connect "graph"), ("second", .connect "graph"),
    ("first", .changeSchema ElementKind.vertex.layout.createTable),
    ("second", .add (writeId "undone")), ("first", .add (writeId "1")), ("second", .rollback),
    ("second", .add (writeId "failed")), ("first", .commit),
    ("second", .add (.delete ⟨"edges", []⟩)), ("second", .commit),
    ("second", .add (writeId "staged"))]

/-- Of two writers only the vertex that the first has committed is there for the second to read. -/
theorem run_serialised_twoWriters :
    committed "first" (ofRequests twoWriters) = [writeId "1"] ∧
    committed "second" (ofRequests twoWriters) = [] ∧
    pending "second" twoWriters = [writeId "staged"] ∧
    ((World.run {} twoWriters).answer "second" (.execute { table := "vertices" })).1 =
      .rows [⟨[("id", .text "1")]⟩] := by
  have hopen : ((World.run {} twoWriters).session? "second").isSome = true := by decide +kernel
  obtain ⟨session, hsession⟩ := Option.isSome_iff_exists.mp hopen
  obtain ⟨tables, -, htables, -, hsessions⟩ := run_serialised twoWriters
  obtain ⟨hkeyspace, -, hreads⟩ := (hsessions "second").2 session hsession
  have hconnected : connectedTo? "second" twoWriters = some "graph" := by decide +kernel
  rw [hconnected, Option.some.injEq] at hkeyspace
  refine ⟨by decide +kernel, by decide +kernel, by decide +kernel, (hreads _ _ ?_).1⟩
  rw [← htables, ← hkeyspace]
  decide +kernel

end CommitLog

end WideGraph
