import WideGraph.Proofs.Store.Reachable

/-!
# Sessions taking turns

A request over the connection of an open session changes that session's batch and keyspace as the
kind of the request says, and the state of no other session. A session that is not open can only
connect.
-/

namespace WideGraph

namespace Request

/-- A session has nothing staged after this request. -/
def endsBatch : Request → Bool
  | .connect _ | .rollback | .commit => true
  | _ => false

/-- The statement that a request adds. -/
def added? : Request → Option Statement
  | .add statement => some statement
  | _ => none

/-- The keyspace that a request connects to. -/
def connected? : Request → Option String
  | .connect keyspace => some keyspace
  | _ => none

end Request

namespace Connection

/-- What is staged after a request. -/
theorem batch_answer (request : Request) (c : Connection) :
    (c.answer request).2.session.batch =
      if request.endsBatch then [] else c.session.batch ++ request.added?.toList := by
  cases request with
  | commit =>
    change c.commit.2.session.batch = _
    obtain ⟨reached, happlies⟩ | ⟨e, hstuck⟩ := c.applies_or_stuck
    · rw [commit_of_applies happlies]
      rfl
    · rw [commit_of_stuck hstuck]
      rfl
  | changeSchema statement =>
    change (c.executeSchema statement).2.session.batch = _
    rw [executeSchema]
    split <;> exact (List.append_nil _).symm
  | add statement => rfl
  | connect keyspace => rfl
  | rollback => rfl
  | _ => exact (List.append_nil _).symm

/-- The keyspace after a request. -/
theorem keyspace_answer (request : Request) (c : Connection) :
    (c.answer request).2.session.keyspace = request.connected?.getD c.session.keyspace := by
  cases request with
  | commit =>
    change c.commit.2.session.keyspace = _
    obtain ⟨reached, happlies⟩ | ⟨e, hstuck⟩ := c.applies_or_stuck
    · rw [commit_of_applies happlies]
      rfl
    · rw [commit_of_stuck hstuck]
      rfl
  | changeSchema statement =>
    change (c.executeSchema statement).2.session.keyspace = _
    rw [executeSchema]
    split <;> rfl
  | _ => rfl

/-- A schema statement leaves the cluster as it is or changes the session's keyspace. -/
theorem cluster_executeSchema (statement : SchemaStatement) (c : Connection) :
    (c.executeSchema statement).2.cluster = c.cluster ∨
      ∃ tables, Keyspace.applySchema c.tables statement = .ok tables ∧
        (c.executeSchema statement).2.cluster = c.cluster.setTables c.session.keyspace tables := by
  rw [executeSchema]
  cases happly : Keyspace.applySchema c.tables statement with
  | error e => exact .inl rfl
  | ok tables => exact .inr ⟨tables, rfl, rfl⟩

end Connection

namespace World

variable (world : World) {name other : String}

/-- After a connection of a session was used the session has its state. -/
theorem session?_store_self (c : Connection) :
    (world.store name c).session? name = some c.session :=
  Bindings.find?_insert_self _ _ _

/-- Other sessions keep their states when a connection of a session is used. -/
theorem session?_store_of_ne (h : other ≠ name) (c : Connection) :
    (world.store name c).session? other = world.session? other :=
  Bindings.find?_insert_of_ne h _ _

/-- A step of a session runs over its connection. -/
theorem onSession_eq_some_iff {α : Type} {step : Connection → α × Connection} {a : α}
    {after : World} :
    world.onSession name step = some (a, after) ↔
      ∃ session c, world.session? name = some session ∧ step ⟨world.cluster, session⟩ = (a, c) ∧
        after = world.store name c := by
  rw [onSession, Option.map_eq_some_iff]
  constructor
  · rintro ⟨session, hsession, hstep⟩
    rw [Prod.mk.injEq] at hstep
    exact ⟨session, _, hsession, Prod.ext hstep.1 rfl, hstep.2.symm⟩
  · rintro ⟨session, c, hsession, hstep, rfl⟩
    exact ⟨session, hsession, by rw [hstep]⟩

/-- A request of an open session is answered over its connection. -/
theorem answer_of_session {session : SessionState} (h : world.session? name = some session)
    (request : Request) :
    world.answer name request =
      ((Connection.answer request ⟨world.cluster, session⟩).1,
        world.store name (Connection.answer request ⟨world.cluster, session⟩).2) := by
  cases request with
  | connect keyspace => rfl
  | _ =>
    rw [World.answer, onSession, h]
    · rfl
    · simp

/-- A session that is not open can only connect. -/
theorem answer_of_no_session (h : world.session? name = none) (request : Request) :
    world.answer name request =
      match request with
      | .connect keyspace => (.done, world.store name ⟨world.cluster, { keyspace }⟩)
      | _ => (.noSession, world) := by
  cases request <;> simp only [World.answer, onSession, h, Option.map_none, Option.getD_none]

/-- A commit that gives a number installs the tables that the session's batch leads to. -/
theorem applies_of_answer_commit {session : SessionState} (h : world.session? name = some session)
    {n : Nat} {after : World} (hcommit : world.answer name .commit = (.number n, after)) :
    ∃ reached, Keyspace.Applies (world.cluster.tables session.keyspace) session.batch reached ∧
      after.cluster = world.cluster.setTables session.keyspace reached := by
  rw [world.answer_of_session h, Prod.mk.injEq] at hcommit
  obtain ⟨hreply, rfl⟩ := hcommit
  obtain ⟨reached, happlies⟩ | ⟨e, hstuck⟩ :=
    Connection.applies_or_stuck ⟨world.cluster, session⟩
  · refine ⟨reached, happlies, ?_⟩
    rw [Connection.answer, Connection.commit_of_applies happlies]
    rfl
  · rw [Connection.answer, Connection.commit_of_stuck hstuck] at hreply
    cases hreply

/-- A request leaves the states of other sessions as they are. -/
theorem session?_answer_of_ne (h : other ≠ name) (request : Request) :
    (world.answer name request).2.session? other = world.session? other := by
  cases hsession : world.session? name with
  | some session => rw [world.answer_of_session hsession, world.session?_store_of_ne h]
  | none =>
    rw [world.answer_of_no_session hsession]
    cases request with
    | connect keyspace => exact world.session?_store_of_ne h _
    | _ => rfl

/-- Requests of others leave the state of a session as it is. -/
theorem session?_run_of_ne {requests : List (String × Request)}
    (h : ∀ r ∈ requests, r.1 ≠ name) (world : World) :
    (world.run requests).session? name = world.session? name := by
  induction requests generalizing world with
  | nil => rfl
  | cons request rest ih =>
    obtain ⟨hfirst, hrest⟩ := List.forall_mem_cons.mp h
    exact (ih hrest _).trans (world.session?_answer_of_ne hfirst.symm request.2)

/-- Without a commit only a schema statement changes the cluster. -/
theorem cluster_answer_of_ne_commit (name : String) {request : Request} (h : request ≠ .commit) :
    (world.answer name request).2.cluster = world.cluster ∨
      ∃ keyspace statement tables, request = .changeSchema statement ∧
        Keyspace.applySchema (world.cluster.tables keyspace) statement = .ok tables ∧
        (world.answer name request).2.cluster = world.cluster.setTables keyspace tables := by
  cases hsession : world.session? name with
  | none =>
    rw [world.answer_of_no_session hsession]
    cases request <;> exact .inl rfl
  | some session =>
    rw [world.answer_of_session hsession]
    cases request with
    | commit => exact absurd rfl h
    | changeSchema statement =>
      obtain hsame | ⟨tables, happly, hchanged⟩ :=
        Connection.cluster_executeSchema statement ⟨world.cluster, session⟩
      · exact .inl hsame
      · exact .inr ⟨session.keyspace, statement, tables, rfl, happly, hchanged⟩
    | _ => exact .inl rfl

/-- The keyspace of a session after a request of its own. -/
theorem keyspace_answer (request : Request) :
    ((world.answer name request).2.session? name).map (·.keyspace) =
      request.connected?.or ((world.session? name).map (·.keyspace)) := by
  cases hsession : world.session? name with
  | some session =>
    rw [world.answer_of_session hsession, session?_store_self, Option.map_some,
      Connection.keyspace_answer]
    cases request.connected? <;> rfl
  | none =>
    rw [world.answer_of_no_session hsession]
    cases request with
    | connect keyspace =>
      dsimp only
      rw [session?_store_self]
      rfl
    | _ =>
      dsimp only
      rw [hsession]
      rfl

/-- What a session has staged after a request of its own. -/
theorem batch_answer {request : Request} {after : SessionState}
    (h : (world.answer name request).2.session? name = some after) {batch : List Statement}
    (hbatch : ∀ before, world.session? name = some before → before.batch = batch) :
    after.batch = if request.endsBatch then [] else batch ++ request.added?.toList := by
  cases hsession : world.session? name with
  | some session =>
    rw [world.answer_of_session hsession, session?_store_self, Option.some.injEq] at h
    rw [← h, Connection.batch_answer, ← hbatch session hsession]
  | none =>
    rw [world.answer_of_no_session hsession] at h
    cases request with
    | connect keyspace =>
      dsimp only at h
      rw [session?_store_self, Option.some.injEq] at h
      rw [← h]
      rfl
    | _ =>
      dsimp only at h
      rw [hsession] at h
      cases h

end World

end WideGraph
