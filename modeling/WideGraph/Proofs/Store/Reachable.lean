import WideGraph.GraphTable.Reading
import WideGraph.Proofs.Store.Commit
import WideGraph.Store.World

/-!
# Reachable clusters

A cluster is reachable if some requests of named sessions lead to it from the empty one. A request
changes the cluster by one schema statement or by one batch of one keyspace, so that what new tables
satisfy and what index creation and single statements preserve holds of every table of a reachable
cluster.
-/

namespace WideGraph

/-- The schema statement of a request, if it has one, is of a certain kind. -/
def Request.SchemaSatisfies (allowed : SchemaStatement → Prop) : Request → Prop
  | .changeSchema statement => allowed statement
  | _ => True

/-- Any schema statement will do if nothing is asked of it. -/
theorem Request.schemaSatisfies_true (request : Request) :
    request.SchemaSatisfies fun _ => True := by
  cases request <;> trivial

namespace Cluster

/-- What a single request may do to a cluster if its schema statements are of a certain kind. -/
inductive Step (allowed : SchemaStatement → Prop) (cluster : Cluster) : Cluster → Prop where
  | stay : Step allowed cluster cluster
  | schema {keyspace : String} {statement : SchemaStatement} {tables : Keyspace}
      (hallowed : allowed statement)
      (happly : Keyspace.applySchema (cluster.tables keyspace) statement = .ok tables) :
      Step allowed cluster (cluster.setTables keyspace tables)
  | batch {keyspace : String} {statements : List Statement} {tables : Keyspace}
      (happlies : Keyspace.Applies (cluster.tables keyspace) statements tables) :
      Step allowed cluster (cluster.setTables keyspace tables)

/-- Some requests of named sessions lead to the cluster from the empty one. -/
def Reachable (cluster : Cluster) : Prop :=
  ∃ requests, (World.run {} requests).cluster = cluster

end Cluster

variable {allowed : SchemaStatement → Prop}

namespace Connection

/-- A request over a connection takes one step of the cluster. -/
theorem step_answer {request : Request} (h : request.SchemaSatisfies allowed) (c : Connection) :
    c.cluster.Step allowed (c.answer request).2.cluster := by
  cases request with
  | connect keyspace => exact .stay
  | add statement => exact .stay
  | rollback => exact .stay
  | clearHistory => exact .stay
  | execute select => exact .stay
  | sizeEstimate table => exact .stay
  | commit =>
    change c.cluster.Step allowed c.commit.2.cluster
    obtain ⟨reached, happlies⟩ | ⟨e, hstuck⟩ := c.applies_or_stuck
    · rw [commit_of_applies happlies]
      exact .batch happlies
    · rw [commit_of_stuck hstuck]
      exact .stay
  | changeSchema statement =>
    change c.cluster.Step allowed (c.executeSchema statement).2.cluster
    rw [executeSchema]
    cases happly : Keyspace.applySchema c.tables statement with
    | error e => exact .stay
    | ok tables => exact .schema h happly

end Connection

namespace World

/-- A request of a named session takes one step of the cluster. -/
theorem step_answer (world : World) (name : String) {request : Request}
    (h : request.SchemaSatisfies allowed) :
    world.cluster.Step allowed (world.answer name request).2.cluster := by
  cases request with
  | connect keyspace => exact .stay
  | _ =>
    simp only [World.answer, onSession]
    cases world.session? name with
    | none => exact .stay
    | some session => exact Connection.step_answer h ⟨world.cluster, session⟩

/-- What steps of the cluster preserve is preserved by any requests. -/
theorem run_preserves {motive : Cluster → Prop}
    (hstep : ∀ cluster cluster', motive cluster → cluster.Step allowed cluster' → motive cluster')
    (requests : List (String × Request)) (hrequests : ∀ r ∈ requests, r.2.SchemaSatisfies allowed)
    (world : World) (h : motive world.cluster) : motive (world.run requests).cluster := by
  induction requests generalizing world with
  | nil => exact h
  | cons request rest ih =>
    rw [List.forall_mem_cons] at hrequests
    exact ih hrequests.2 (world.answer request.1 request.2).2
      (hstep _ _ h (world.step_answer _ hrequests.1))

end World

namespace Keyspace

/-- Every table of a keyspace has a property. -/
def AllTables (motive : StoredTable → Prop) (tables : Keyspace) : Prop :=
  ∀ name table, Bindings.find? name tables = some table → motive table

/-- A property of every table is kept when a table with the property is put in. -/
theorem AllTables.insert {motive : StoredTable → Prop} {tables : Keyspace}
    (h : AllTables motive tables) (name : String) {table : StoredTable} (htable : motive table) :
    AllTables motive (Bindings.insert name table tables) := by
  intro other found hfound
  by_cases heq : other = name
  · subst heq
    rw [Bindings.find?_insert_self, Option.some.injEq] at hfound
    exact hfound ▸ htable
  · rw [Bindings.find?_insert_of_ne heq] at hfound
    exact h other found hfound

/-- An index is created on a declared column of a table that is there. -/
theorem applySchema_createIndex_eq_ok_iff {tables reached : Keyspace} {index name : String}
    {column : Column} :
    applySchema tables (.createIndex index name column) = .ok reached ↔
      ∃ table found, Bindings.find? name tables = some table ∧
        table.definition.resolve column.nativeName = .ok found ∧
        reached = Bindings.insert name
          { table with indexes := Bindings.insertNew index column table.indexes } tables := by
  rw [applySchema]
  cases Bindings.find? name tables with
  | none => simp
  | some table =>
    constructor
    · intro happly
      obtain ⟨found, hresolve, hreached⟩ := bind_ok_iff.mp happly
      cases hreached
      exact ⟨table, found, rfl, hresolve, rfl⟩
    · rintro ⟨_, found, hfound, hresolve, rfl⟩
      cases hfound
      exact bind_ok_iff.mpr ⟨found, hresolve, rfl⟩

/-- A property that new tables have and index creation preserves is kept by schema changes. -/
theorem AllTables.applySchema {motive : StoredTable → Prop}
    (hnew : ∀ definition, motive { definition })
    (hindex : ∀ table indexes, motive table → motive { table with indexes })
    {tables tables' : Keyspace} (h : AllTables motive tables) {statement : SchemaStatement}
    (happly : Keyspace.applySchema tables statement = .ok tables') : AllTables motive tables' := by
  cases statement with
  | createTable definition =>
    cases happly
    rw [Bindings.insertNew]
    split
    · exact h
    · exact h.insert _ (hnew definition)
  | dropTable name =>
    cases happly
    intro other found hfound
    rw [Bindings.find?_erase] at hfound
    split at hfound
    · cases hfound
    · exact h other found hfound
  | createIndex index name column =>
    obtain ⟨table, found, hfound, -, rfl⟩ := applySchema_createIndex_eq_ok_iff.mp happly
    exact h.insert _ (hindex _ _ (h _ _ hfound))

/-- A property that single statements preserve is kept by batches. -/
theorem AllTables.applies {motive : StoredTable → Prop}
    (hstatement : ∀ table statement changed, motive table → table.apply statement = .ok changed →
      motive changed)
    {tables tables' : Keyspace} {batch : List Statement} (h : AllTables motive tables)
    (happlies : Applies tables batch tables') : AllTables motive tables' := by
  induction happlies with
  | nil => exact h
  | cons hfound happly _ ih => exact ih (h.insert _ (hstatement _ _ _ (h _ _ hfound) happly))

end Keyspace

namespace Cluster

/-- In the tables of any keyspace after one keyspace was replaced, a property of all tables holds if
it held and holds of the replacement. -/
theorem allTables_setTables {motive : StoredTable → Prop} {cluster : Cluster}
    (h : ∀ keyspace, Keyspace.AllTables motive (cluster.tables keyspace)) (keyspace : String)
    {tables : Keyspace} (htables : Keyspace.AllTables motive tables) (other : String) :
    Keyspace.AllTables motive ((cluster.setTables keyspace tables).tables other) := by
  by_cases heq : other = keyspace
  · subst heq
    rwa [tables_setTables_self]
  · rw [tables_setTables_of_ne _ heq]
    exact h other

section Tables

variable {motive : StoredTable → Prop} (hnew : ∀ definition, motive { definition })
  (hindex : ∀ table indexes, motive table → motive { table with indexes })
  (hstatement : ∀ table statement changed, motive table → table.apply statement = .ok changed →
    motive changed)

include hnew hindex hstatement

/-- What new tables satisfy, and index creation and single statements preserve, still holds of every
table after any requests. -/
theorem allTables_run {world : World}
    (h : ∀ keyspace, Keyspace.AllTables motive (world.cluster.tables keyspace))
    (requests : List (String × Request)) :
    ∀ keyspace, Keyspace.AllTables motive ((world.run requests).cluster.tables keyspace) := by
  have hstep : ∀ cluster cluster' : Cluster,
      (∀ keyspace, Keyspace.AllTables motive (cluster.tables keyspace)) →
      cluster.Step (fun _ => True) cluster' →
      ∀ keyspace, Keyspace.AllTables motive (cluster'.tables keyspace) := by
    intro cluster cluster' h hstep
    cases hstep with
    | stay => exact h
    | schema _ happly => exact allTables_setTables h _ ((h _).applySchema hnew hindex happly)
    | batch happlies => exact allTables_setTables h _ ((h _).applies hstatement happlies)
  exact World.run_preserves hstep requests (fun r _ => r.2.schemaSatisfies_true) world h

/-- What new tables satisfy, and index creation and single statements preserve, holds of every table
of a reachable cluster. -/
theorem Reachable.of_preserved {cluster : Cluster} (hreach : cluster.Reachable)
    {keyspace name : String} {table : StoredTable}
    (htable : cluster.table keyspace name = .ok table) : motive table := by
  obtain ⟨requests, rfl⟩ := hreach
  have hempty : ∀ keyspace, Keyspace.AllTables motive (({} : World).cluster.tables keyspace) :=
    fun keyspace name table hfound => by cases hfound
  exact allTables_run hnew hindex hstatement hempty requests keyspace name table
    (table_eq_ok_iff.mp htable)

end Tables

end Cluster

end WideGraph
