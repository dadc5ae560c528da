import Mathlib.Tactic.Set
import WideGraph.Proofs.Store.Coherence
import WideGraph.Proofs.Store.Turns

/-!
# Tables that were created

Initialising the table of a kind creates it with its built-in layout and without rows, unless there
is a table of its name already. From then on the keyspace keeps a table with that layout until it is
dropped: no other request takes it away or changes its definition.
-/

namespace WideGraph

namespace StoredTable

/-- A statement changes only the rows of its table. -/
theorem apply_frame {table changed : StoredTable} {statement : Statement}
    (h : table.apply statement = .ok changed) :
    changed.definition = table.definition ∧ changed.indexes = table.indexes := by
  cases statement with
  | insert statement =>
    change table.insert statement = .ok changed at h
    obtain ⟨bound, key, -, -, rfl⟩ := insert_eq_ok_iff.mp h
    exact ⟨rfl, rfl⟩
  | update statement =>
    change table.update statement = .ok changed at h
    obtain ⟨bound, key, changes, cells, -, -, rfl⟩ := update_eq_ok_iff.mp h
    exact ⟨rfl, rfl⟩
  | delete statement =>
    change table.delete statement = .ok changed at h
    obtain ⟨bound, -, -, rfl⟩ := delete_eq_ok_iff.mp h
    exact ⟨rfl, rfl⟩

end StoredTable

namespace Keyspace

/-- A table is still there after a table has been put in that has its definition if it has its
name. -/
theorem find?_insert_kept {tables : Keyspace} {name other : String} {stored table : StoredTable}
    (hstored : Bindings.find? name tables = some stored)
    (htable : name = other → table.definition = stored.definition) :
    ∃ after, Bindings.find? name (Bindings.insert other table tables) = some after ∧
      after.definition = stored.definition := by
  by_cases hname : name = other
  · subst hname
    exact ⟨table, Bindings.find?_insert_self _ _ _, htable rfl⟩
  · exact ⟨stored, by rw [Bindings.find?_insert_of_ne hname, hstored], rfl⟩

/-- Batches keep tables with their definitions. -/
theorem Applies.find?_kept {tables reached : Keyspace} {batch : List Statement}
    (happlies : Applies tables batch reached) {name : String} {stored : StoredTable}
    (hstored : Bindings.find? name tables = some stored) :
    ∃ after, Bindings.find? name reached = some after ∧
      after.definition = stored.definition := by
  induction happlies generalizing stored with
  | nil => exact ⟨stored, hstored, rfl⟩
  | @cons _ _ statement _ table changed hfound happly _ ih =>
    have hkept : name = statement.table → changed.definition = stored.definition := fun hname => by
      rw [hname, hfound, Option.some.injEq] at hstored
      rw [(StoredTable.apply_frame happly).1, hstored]
    obtain ⟨middle, hmiddle, hdefinition⟩ := find?_insert_kept hstored hkept
    obtain ⟨after, hafter, hsame⟩ := ih hmiddle
    exact ⟨after, hafter, hsame.trans hdefinition⟩

/-- Schema changes keep a table that is not dropped, with its definition and its rows. -/
theorem find?_applySchema {tables reached : Keyspace} {name : String} {stored : StoredTable}
    (hstored : Bindings.find? name tables = some stored) {statement : SchemaStatement}
    (hkeep : statement ≠ .dropTable name)
    (happly : Keyspace.applySchema tables statement = .ok reached) :
    ∃ indexes, Bindings.find? name reached = some { stored with indexes } := by
  cases statement with
  | createTable definition =>
    cases happly
    refine ⟨stored.indexes, ?_⟩
    rw [Bindings.insertNew]
    split
    · exact hstored
    · rename_i hnew
      rw [Bindings.find?_insert_of_ne, hstored]
      rintro rfl
      rw [hstored] at hnew
      simp at hnew
  | dropTable other =>
    cases happly
    have hne : name ≠ other := fun hname => hkeep (hname ▸ rfl)
    refine ⟨stored.indexes, ?_⟩
    rw [Bindings.find?_erase, if_neg fun heq => hne (Std.LawfulEqCmp.eq_of_compare heq), hstored]
  | createIndex index other column =>
    obtain ⟨table, found, hfound, -, rfl⟩ := applySchema_createIndex_eq_ok_iff.mp happly
    by_cases hname : name = other
    · subst hname
      rw [hstored, Option.some.injEq] at hfound
      subst hfound
      exact ⟨_, Bindings.find?_insert_self _ _ _⟩
    · exact ⟨stored.indexes, by rw [Bindings.find?_insert_of_ne hname, hstored]⟩

end Keyspace

namespace Cluster

/-- Everything but its removal keeps a table with its definition. -/
theorem Step.table_kept {cluster cluster' : Cluster} {keyspace name : String}
    {stored : StoredTable} (hstored : cluster.table keyspace name = .ok stored)
    (hstep : cluster.Step (· ≠ .dropTable name) cluster') :
    ∃ after, cluster'.table keyspace name = .ok after ∧
      after.definition = stored.definition := by
  simp only [table_eq_ok_iff] at hstored ⊢
  cases hstep with
  | stay => exact ⟨stored, hstored, rfl⟩
  | @schema other statement tables hallowed happly =>
    by_cases hkeyspace : keyspace = other
    · subst hkeyspace
      obtain ⟨indexes, hafter⟩ := Keyspace.find?_applySchema hstored hallowed happly
      rw [tables_setTables_self]
      exact ⟨_, hafter, rfl⟩
    · rw [tables_setTables_of_ne _ hkeyspace]
      exact ⟨stored, hstored, rfl⟩
  | @batch other statements tables happlies =>
    by_cases hkeyspace : keyspace = other
    · subst hkeyspace
      rw [tables_setTables_self]
      exact happlies.find?_kept hstored
    · rw [tables_setTables_of_ne _ hkeyspace]
      exact ⟨stored, hstored, rfl⟩

end Cluster

/-- A table is kept with its definition by any requests of any sessions that do not drop its
name. -/
theorem World.table_run_kept {world : World} {keyspace name : String} {stored : StoredTable}
    (hstored : world.cluster.table keyspace name = .ok stored) (requests : List (String × Request))
    (hkeep : ∀ r ∈ requests, r.2.SchemaSatisfies (· ≠ .dropTable name)) :
    ∃ after, (world.run requests).cluster.table keyspace name = .ok after ∧
      after.definition = stored.definition :=
  World.run_preserves (motive := fun cluster => ∃ after, cluster.table keyspace name = .ok after ∧
      after.definition = stored.definition)
    (fun _ _ ⟨_, htable, hdefinition⟩ hstep =>
      let ⟨after, hafter, hsame⟩ := Cluster.Step.table_kept htable hstep
      ⟨after, hafter, hsame.trans hdefinition⟩)
    requests hkeep world ⟨stored, hstored, rfl⟩

/-- Requests without a commit keep a table that they do not drop, with its definition and its
rows. -/
theorem World.table_run_of_no_commit {world : World} {keyspace name : String} {stored : StoredTable}
    (hstored : world.cluster.table keyspace name = .ok stored) {requests : List (String × Request)}
    (hkeep : ∀ r ∈ requests, r.2.SchemaSatisfies (· ≠ .dropTable name))
    (hcommit : ∀ r ∈ requests, r.2 ≠ .commit) :
    ∃ indexes, (world.run requests).cluster.table keyspace name = .ok { stored with indexes } := by
  induction requests generalizing world stored with
  | nil => exact ⟨stored.indexes, hstored⟩
  | cons request rest ih =>
    obtain ⟨user, request⟩ := request
    obtain ⟨hallowed, hkeep⟩ := List.forall_mem_cons.mp hkeep
    obtain ⟨hfirst, hcommit⟩ := List.forall_mem_cons.mp hcommit
    have hstep : ∃ indexes, (world.answer user request).2.cluster.table keyspace name =
        .ok { stored with indexes } := by
      obtain hsame | ⟨other, statement, tables, rfl, happly, hchanged⟩ :=
        world.cluster_answer_of_ne_commit user hfirst
      · exact ⟨stored.indexes, by rw [hsame, hstored]⟩
      · rw [hchanged]
        simp only [Cluster.table_eq_ok_iff] at hstored ⊢
        by_cases hkeyspace : keyspace = other
        · subst hkeyspace
          rw [Cluster.tables_setTables_self]
          exact Keyspace.find?_applySchema hstored hallowed happly
        · rw [Cluster.tables_setTables_of_ne _ hkeyspace]
          exact ⟨stored.indexes, hstored⟩
    obtain ⟨indexes, hafter⟩ := hstep
    obtain ⟨final, hfinal⟩ := ih hafter hkeep hcommit
    exact ⟨final, hfinal⟩

namespace Cluster

/-- A keyspace has the table of a kind as initialising creates it, under its name and with its
built-in layout. -/
def Keeps (cluster : Cluster) (keyspace : String) (kind : ElementKind) : Prop :=
  ∃ stored, cluster.table keyspace kind.layout.name = .ok stored ∧ stored.definition = kind.layout

/-- To keep the table of a kind is to have one with its layout under its name. -/
theorem keeps_iff {cluster : Cluster} {keyspace : String} {kind : ElementKind} :
    cluster.Keeps keyspace kind ↔
      (Bindings.find? kind.layout.name (cluster.tables keyspace)).map (·.definition) =
        some kind.layout := by
  simp only [Keeps, table_eq_ok_iff, Option.map_eq_some_iff]

/-- A kept table stays through any requests of any sessions that do not drop its name. -/
theorem Keeps.run {world : World} {keyspace : String} {kind : ElementKind}
    (h : world.cluster.Keeps keyspace kind) (requests : List (String × Request))
    (hkeep : ∀ r ∈ requests, r.2.SchemaSatisfies (· ≠ .dropTable kind.layout.name)) :
    (world.run requests).cluster.Keeps keyspace kind := by
  obtain ⟨stored, hstored, hdefinition⟩ := h
  obtain ⟨after, hafter, hsame⟩ := World.table_run_kept hstored requests hkeep
  exact ⟨after, hafter, hsame.trans hdefinition⟩

end Cluster

/-- The indexes of a definition without fault are on its own columns. -/
theorem TableDefinition.exists_type_of_index {d : TableDefinition} (h : d.fault? = none) :
    ∀ index ∈ d.indexes, ∃ type, d.typeOf? index.column = some type := by
  rw [fault?] at h
  split at h
  · cases h
  · split at h
    · cases h
    · intro index hindex
      have hdeclared := List.find?_eq_none.mp (Option.map_eq_none_iff.mp h) index hindex
      simp only [Bool.not_eq_true, Bool.not_eq_false', List.contains_iff_mem, List.mem_map]
        at hdeclared
      obtain ⟨declared, hmem, hcolumn⟩ := hdeclared
      have hsome : (d.declarations.find? fun other => other.column == index.column).isSome :=
        List.find?_isSome.mpr ⟨declared, hmem, beq_iff_eq.mpr hcolumn⟩
      obtain ⟨found, hfound⟩ := Option.isSome_iff_exists.mp hsome
      exact ⟨found.type, by rw [typeOf?, hfound, Option.map_some]⟩

/-- The indexes of a table after declared ones have been created on it, one after the other. One
whose name is taken is left out. -/
def installIndexes (declared : List IndexDeclaration) (indexes : List (String × Column)) :
    List (String × Column) :=
  declared.foldl (fun indexes index => Bindings.insertNew index.name index.column indexes) indexes

namespace GraphTable

/-- A schema statement that is applied is followed by the others. -/
theorem runSchema_cons {statement : SchemaStatement} {rest : List SchemaStatement}
    {c : Connection} {tables : Keyspace} (h : Keyspace.applySchema c.tables statement = .ok tables) :
    runSchema (statement :: rest) c =
      runSchema rest { c with cluster := c.cluster.setTables c.session.keyspace tables } := by
  have hsession : Session.executeSchema statement c = c.executeSchema statement := rfl
  rw [runSchema, SessionM.bind_apply, SessionM.ofStore, hsession, Connection.executeSchema, h]

/-- Creating indexes on a table leaves its definition and its rows. -/
theorem runSchema_createIndexes {d : TableDefinition} {indexes : List IndexDeclaration}
    (hindexes : ∀ index ∈ indexes, ∃ type, d.typeOf? index.column = some type)
    {c : Connection} {stored : StoredTable}
    (hstored : c.cluster.table c.session.keyspace d.name = .ok stored)
    (hdefinition : stored.definition = d) :
    ∃ c', runSchema (indexes.map fun index => .createIndex index.name d.name index.column) c =
        (.ok (), c') ∧ c'.session = c.session ∧
      c'.cluster.table c.session.keyspace d.name =
        .ok { stored with indexes := installIndexes indexes stored.indexes } := by
  induction indexes generalizing c stored with
  | nil => exact ⟨c, rfl, rfl, hstored⟩
  | cons index rest ih =>
    obtain ⟨⟨type, htype⟩, hrest⟩ := List.forall_mem_cons.mp hindexes
    subst hdefinition
    set created : StoredTable :=
      { stored with indexes := Bindings.insertNew index.name index.column stored.indexes }
    have happly : Keyspace.applySchema c.tables
        (.createIndex index.name stored.definition.name index.column) =
          .ok (Bindings.insert stored.definition.name created c.tables) :=
      Keyspace.applySchema_createIndex_eq_ok_iff.mpr ⟨stored, (index.column, type),
        Cluster.table_eq_ok_iff.mp hstored, TableDefinition.resolve_nativeName htype, rfl⟩
    have hcreated : (c.cluster.setTables c.session.keyspace
        (Bindings.insert stored.definition.name created c.tables)).table c.session.keyspace
          stored.definition.name = .ok created := by
      rw [Cluster.table_eq_ok_iff, Cluster.tables_setTables_self, Bindings.find?_insert_self]
    have hafter := ih hrest (c := { c with cluster := _ }) hcreated rfl
    rw [List.map_cons, runSchema_cons happly]
    exact hafter

/-- A table whose name is free is created with its definition, its indexes and no rows. -/
theorem runSchema_create {d : TableDefinition} (hfault : d.fault? = none) {c : Connection}
    (hfree : ∀ stored, c.cluster.table c.session.keyspace d.name ≠ .ok stored) :
    ∃ c', runSchema (d.createTable :: d.createIndexes) c = (.ok (), c') ∧
      c'.session = c.session ∧ c'.cluster.table c.session.keyspace d.name =
        .ok { definition := d, indexes := installIndexes d.indexes [] } := by
  have hnone : Bindings.find? d.name c.tables = none := by
    cases hfound : Bindings.find? d.name c.tables with
    | none => rfl
    | some stored => exact absurd (Cluster.table_eq_ok_iff.mpr hfound) (hfree stored)
  have happly : Keyspace.applySchema c.tables d.createTable =
      .ok (Bindings.insert d.name { definition := d } c.tables) := by
    rw [TableDefinition.createTable, Keyspace.applySchema, Bindings.insertNew, hnone]
    rfl
  have hcreated : (c.cluster.setTables c.session.keyspace (Bindings.insert d.name
      { definition := d } c.tables)).table c.session.keyspace d.name = .ok { definition := d } := by
    rw [Cluster.table_eq_ok_iff, Cluster.tables_setTables_self, Bindings.find?_insert_self]
  have hafter := runSchema_createIndexes (TableDefinition.exists_type_of_index hfault)
    (c := { c with cluster := _ }) hcreated rfl
  rw [runSchema_cons happly]
  exact hafter

/-- Initialising a table whose name is free creates it with its layout and without rows. -/
theorem init_creates (table : GraphTable) {c : Connection}
    (hfree : ∀ stored, c.cluster.table c.session.keyspace table.name ≠ .ok stored) :
    ∃ c', table.init c = (.ok (), c') ∧ c'.session = c.session ∧
      ∃ indexes, c'.cluster.table c.session.keyspace table.name =
        .ok { definition := table.definition, indexes } := by
  obtain ⟨c', hrun, hsession, htable⟩ := runSchema_create table.kind.fault?_layout hfree
  exact ⟨c', hrun, hsession, _, htable⟩

/-- A keyspace keeps a table that was initialised while its name was free. -/
theorem keeps_of_init (table : GraphTable) {c c' : Connection}
    (hfree : ∀ stored, c.cluster.table c.session.keyspace table.name ≠ .ok stored)
    (hinit : table.init c = (.ok (), c')) : c'.cluster.Keeps c.session.keyspace table.kind := by
  obtain ⟨created, hcreated, -, indexes, htable⟩ := table.init_creates hfree
  rw [hcreated, Prod.mk.injEq] at hinit
  obtain ⟨-, rfl⟩ := hinit
  exact ⟨_, htable, rfl⟩

end GraphTable

end WideGraph
