import WideGraph.Proofs.Store.Coherence
import WideGraph.Proofs.Store.CommitLog

/-!
# Where stored values come from

A cell of a stored row is there because an insert or update gave its column a value, of which it is
the bound form, or because assignments have left a collection in it that is not empty. The parts of
a row's key were given, too, although a null among them may have left no cell. Of a table that some
requests lead to, the statements in question are among those that were committed to it.
-/

namespace WideGraph

/-- A statement gives a value for a column, by whichever name it calls the column. Assignments and
deletes do not give values. -/
def Statement.Gives (statement : Statement) (column : Column) (value : Value) : Prop :=
  ∃ name, Column.ofName? name = some column ∧
    match statement with
    | .insert s => (name, value) ∈ s.values
    | .update s => Clause.eq name value ∈ s.clauses
    | .delete _ => False

/-- A value is the bound form of one that some of the statements gives for the column. -/
def Given (statements : Statement → Prop) (d : TableDefinition) (column : Column) (value : Value) :
    Prop :=
  ∃ statement given type, statements statement ∧ statement.Gives column given ∧
    d.typeOf? column = some type ∧ type.bind given = .ok value

/-- A value is a collection of a type and not empty. -/
def ColumnType.IsFilled : ColumnType → Value → Prop
  | .textSet, .set s => s.isEmpty = false
  | .textMap, .map m => m.isEmpty = false
  | _, _ => False

/-- A value is what assignments may leave in a column. -/
def Assigned (d : TableDefinition) (column : Column) (value : Value) : Prop :=
  d.isPrimaryKey column = false ∧ ∃ type, d.typeOf? column = some type ∧ type.IsFilled value

/-- Each of some cells was given or assigned. -/
def ColumnValues.Originate (statements : Statement → Prop) (d : TableDefinition)
    (cells : ColumnValues) : Prop :=
  ∀ column value, cells.find? column = some value →
    Given statements d column value ∨ Assigned d column value

/-- The cells of a row were given or assigned, and the parts of its key were given. -/
structure StoredRow.Originates (statements : Statement → Prop) (d : TableDefinition)
    (row : StoredRow) : Prop where
  cells : row.cells.Originate statements d
  key : ∀ column, d.isPrimaryKey column = true → Given statements d column (row.valueOf column)

/-- Every row of a table has its origin in some statements. -/
def StoredTable.Originates (statements : Statement → Prop) (table : StoredTable) : Prop :=
  ∀ entry ∈ table.rows, entry.2.Originates statements table.definition

namespace StoredTable

variable {table : StoredTable}

/-- What an assignment makes of a set is a set. -/
theorem exists_set_of_applyTo {type : ColumnType} {assignment : Assignment} {before : TextSet}
    {after : Value} (h : assignment.applyTo type (.set before) = .ok after) :
    ∃ s, after = .set s := by
  cases assignment with
  | append column value =>
    obtain ⟨bound, -, hbound⟩ := bind_ok_iff.mp h
    split at hbound <;> cases hbound <;> exact ⟨_, rfl⟩
  | removeAll column value =>
    obtain ⟨bound, -, hbound⟩ := bind_ok_iff.mp h
    split at hbound <;> cases hbound <;> exact ⟨_, rfl⟩
  | remove column value =>
    cases h
    exact ⟨_, rfl⟩

/-- What an assignment makes of a map is a map. -/
theorem exists_map_of_applyTo {type : ColumnType} {assignment : Assignment} {before : TextMap}
    {after : Value} (h : assignment.applyTo type (.map before) = .ok after) :
    ∃ m, after = .map m := by
  rw [Assignment.applyTo.eq_def] at h
  split at h <;> first | (cases h; exact ⟨_, rfl⟩) | contradiction

/-- Only a collection of a type is changed by an assignment, among what a column of the type keeps.
-/
theorem collection_of_applyTo {type : ColumnType} {assignment : Assignment} {cell : Option Value}
    {collection after : Value}
    (hcell : ∀ before, cell = some before → type.bind before = .ok before)
    (hcollection : type.collectionOf cell = .ok collection)
    (happly : assignment.applyTo type collection = .ok after) :
    (type = .textSet ∧ ∃ s, collection = .set s) ∨
      (type = .textMap ∧ ∃ m, collection = .map m) := by
  cases type with
  | text => cases hcollection
  | decimal => cases hcollection
  | textSet =>
    cases cell with
    | none =>
      cases hcollection
      exact .inl ⟨rfl, _, rfl⟩
    | some before =>
      cases hcollection
      have hbind := hcell collection rfl
      cases collection with
      | set s => exact .inl ⟨rfl, s, rfl⟩
      | null => cases assignment <;> cases happly
      | text t => cases assignment <;> cases happly
      | _ => cases hbind
  | textMap =>
    cases cell with
    | none =>
      cases hcollection
      exact .inr ⟨rfl, _, rfl⟩
    | some before =>
      cases hcollection
      have hbind := hcell collection rfl
      cases collection with
      | map m => exact .inr ⟨rfl, m, rfl⟩
      | null => cases assignment <;> cases happly
      | text t => cases assignment <;> cases happly
      | _ => cases hbind

/-- What an assignment leaves in a column is a collection of its type that is not empty. -/
theorem isFilled_of_cellAfter {type : ColumnType} {assignment : Assignment} {cell : Option Value}
    {value : Value} (hcell : ∀ before, cell = some before → type.bind before = .ok before)
    (h : assignment.cellAfter type cell = .ok (some value)) : type.IsFilled value := by
  rw [Assignment.cellAfter] at h
  obtain ⟨collection, hcollection, h⟩ := bind_ok_iff.mp h
  obtain ⟨after, happly, h⟩ := bind_ok_iff.mp h
  rw [Except.ok.injEq] at h
  obtain ⟨rfl, s, rfl⟩ | ⟨rfl, m, rfl⟩ := collection_of_applyTo hcell hcollection happly
  · obtain ⟨s, rfl⟩ := exists_set_of_applyTo happly
    rw [Value.collectionCell] at h
    split at h
    · cases h
    · rename_i hfilled
      cases h
      exact Bool.eq_false_iff.mpr hfilled
  · obtain ⟨m, rfl⟩ := exists_map_of_applyTo happly
    rw [Value.collectionCell] at h
    split at h
    · cases h
    · rename_i hfilled
      cases h
      exact Bool.eq_false_iff.mpr hfilled

end StoredTable

/-- Only null is bound to null. -/
theorem ColumnType.eq_null_of_bind {type : ColumnType} {value : Value}
    (h : type.bind value = .ok .null) : value = .null := by
  cases type <;> cases value <;> cases h <;> rfl

section Bound

variable {statements : Statement → Prop} {d : TableDefinition} {column : Column} {value : Value}

/-- A given value is bound to itself. -/
theorem Given.bind_self (h : Given statements d column value) :
    ∃ type, d.typeOf? column = some type ∧ type.bind value = .ok value := by
  obtain ⟨-, given, type, -, -, htype, hbind⟩ := h
  exact ⟨type, htype, ColumnType.bind_bound hbind⟩

/-- An assigned value is bound to itself. -/
theorem Assigned.bind_self (h : Assigned d column value) :
    ∃ type, d.typeOf? column = some type ∧ type.bind value = .ok value := by
  obtain ⟨-, type, htype, hfilled⟩ := h
  refine ⟨type, htype, ?_⟩
  cases type <;> cases value <;> first | rfl | exact hfilled.elim

/-- Cells that have their origin are bound to themselves. -/
theorem ColumnValues.Originate.bind_self {cells : ColumnValues} (h : cells.Originate statements d)
    (hcell : cells.find? column = some value) {type : ColumnType}
    (htype : d.typeOf? column = some type) : type.bind value = .ok value := by
  obtain ⟨found, hfound, hbind⟩ := (h column value hcell).elim Given.bind_self Assigned.bind_self
  rw [htype, Option.some.injEq] at hfound
  rwa [hfound]

/-- No cells need no origin. -/
theorem ColumnValues.originate_empty : ColumnValues.empty.Originate statements d := by
  intro column value h
  cases h

end Bound

namespace StoredTable

variable {table changed : StoredTable} {statements : Statement → Prop}

/-- The values that an insert binds were given by it. -/
theorem given_of_insert {insert : Insert} (hinsert : statements (.insert insert))
    {bound : ColumnValues} (h : table.bindAll .empty insert.values = .ok bound) {column : Column}
    {value : Value} (hvalue : bound.find? column = some value) :
    Given statements table.definition column value := by
  obtain ⟨name, given, type, hname, hmem, htype, hbind⟩ := listed_of_bindAll h hvalue
  exact ⟨.insert insert, given, type, hinsert, ⟨name, hname, hmem⟩, htype, hbind⟩

/-- The values that an update binds were given by it. -/
theorem given_of_update {update : Update} (hupdate : statements (.update update))
    {bound : ColumnValues}
    (h : table.bindEqualities .updateNotByEquality .empty update.clauses = .ok bound)
    {column : Column} {value : Value} (hvalue : bound.find? column = some value) :
    Given statements table.definition column value := by
  obtain ⟨values, hclauses, hbind⟩ := exists_bindAll_of_bindEqualities h
  obtain ⟨name, given, type, hname, hmem, htype, hbind⟩ := listed_of_bindAll hbind hvalue
  refine ⟨.update update, given, type, hupdate, ⟨name, hname, ?_⟩, htype, hbind⟩
  change Clause.eq name given ∈ update.clauses
  rw [hclauses]
  exact List.mem_map_of_mem (f := fun pair => Clause.eq pair.1 pair.2) hmem

/-- Assignments keep cells that have their origin so. -/
theorem originate_of_assignCells {d : TableDefinition}
    {changes : List (Column × ColumnType × Assignment)}
    (hchanges : ∀ change ∈ changes, d.typeOf? change.1 = some change.2.1 ∧
      d.isPrimaryKey change.1 = false)
    {cells after : ColumnValues} (hcells : cells.Originate statements d)
    (h : assignCells cells changes = .ok after) : after.Originate statements d := by
  refine assignCells_induction (P := (·.Originate statements d)) h hcells
    fun change hchange before kept hbefore hkept => ?_
  obtain ⟨htype, hprimary⟩ := hchanges change hchange
  intro column value hvalue
  rw [ColumnValues.find?_keep] at hvalue
  split at hvalue
  · rename_i heq
    subst heq hvalue
    have hfilled : change.2.1.IsFilled value :=
      isFilled_of_cellAfter (fun _ hfound => hbefore.bind_self hfound htype) hkept
    exact .inr ⟨hprimary, change.2.1, htype, hfilled⟩
  · exact hbefore column value hvalue

/-- An insert leaves rows that have their origin in the statements and the insert. -/
theorem Originates.insert (h : table.Originates statements) (hcoherent : table.Coherent)
    {insert : Insert} (hinsert : statements (.insert insert))
    (happly : table.insert insert = .ok changed) : changed.Originates statements := by
  obtain ⟨bound, key, hbind, hkey, rfl⟩ := insert_eq_ok_iff.mp happly
  have hstorable := storable_of_keyOf (bindAll_fits hbind) hkey
  have hbefore : ((Bindings.find? key table.rows).getD {}).cells.Originate statements
      table.definition := by
    cases hfound : Bindings.find? key table.rows with
    | none => exact ColumnValues.originate_empty
    | some row => exact (h _ (hcoherent.mem_of_find? hstorable hfound)).cells
  refine hcoherent.forall_mem_insert hstorable h
    ⟨fun column value hvalue => ?_, fun column hprimary => ?_⟩
  · rw [find?_writeCells] at hvalue
    split at hvalue
    · rename_i boundValue hboundValue
      split at hvalue
      · cases hvalue
      · cases hvalue
        exact .inl (given_of_insert hinsert hbind hboundValue)
    · exact hbefore column value hvalue
  · obtain ⟨value, hvalue⟩ := exists_find?_of_keyOf hkey hprimary
    have hwritten : StoredRow.valueOf ⟨writeCells ((Bindings.find? key table.rows).getD {}).cells
        bound, true⟩ column = value := by
      rw [StoredRow.valueOf, find?_writeCells, hvalue]
      cases value <;> rfl
    rw [hwritten]
    exact given_of_insert hinsert hbind hvalue

/-- An update leaves rows that have their origin in the statements and the update. -/
theorem Originates.update (h : table.Originates statements) (hcoherent : table.Coherent)
    {update : Update} (hupdate : statements (.update update))
    (happly : table.update update = .ok changed) : changed.Originates statements := by
  obtain ⟨bound, key, changes, cells, haddressed, hcells, rfl⟩ := update_eq_ok_iff.mp happly
  obtain ⟨hbind, hkey, hassigned⟩ := addressed_eq_ok_iff.mp haddressed
  have hstorable := storable_of_keyOf (bindEqualities_fits hbind) hkey
  have hbefore : ((Bindings.find? key table.rows).getD ⟨bound, false⟩).Originates statements
      table.definition := by
    cases hfound : Bindings.find? key table.rows with
    | some row => exact h _ (hcoherent.mem_of_find? hstorable hfound)
    | none =>
      refine ⟨fun column value hvalue => .inl (given_of_update hupdate hbind hvalue),
        fun column hprimary => ?_⟩
      obtain ⟨value, hvalue⟩ := exists_find?_of_keyOf hkey hprimary
      rw [Option.getD_none, StoredRow.valueOf, hvalue]
      exact given_of_update hupdate hbind hvalue
  split
  · refine hcoherent.forall_mem_insert hstorable h
      ⟨originate_of_assignCells (resolved_of_assignedColumns hassigned) hbefore.cells hcells,
        fun column hprimary => ?_⟩
    rw [StoredRow.valueOf, find?_assignCells_of_primary
      (changeable_of_assignedColumns hassigned) hcells hprimary]
    exact hbefore.key column hprimary
  · exact fun entry hentry => h entry (List.mem_filter.mp hentry).1

/-- Every statement leaves rows that have their origin in it and the statements before. -/
theorem Originates.apply (h : table.Originates statements) (hcoherent : table.Coherent)
    {statement : Statement} (hstatement : statements statement)
    (happly : table.apply statement = .ok changed) : changed.Originates statements := by
  cases statement with
  | insert insert => exact h.insert hcoherent hstatement happly
  | update update => exact h.update hcoherent hstatement happly
  | delete delete =>
    obtain ⟨bound, -, -, rfl⟩ := delete_eq_ok_iff.mp happly
    exact fun entry hentry => h entry (List.mem_filter.mp hentry).1

end StoredTable

namespace Keyspace

/-- Every table of a keyspace is coherent and has its origin in the statements for its name. -/
def Originate (statements : String → Statement → Prop) (tables : Keyspace) : Prop :=
  ∀ name table, Bindings.find? name tables = some table →
    table.Coherent ∧ table.Originates (statements name)

/-- A change of the schema leaves a table without rows or as it was, but for its indexes. -/
theorem rows_of_applySchema {tables reached : Keyspace} {statement : SchemaStatement}
    (h : applySchema tables statement = .ok reached) {name : String} {table : StoredTable}
    (hfound : Bindings.find? name reached = some table) :
    table.rows = [] ∨ ∃ before, Bindings.find? name tables = some before ∧
      before.definition = table.definition ∧ before.rows = table.rows := by
  cases statement with
  | createTable definition =>
    cases h
    rw [Bindings.insertNew] at hfound
    split at hfound
    · exact .inr ⟨table, hfound, rfl, rfl⟩
    · by_cases heq : name = definition.name
      · rw [heq, Bindings.find?_insert_self, Option.some.injEq] at hfound
        rw [← hfound]
        exact .inl rfl
      · rw [Bindings.find?_insert_of_ne heq] at hfound
        exact .inr ⟨table, hfound, rfl, rfl⟩
  | dropTable dropped =>
    cases h
    rw [Bindings.find?_erase] at hfound
    split at hfound
    · cases hfound
    · exact .inr ⟨table, hfound, rfl, rfl⟩
  | createIndex index indexed column =>
    obtain ⟨before, found, hbefore, -, rfl⟩ := applySchema_createIndex_eq_ok_iff.mp h
    by_cases heq : name = indexed
    · rw [heq, Bindings.find?_insert_self, Option.some.injEq] at hfound
      subst heq hfound
      exact .inr ⟨before, hbefore, rfl, rfl⟩
    · rw [Bindings.find?_insert_of_ne heq] at hfound
      exact .inr ⟨table, hfound, rfl, rfl⟩

/-- Every table of a keyspace has a property that may depend on its name. -/
def AllNamed (motive : String → StoredTable → Prop) (tables : Keyspace) : Prop :=
  ∀ name table, Bindings.find? name tables = some table → motive name table

section Named

variable {motive : String → StoredTable → Prop}
  (hempty : ∀ name table, table.rows = [] → motive name table)
  (hsame : ∀ name before table, before.definition = table.definition → before.rows = table.rows →
    motive name before → motive name table)

include hempty hsame

/-- One change keeps a property of all tables that tables without rows have, that depends on nothing
but the definition and the rows, and that the statement of the change keeps. -/
theorem AllNamed.redo {tables reached : Keyspace} (h : AllNamed motive tables) {change : Change}
    (hchange : ∀ statement table changed, change = .statement statement →
      motive statement.table table → table.apply statement = .ok changed →
      motive statement.table changed)
    (hredo : tables.redo change = .ok reached) : AllNamed motive reached := by
  intro name table hfound
  cases change with
  | schema statement =>
    obtain hnone | ⟨before, hbefore, hdefinition, hrows⟩ := rows_of_applySchema hredo hfound
    · exact hempty name table hnone
    · exact hsame name before table hdefinition hrows (h name before hbefore)
  | statement statement =>
    rw [Keyspace.redo, applyStatement] at hredo
    cases hbefore : Bindings.find? statement.table tables with
    | none =>
      rw [hbefore] at hredo
      cases hredo
    | some before =>
      rw [hbefore] at hredo
      obtain ⟨changed, happly, rfl⟩ := map_ok_iff.mp hredo
      by_cases heq : name = statement.table
      · rw [heq, Bindings.find?_insert_self, Option.some.injEq] at hfound
        subst heq hfound
        exact hchange statement before changed rfl (h _ before hbefore) happly
      · rw [Bindings.find?_insert_of_ne heq] at hfound
        exact h name table hfound

/-- Several changes keep such a property of all tables, if each statement among them does. -/
theorem AllNamed.replay {changes : List Change}
    (hchanges : ∀ statement table changed, .statement statement ∈ changes →
      motive statement.table table → table.apply statement = .ok changed →
      motive statement.table changed)
    {tables reached : Keyspace} (h : AllNamed motive tables)
    (hreplay : tables.replay changes = .ok reached) : AllNamed motive reached := by
  induction changes generalizing tables with
  | nil =>
    cases hreplay
    exact h
  | cons change rest ih =>
    obtain ⟨middle, hredo, hrest⟩ := bind_ok_iff.mp hreplay
    refine ih (fun statement table changed hmem =>
        hchanges statement table changed (List.mem_cons_of_mem _ hmem))
      (h.redo hempty hsame (fun statement table changed heq => ?_) hredo) hrest
    subst heq
    exact hchanges statement table changed List.mem_cons_self

end Named

/-- Several changes keep the origin of all tables, if each statement is among those for its table.
-/
theorem Originate.replay {statements : String → Statement → Prop} {changes : List Change}
    (hchanges : ∀ statement, .statement statement ∈ changes →
      statements statement.table statement)
    {tables reached : Keyspace} (h : Originate statements tables)
    (hreplay : tables.replay changes = .ok reached) : Originate statements reached := by
  refine AllNamed.replay (motive := fun name table =>
      table.Coherent ∧ table.Originates (statements name))
    (fun name table hnone => ?_) (fun name before table hdefinition hrows hbefore => ?_)
    (fun statement table changed hmem hbefore happly => ?_) h hreplay
  · refine ⟨⟨?_, ?_⟩, ?_⟩
    · rw [hnone]
      exact List.Pairwise.nil
    · rw [hnone]
      simp
    · intro entry hentry
      rw [hnone] at hentry
      cases hentry
  · obtain ⟨⟨hincreasing, hcoherent⟩, horiginates⟩ := hbefore
    rw [hrows] at hincreasing hcoherent
    rw [hdefinition] at hcoherent
    refine ⟨⟨hincreasing, hcoherent⟩, fun entry hentry => ?_⟩
    rw [← hrows] at hentry
    exact hdefinition ▸ horiginates entry hentry
  · exact ⟨hbefore.1.apply happly,
      hbefore.2.apply hbefore.1 (hchanges statement hmem) happly⟩

end Keyspace

namespace CommitLog

/-- The statements of a log that were committed to a table of a keyspace. -/
def CommittedTo (log : List LogEntry) (keyspace name : String) (statement : Statement) : Prop :=
  .statement statement ∈ changesOf keyspace log ∧ statement.table = name

/-- The rows of a table that some requests lead to have their origin in the statements that were
committed to it. -/
theorem originates_run (requests : List (String × Request)) {keyspace name : String}
    {table : StoredTable}
    (htable : (World.run {} requests).cluster.table keyspace name = .ok table) :
    table.Originates (CommittedTo (ofRequests requests) keyspace name) := by
  obtain ⟨-, hreplay⟩ := tracks_nil.run requests
  have htables := replay_changesOf hreplay keyspace
  have hempty : Keyspace.Originate (CommittedTo (ofRequests requests) keyspace)
      (({} : World).cluster.tables keyspace) := by
    intro name table hfound
    cases hfound
  exact (hempty.replay (fun statement hmem => ⟨hmem, rfl⟩) htables name table
    (Cluster.table_eq_ok_iff.mp htable)).2

end CommitLog

end WideGraph
