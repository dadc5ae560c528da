import WideGraph.Proofs.Store.Origins

/-!
# The types of stored cells

A text column keeps texts, a decimal column decimals, and a collection column its collections. Two
other things get into stored cells. A text may be bound to a collection column, since it stands
there for an element, and a statement that gives one for the column leaves it as the cell. An update
that creates a row leaves the nulls of its equalities as cells. On such cells, and on no others, an
assignment of a fitting collection fails.
-/

namespace WideGraph

/-- Whether columns of the type keep collections. -/
def ColumnType.isCollection : ColumnType → Bool
  | .textSet | .textMap => true
  | _ => false

/-- Whether a value is of the kind that a column of the type is declared for. -/
def ColumnType.holds : ColumnType → Value → Bool
  | .text, .text _ | .decimal, .decimal _ | .textSet, .set _ | .textMap, .map _ => true
  | _, _ => false

/-- The operand of an assignment fits a collection column. To a set goes what can be bound to it,
and that can be taken out of it; to a map goes a map, and a set of keys can be taken out of it. As a
single element or key any value can be taken out, by its text. -/
def Assignment.Fitting : Assignment → ColumnType → Prop
  | .append _ value, .textSet | .removeAll _ value, .textSet =>
    ∃ bound, ColumnType.textSet.bind value = .ok bound
  | .append _ value, .textMap => ∃ pairs, value = .map pairs
  | .removeAll _ value, .textMap => ∃ keys, value = .set keys
  | .remove _ _, .textSet | .remove _ _, .textMap => True
  | _, _ => False

/-- The nulls that a table keeps as cells were given by updates among the statements. -/
def StoredTable.NullsGiven (statements : Statement → Prop) (table : StoredTable) : Prop :=
  ∀ entry ∈ table.rows, ∀ column, entry.2.cells.find? column = some .null →
    ∃ update, statements (.update update) ∧ (Statement.update update).Gives column .null

namespace Bindings

variable {κ α : Type} [Ord κ]

/-- What is found is the value of some binding. -/
theorem exists_mem_of_find? {k : κ} {bindings : List (κ × α)} {a : α}
    (h : find? k bindings = some a) : ∃ j, (j, a) ∈ bindings := by
  induction bindings with
  | nil => cases h
  | cons head rest ih =>
    obtain ⟨j, b⟩ := head
    rw [find?] at h
    split at h
    · cases h
      exact ⟨j, List.mem_cons_self⟩
    · obtain ⟨i, hmem⟩ := ih h
      exact ⟨i, List.mem_cons_of_mem _ hmem⟩

/-- The values of bindings after an insertion are those before it and the new one. -/
theorem value_of_mem_insert {k : κ} {a : α} {bindings : List (κ × α)} {b : κ × α}
    (h : b ∈ insert k a bindings) : b.2 = a ∨ b ∈ bindings := by
  induction bindings with
  | nil =>
    cases List.mem_singleton.mp h
    exact .inl rfl
  | cons head rest ih =>
    obtain ⟨j, c⟩ := head
    rw [insert] at h
    split at h
    · obtain rfl | h := List.mem_cons.mp h
      · exact .inl rfl
      · exact .inr h
    · obtain rfl | h := List.mem_cons.mp h
      · exact .inl rfl
      · exact .inr (List.mem_cons_of_mem _ h)
    · obtain rfl | h := List.mem_cons.mp h
      · exact .inr List.mem_cons_self
      · exact (ih h).imp_right (List.mem_cons_of_mem _)

end Bindings

namespace ColumnType

/-- What is bound to a column is of its type, or null, or the very text that was given for a
collection column. -/
theorem holds_or_of_bind {type : ColumnType} {given value : Value}
    (h : type.bind given = .ok value) :
    type.holds value = true ∨ value = .null ∧ given = .null ∨
      type.isCollection = true ∧ ∃ t, value = .text t ∧ given = .text t := by
  cases type <;> cases given <;> cases h <;> simp [holds, isCollection]

/-- A collection that is not empty is of its type. -/
theorem holds_of_isFilled {type : ColumnType} {value : Value} (h : type.IsFilled value) :
    type.holds value = true := by
  cases type <;> cases value <;> first | rfl | exact h.elim

/-- A value of a type is bound to itself. -/
theorem bind_of_holds {type : ColumnType} {value : Value} (h : type.holds value = true) :
    type.bind value = .ok value := by
  cases type <;> cases value <;> first | rfl | cases h

end ColumnType

namespace ColumnValues

/-- Every value is in the form in which its column keeps it. -/
def KeptIn (values : ColumnValues) (d : TableDefinition) : Prop :=
  ∀ column type value, d.typeOf? column = some type → values.find? column = some value →
    type.bind value = .ok value

/-- Values stay in the form in which their columns keep them, if what is kept of one is in it. -/
theorem KeptIn.keep {values : ColumnValues} {d : TableDefinition} (h : values.KeptIn d)
    {column : Column} {type : ColumnType} (htype : d.typeOf? column = some type)
    {kept : Option Value} (hkept : ∀ value, kept = some value → type.bind value = .ok value) :
    (values.keep column kept).KeptIn d := by
  intro other declared value hdeclared hvalue
  rw [find?_keep] at hvalue
  split at hvalue
  · rename_i heq
    rw [heq, htype, Option.some.injEq] at hdeclared
    exact hdeclared ▸ hkept value hvalue
  · exact h other declared value hdeclared hvalue

end ColumnValues

namespace StoredTable

variable {table changed : StoredTable} {statements : Statement → Prop}

/-- A fitting assignment can be made to every collection of the type. -/
theorem exists_applyTo {type : ColumnType} {assignment : Assignment} {collection : Value}
    (hfitting : assignment.Fitting type) (hholds : type.holds collection = true) :
    ∃ after, assignment.applyTo type collection = .ok after := by
  cases type with
  | text => cases assignment <;> exact hfitting.elim
  | decimal => cases assignment <;> exact hfitting.elim
  | textSet =>
    cases collection with
    | set s =>
      cases assignment with
      | append column value =>
        obtain ⟨bound, hbind⟩ := hfitting
        rw [Assignment.applyTo, hbind]
        cases bound <;> exact ⟨_, rfl⟩
      | removeAll column value =>
        obtain ⟨bound, hbind⟩ := hfitting
        rw [Assignment.applyTo, hbind]
        cases bound <;> exact ⟨_, rfl⟩
      | remove column value => exact ⟨_, rfl⟩
    | _ => cases hholds
  | textMap =>
    cases collection with
    | map m =>
      cases assignment with
      | append column value =>
        obtain ⟨pairs, rfl⟩ := hfitting
        exact ⟨_, rfl⟩
      | removeAll column value =>
        obtain ⟨keys, rfl⟩ := hfitting
        exact ⟨_, rfl⟩
      | remove column value => exact ⟨_, rfl⟩
    | _ => cases hholds

/-- An assignment that fits a column starts from what is in the cell, or from an empty collection.
-/
theorem exists_collectionOf {type : ColumnType} {assignment : Assignment} {cell : Option Value}
    (hfitting : assignment.Fitting type)
    (hcell : ∀ value, cell = some value → type.holds value = true) :
    ∃ collection, type.collectionOf cell = .ok collection ∧ type.holds collection = true := by
  cases type with
  | text => cases assignment <;> exact hfitting.elim
  | decimal => cases assignment <;> exact hfitting.elim
  | textSet =>
    cases cell with
    | none => exact ⟨_, rfl, rfl⟩
    | some value => exact ⟨value, rfl, hcell value rfl⟩
  | textMap =>
    cases cell with
    | none => exact ⟨_, rfl, rfl⟩
    | some value => exact ⟨value, rfl, hcell value rfl⟩

/-- A fitting assignment to a collection column fails on a cell exactly if the cell is not of the
type of the column, among the cells that the column keeps. -/
theorem exists_cellAfter_iff {type : ColumnType} {assignment : Assignment} {cell : Option Value}
    (hfitting : assignment.Fitting type)
    (hcell : ∀ value, cell = some value → type.bind value = .ok value) :
    (∃ after, assignment.cellAfter type cell = .ok after) ↔
      ∀ value, cell = some value → type.holds value = true := by
  constructor
  · rintro ⟨after, h⟩ value rfl
    rw [Assignment.cellAfter] at h
    obtain ⟨collection, hcollection, h⟩ := bind_ok_iff.mp h
    obtain ⟨changed, happly, -⟩ := bind_ok_iff.mp h
    obtain ⟨rfl, s, rfl⟩ | ⟨rfl, m, rfl⟩ := collection_of_applyTo hcell hcollection happly
    · cases hcollection
      rfl
    · cases hcollection
      rfl
  · intro hholds
    obtain ⟨collection, hcollection, hkind⟩ := exists_collectionOf hfitting hholds
    obtain ⟨after, happly⟩ := exists_applyTo hfitting hkind
    exact ⟨after.collectionCell,
      bind_ok_iff.mpr ⟨collection, hcollection, bind_ok_iff.mpr ⟨after, happly, rfl⟩⟩⟩

/-- Fitting assignments can be made one after the other exactly if every cell that one of them is
made to is of the type of its column to begin with. -/
theorem exists_assignCells_iff {d : TableDefinition}
    {changes : List (Column × ColumnType × Assignment)}
    (hchanges : ∀ change ∈ changes, d.typeOf? change.1 = some change.2.1)
    (hfitting : ∀ change ∈ changes, change.2.2.Fitting change.2.1) {cells : ColumnValues}
    (hcells : cells.KeptIn d) :
    (∃ after, assignCells cells changes = .ok after) ↔
      ∀ change ∈ changes, ∀ value, cells.find? change.1 = some value →
        change.2.1.holds value = true := by
  induction changes generalizing cells with
  | nil => exact ⟨fun _ => List.forall_mem_nil _, fun _ => ⟨cells, rfl⟩⟩
  | cons change rest ih =>
    obtain ⟨column, type, assignment⟩ := change
    obtain ⟨htype, hrest⟩ := List.forall_mem_cons.mp hchanges
    obtain ⟨hfits, hfittingRest⟩ := List.forall_mem_cons.mp hfitting
    have hfirst := exists_cellAfter_iff hfits fun value => hcells column type value htype
    -- What one assignment leaves in a column is of its type, so that it bars no later one.
    have hleft : ∀ {kept}, assignment.cellAfter type (cells.find? column) = .ok kept →
        ∀ value, kept = some value → type.holds value = true := by
      rintro kept hkept value rfl
      exact ColumnType.holds_of_isFilled
        (isFilled_of_cellAfter (fun before => hcells column type before htype) hkept)
    have hnext : ∀ {kept}, assignment.cellAfter type (cells.find? column) = .ok kept →
        ((∃ after, assignCells (cells.keep column kept) rest = .ok after) ↔
          ∀ change ∈ rest, ∀ value, (cells.keep column kept).find? change.1 = some value →
            change.2.1.holds value = true) := fun hkept =>
      ih hrest hfittingRest
        (hcells.keep htype fun value h => ColumnType.bind_of_holds (hleft hkept value h))
    have hsame : ∀ change ∈ rest, change.1 = column → change.2.1 = type := by
      intro change hmem heq
      have hdeclared := hrest change hmem
      rw [heq, htype, Option.some.injEq] at hdeclared
      exact hdeclared.symm
    rw [List.forall_mem_cons, ← hfirst, assignCells_cons]
    constructor
    · rintro ⟨after, h⟩
      obtain ⟨kept, hkept, h⟩ := bind_ok_iff.mp h
      refine ⟨⟨kept, hkept⟩, fun change hmem value hvalue => ?_⟩
      by_cases heq : change.1 = column
      · rw [hsame change hmem heq]
        exact hfirst.mp ⟨kept, hkept⟩ value (heq ▸ hvalue)
      · refine (hnext hkept).mp ⟨after, h⟩ change hmem value ?_
        rw [ColumnValues.find?_keep, if_neg heq, hvalue]
    · rintro ⟨⟨kept, hkept⟩, h⟩
      have hafter := (hnext hkept).mpr fun change hmem value hvalue => by
        rw [ColumnValues.find?_keep] at hvalue
        split at hvalue
        · rename_i heq
          rw [hsame change hmem heq]
          exact hleft hkept value hvalue
        · exact h change hmem value hvalue
      obtain ⟨after, hafter⟩ := hafter
      exact ⟨after, bind_ok_iff.mpr ⟨kept, hkept, hafter⟩⟩

/-- A cell after assignments is the one before, or what one of them has left in its column. -/
theorem left_of_assignCells {changes : List (Column × ColumnType × Assignment)}
    {cells after : ColumnValues} (h : assignCells cells changes = .ok after) {column : Column}
    {value : Value} (hvalue : after.find? column = some value) :
    cells.find? column = some value ∧ (∀ change ∈ changes, change.1 ≠ column) ∨
      ∃ type assignment cell, (column, type, assignment) ∈ changes ∧
        assignment.cellAfter type cell = .ok (some value) := by
  induction changes generalizing cells with
  | nil =>
    cases h
    exact .inl ⟨hvalue, List.forall_mem_nil _⟩
  | cons change rest ih =>
    obtain ⟨first, type, assignment⟩ := change
    rw [assignCells_cons] at h
    obtain ⟨kept, hkept, h⟩ := bind_ok_iff.mp h
    obtain ⟨hbefore, hother⟩ | ⟨declared, later, cell, hmem, hleft⟩ := ih h
    · rw [ColumnValues.find?_keep] at hbefore
      split at hbefore
      · rename_i heq
        subst heq hbefore
        exact .inr ⟨type, assignment, _, List.mem_cons_self, hkept⟩
      · rename_i hne
        exact .inl ⟨hbefore, List.forall_mem_cons.mpr ⟨fun heq => hne heq.symm, hother⟩⟩
    · exact .inr ⟨declared, later, cell, List.mem_cons_of_mem _ hmem, hleft⟩

/-- What an assignment leaves is a set or a map that is not empty. -/
theorem filled_of_cellAfter {type : ColumnType} {assignment : Assignment} {cell : Option Value}
    {value : Value} (h : assignment.cellAfter type cell = .ok (some value)) :
    (∃ s, value = .set s ∧ s.isEmpty = false) ∨ ∃ m, value = .map m ∧ m.isEmpty = false := by
  rw [Assignment.cellAfter] at h
  obtain ⟨collection, -, h⟩ := bind_ok_iff.mp h
  obtain ⟨after, happly, h⟩ := bind_ok_iff.mp h
  rw [Except.ok.injEq] at h
  have hafter : (∃ s, after = .set s) ∨ ∃ m, after = .map m := by
    cases collection with
    | set s => exact .inl (exists_set_of_applyTo happly)
    | map m => exact .inr (exists_map_of_applyTo happly)
    | _ => cases assignment <;> cases happly
  obtain ⟨s, rfl⟩ | ⟨m, rfl⟩ := hafter
  · rw [Value.collectionCell] at h
    split at h
    · cases h
    · rename_i hfilled
      cases h
      exact .inl ⟨s, rfl, Bool.eq_false_iff.mpr hfilled⟩
  · rw [Value.collectionCell] at h
    split at h
    · cases h
    · rename_i hfilled
      cases h
      exact .inr ⟨m, rfl, Bool.eq_false_iff.mpr hfilled⟩

/-- Every statement leaves nulls only where an update gave them, itself or before. -/
theorem NullsGiven.apply (h : table.NullsGiven statements) {statement : Statement}
    (hstatement : statements statement) (happly : table.apply statement = .ok changed) :
    changed.NullsGiven statements := by
  cases statement with
  | insert insert =>
    -- A null that an insert gives takes its cell away, so that a null was there before.
    obtain ⟨bound, key, -, -, rfl⟩ := insert_eq_ok_iff.mp happly
    intro entry hentry column hnull
    obtain hrow | hentry := Bindings.value_of_mem_insert hentry
    · rw [hrow, find?_writeCells] at hnull
      split at hnull
      · rename_i value hvalue
        cases value <;> cases hnull
      · cases hfound : Bindings.find? key table.rows with
        | none =>
          rw [hfound] at hnull
          cases hnull
        | some row =>
          rw [hfound] at hnull
          obtain ⟨other, hmem⟩ := Bindings.exists_mem_of_find? hfound
          exact h _ hmem column hnull
    · exact h entry hentry column hnull
  | update update =>
    obtain ⟨bound, key, changes, cells, haddressed, hcells, rfl⟩ := update_eq_ok_iff.mp happly
    intro entry hentry column hnull
    split at hentry
    · obtain hrow | hentry := Bindings.value_of_mem_insert hentry
      · rw [hrow] at hnull
        obtain ⟨hbefore, -⟩ | ⟨type, assignment, cell, -, hleft⟩ := left_of_assignCells hcells hnull
        · cases hfound : Bindings.find? key table.rows with
          | none =>
            -- The row is new and has what the update binds, nulls among it.
            rw [hfound] at hbefore
            have hgiven : Given (Eq (.update update)) table.definition column .null :=
              given_of_update rfl (addressed_eq_ok_iff.mp haddressed).1 hbefore
            obtain ⟨_, given, type, rfl, hgives, -, hbind⟩ := hgiven
            rw [ColumnType.eq_null_of_bind hbind] at hgives
            exact ⟨update, hstatement, hgives⟩
          | some row =>
            rw [hfound] at hbefore
            obtain ⟨other, hmem⟩ := Bindings.exists_mem_of_find? hfound
            exact h _ hmem column hbefore
        · obtain ⟨s, hset, -⟩ | ⟨m, hmap, -⟩ := filled_of_cellAfter hleft
          · cases hset
          · cases hmap
      · exact h entry hentry column hnull
    · exact h entry (List.mem_filter.mp hentry).1 column hnull
  | delete delete =>
    obtain ⟨bound, -, -, rfl⟩ := delete_eq_ok_iff.mp happly
    exact fun entry hentry => h entry (List.mem_filter.mp hentry).1

/-- The row that an update is about, the one it would create included, has every value in the form
in which its column keeps it. -/
theorem keptIn_of_addressed (hcoherent : table.Coherent) (horiginates : table.Originates statements)
    {update : Update} {bound : ColumnValues} {key : RowKey}
    {changes : List (Column × ColumnType × Assignment)}
    (haddressed : table.addressed update = .ok (bound, key, changes)) :
    ((Bindings.find? key table.rows).getD ⟨bound, false⟩).cells.KeptIn table.definition := by
  obtain ⟨hbind, hkey, -⟩ := addressed_eq_ok_iff.mp haddressed
  intro column type value htype hvalue
  cases hfound : Bindings.find? key table.rows with
  | none =>
    rw [hfound] at hvalue
    have hgiven : Given (Eq (.update update)) table.definition column value :=
      given_of_update rfl hbind hvalue
    obtain ⟨declared, hdeclared, hself⟩ := hgiven.bind_self
    rw [htype, Option.some.injEq] at hdeclared
    rwa [hdeclared]
  | some row =>
    rw [hfound] at hvalue
    have hstorable := storable_of_keyOf (bindEqualities_fits hbind) hkey
    have hrow := horiginates _ (hcoherent.mem_of_find? hstorable hfound)
    exact hrow.cells.bind_self hvalue htype

/-- An update whose assignments fit their columns fails exactly if one of them is made to a cell
that is not of the type of its column. -/
theorem exists_update_iff (hcoherent : table.Coherent) (horiginates : table.Originates statements)
    {update : Update} {bound : ColumnValues} {key : RowKey}
    {changes : List (Column × ColumnType × Assignment)}
    (haddressed : table.addressed update = .ok (bound, key, changes))
    (hfitting : ∀ change ∈ changes, change.2.2.Fitting change.2.1) :
    (∃ changed, table.update update = .ok changed) ↔
      ∀ change ∈ changes, ∀ value,
        ((Bindings.find? key table.rows).getD ⟨bound, false⟩).cells.find? change.1 = some value →
          change.2.1.holds value = true := by
  have hassigned := (addressed_eq_ok_iff.mp haddressed).2.2
  rw [← exists_assignCells_iff
    (fun change hmem => (resolved_of_assignedColumns hassigned change hmem).1) hfitting
    (keptIn_of_addressed hcoherent horiginates haddressed)]
  constructor
  · rintro ⟨changed, h⟩
    obtain ⟨_, _, _, cells, hother, hcells, -⟩ := update_eq_ok_iff.mp h
    rw [haddressed, Except.ok.injEq] at hother
    cases hother
    exact ⟨cells, hcells⟩
  · rintro ⟨cells, hcells⟩
    exact ⟨_, update_eq_ok_iff.mpr ⟨bound, key, changes, cells, haddressed, hcells, rfl⟩⟩

end StoredTable

namespace CommitLog

/-- The nulls in the cells of a table that some requests lead to were given by updates that were
committed to it. -/
theorem nullsGiven_run (requests : List (String × Request)) {keyspace name : String}
    {table : StoredTable}
    (htable : (World.run {} requests).cluster.table keyspace name = .ok table) :
    table.NullsGiven (CommittedTo (ofRequests requests) keyspace name) := by
  obtain ⟨-, hreplay⟩ := tracks_nil.run requests
  have htables := replay_changesOf hreplay keyspace
  refine Keyspace.AllNamed.replay (motive := fun name table =>
      table.NullsGiven (CommittedTo (ofRequests requests) keyspace name))
    (fun name table hnone entry hentry => ?_)
    (fun name before table _ hrows hbefore entry hentry => ?_)
    (fun statement table changed hmem hbefore happly => hbefore.apply ⟨hmem, rfl⟩ happly)
    (fun name table hfound => by cases hfound) htables name table
    (Cluster.table_eq_ok_iff.mp htable)
  · rw [hnone] at hentry
    cases hentry
  · exact hbefore entry (hrows ▸ hentry)

/-- What the cells of a table hold that some requests lead to, and which assignments can be made to
them. A cell is of the declared type of its column, or a null that an update committed to the table
gave for the column, or in a collection column a text that a statement committed to the table gave
for it. An update whose assignments fit their columns fails exactly if one of them is made to a cell
that is not of the type of its column, in the stored row or in the one that the update would create.
-/
theorem typed_unless_given (requests : List (String × Request)) {keyspace name : String}
    {table : StoredTable}
    (htable : (World.run {} requests).cluster.table keyspace name = .ok table) :
    (∀ entry ∈ table.rows, ∀ column value, entry.2.cells.find? column = some value →
      ∃ type, table.definition.typeOf? column = some type ∧
        (type.holds value = true ∨
          (value = .null ∧ ∃ update,
            CommittedTo (ofRequests requests) keyspace name (.update update) ∧
            (Statement.update update).Gives column .null) ∨
          (type.isCollection = true ∧ ∃ t statement, value = .text t ∧
            CommittedTo (ofRequests requests) keyspace name statement ∧
            statement.Gives column (.text t)))) ∧
    ∀ update bound key changes, table.addressed update = .ok (bound, key, changes) →
      (∀ change ∈ changes, change.2.2.Fitting change.2.1) →
      ((∃ changed, table.update update = .ok changed) ↔
        ∀ change ∈ changes, ∀ value,
          ((Bindings.find? key table.rows).getD ⟨bound, false⟩).cells.find? change.1 = some value →
            change.2.1.holds value = true) := by
  have hreach : (World.run {} requests).cluster.Reachable := ⟨requests, rfl⟩
  have horiginates := originates_run requests htable
  refine ⟨fun entry hentry column value hvalue => ?_, fun update bound key changes =>
    StoredTable.exists_update_iff (hreach.coherent htable) horiginates⟩
  obtain ⟨statement, given, type, hstatement, hgives, htype, hbind⟩ | ⟨-, type, htype, hfilled⟩ :=
    (horiginates entry hentry).cells column value hvalue
  · refine ⟨type, htype, ?_⟩
    obtain hholds | ⟨rfl, -⟩ | ⟨hcollection, t, rfl, rfl⟩ := ColumnType.holds_or_of_bind hbind
    · exact .inl hholds
    · exact .inr (.inl ⟨rfl, nullsGiven_run requests htable entry hentry column hvalue⟩)
    · exact .inr (.inr ⟨hcollection, t, statement, rfl, hstatement, hgives⟩)
  · exact ⟨type, htype, .inl (ColumnType.holds_of_isFilled hfilled)⟩

/-- A session writes a vertex with the given values. -/
def insertVertex (values : List (String × Value)) : List (String × Request) :=
  [("writer", .connect "graph"), ("writer", .changeSchema ElementKind.vertex.layout.createTable),
    ("writer", .add (.insert ⟨"vertices", values⟩)), ("writer", .commit)]

/-- A session writes a vertex with a text for its properties. -/
def writeTextProperties : List (String × Request) :=
  insertVertex [("ID", .text "1"), ("PROPERTIES", .text "age")]

/-- The age of a vertex is added to its properties. -/
def addAge : Update :=
  ⟨"vertices", [.append "PROPERTIES" (.map (.ofList [("age", "29")]))], [.eq "ID" (.text "1")]⟩

/-- A vertex with a known cell for its properties is stored, in a table that declares them as a map.
-/
theorem exists_properties_cell (requests : List (String × Request)) (cell : Option Value)
    (hrun : ((World.run {} requests).cluster.table "graph" "vertices").toOption.map
      (fun table => (table.definition.typeOf? .properties,
        table.rows.any fun entry => entry.2.cells.find? .properties == cell)) =
      some (some .textMap, true)) :
    ∃ table entry, (World.run {} requests).cluster.table "graph" "vertices" = .ok table ∧
      table.definition.typeOf? .properties = some .textMap ∧ entry ∈ table.rows ∧
      entry.2.cells.find? .properties = cell := by
  obtain ⟨table, htable, hfacts⟩ := exists_ok_of_map_toOption hrun
  rw [Prod.mk.injEq] at hfacts
  obtain ⟨entry, hentry, hcell⟩ := List.any_eq_true.mp hfacts.2
  exact ⟨table, entry, htable, hfacts.1, hentry, beq_iff_eq.mp hcell⟩

/-- The text was given for the properties of the vertex, and no age can be added to them. -/
theorem typed_unless_given_writeTextProperties :
    ∃ table entry,
      (World.run {} writeTextProperties).cluster.table "graph" "vertices" = .ok table ∧
      entry ∈ table.rows ∧ entry.2.cells.find? .properties = some (.text "age") ∧
      (∃ t statement, Value.text "age" = .text t ∧
        CommittedTo (ofRequests writeTextProperties) "graph" "vertices" statement ∧
        statement.Gives .properties (.text t)) ∧
      ¬∃ changed, table.update addAge = .ok changed := by
  obtain ⟨table, entry, htable, htype, hentry, hcell⟩ := exists_properties_cell
    writeTextProperties (some (.text "age")) (by decide +kernel)
  have hrun : ((World.run {} writeTextProperties).cluster.table "graph" "vertices").toOption.bind
      (fun table => (table.addressed addAge).toOption.map fun found => (found.2.2,
        ((Bindings.find? found.2.1 table.rows).getD ⟨found.1, false⟩).cells.find? .properties)) =
      some ([(.properties, .textMap, .append "PROPERTIES" (.map (.ofList [("age", "29")])))],
        some (.text "age")) := by decide +kernel
  rw [htable] at hrun
  obtain ⟨⟨bound, key, changes⟩, haddressed, hfacts⟩ := exists_ok_of_map_toOption hrun
  rw [Prod.mk.injEq] at hfacts
  obtain ⟨rfl, hbefore⟩ := hfacts
  obtain ⟨hcells, hupdates⟩ := typed_unless_given writeTextProperties htable
  refine ⟨table, entry, htable, hentry, hcell, ?_, ?_⟩
  · obtain ⟨type, htype', hholds | ⟨hnull, -⟩ | ⟨-, hgiven⟩⟩ :=
      hcells entry hentry .properties _ hcell
    · rw [htype, Option.some.injEq] at htype'
      subst htype'
      cases hholds
    · cases hnull
    · exact hgiven
  · rw [hupdates addAge bound key _ haddressed]
    · intro hholds
      cases hholds _ List.mem_cons_self _ hbefore
    · rw [List.forall_mem_singleton]
      exact ⟨_, rfl⟩

/-- Not every stored value is of the declared type of its column. -/
theorem text_stored_as_collection :
    ¬ ∀ (requests : List (String × Request)) (keyspace name : String) (table : StoredTable),
      (World.run {} requests).cluster.table keyspace name = .ok table →
      ∀ entry ∈ table.rows, ∀ column type value, table.definition.typeOf? column = some type →
        entry.2.cells.find? column = some value → value.isNull = false →
        type.holds value = true := by
  intro hall
  obtain ⟨table, entry, htable, htype, hentry, hcell⟩ := exists_properties_cell
    writeTextProperties (some (.text "age")) (by decide +kernel)
  cases hall writeTextProperties "graph" "vertices" table htable entry hentry .properties .textMap _
    htype hcell rfl

end CommitLog

end WideGraph
