import WideGraph.Proofs.Store.CellTypes

/-!
# Empty collections in stored cells

An assignment never leaves an empty collection: the cell is missing when the last element or key is
gone. A statement that gives an empty set, map or list for a collection column does leave one, so
that two rows may have the same elements and keys and yet differ in their cells. Only cells that
were given without any item can differ so.
-/

namespace WideGraph

namespace Value

/-- Whether a value is a set, map or list with nothing in it. -/
def isEmptyCollection : Value → Bool
  | .set s => s.isEmpty
  | .map m => m.isEmpty
  | .list items => items.isEmpty
  | _ => false

/-- What a collection has for a text: the text itself as an element of a set, or the value under it
as a key of a map. -/
def item? : Value → String → Option String
  | .set s, t => if s.contains t then some t else none
  | .map m, key => m.find? key
  | _, _ => none

end Value

/-- What the collection in a column has for a text, nothing where there is no cell. -/
def StoredRow.item? (row : StoredRow) (column : Column) (t : String) : Option String :=
  (row.cells.find? column).bind (·.item? t)

/-- A row has a cell that is no collection with items, because one of the statements gave it for the
column. -/
def StoredRow.GivenWithoutItems (statements : Statement → Prop) (d : TableDefinition)
    (row : StoredRow) (column : Column) : Prop :=
  ∃ value type, row.cells.find? column = some value ∧ d.typeOf? column = some type ∧
    ¬type.IsFilled value ∧ Given statements d column value

namespace TextSet

/-- A set with an element is not empty, and one that is not empty has an element. -/
theorem isEmpty_eq_false_iff {s : TextSet} : s.isEmpty = false ↔ ∃ t, s.contains t = true := by
  simp only [contains_iff, isEmpty, toList, List.mem_map]
  cases s.bindings with
  | nil => simp
  | cons head rest => simp

end TextSet

namespace TextMap

/-- A map with a key is not empty, and one that is not empty has a key. -/
theorem isEmpty_eq_false_iff {m : TextMap} :
    m.isEmpty = false ↔ ∃ key value, m.find? key = some value := by
  simp only [find?, Bindings.find?_eq_some_iff m.increasing, isEmpty]
  cases m.bindings with
  | nil => simp
  | cons head rest =>
    exact iff_of_true rfl ⟨head.1, head.2, List.mem_cons_self⟩

end TextMap

namespace ColumnType

variable {type : ColumnType}

/-- An empty collection is bound to an empty collection only. -/
theorem isEmptyCollection_of_bind {given value : Value} (h : type.bind given = .ok value)
    (hempty : value.isEmptyCollection = true) : given.isEmptyCollection = true := by
  cases type with
  | textSet =>
    cases given with
    | list items =>
      cases h
      cases items with
      | nil => rfl
      | cons item rest =>
        have hsome : (TextSet.ofList ((item :: rest).map Value.plain)).isEmpty = false :=
          TextSet.isEmpty_eq_false_iff.mpr ⟨item.plain, by simp⟩
        rw [Value.isEmptyCollection, hsome] at hempty
        cases hempty
    | set s =>
      cases h
      exact hempty
    | _ => cases h <;> cases hempty
  | textMap =>
    cases given with
    | map m =>
      cases h
      exact hempty
    | _ => cases h <;> cases hempty
  | _ => cases given <;> cases h <;> cases hempty

/-- A collection with items is not empty. -/
theorem isEmptyCollection_of_isFilled {value : Value} (h : type.IsFilled value) :
    value.isEmptyCollection = false := by
  cases type <;> cases value <;> first | exact h | exact h.elim

/-- A collection that is not empty has an item. -/
theorem exists_item?_of_isFilled {value : Value} (h : type.IsFilled value) :
    ∃ t, value.item? t ≠ none := by
  cases type with
  | textSet =>
    cases value with
    | set s =>
      obtain ⟨t, ht⟩ := TextSet.isEmpty_eq_false_iff.mp h
      exact ⟨t, by simp [Value.item?, ht]⟩
    | _ => exact h.elim
  | textMap =>
    cases value with
    | map m =>
      obtain ⟨key, found, hfound⟩ := TextMap.isEmpty_eq_false_iff.mp h
      exact ⟨key, by simp [Value.item?, hfound]⟩
    | _ => exact h.elim
  | _ => exact h.elim

/-- Collections of one type with the same items are equal. -/
theorem eq_of_item? {a b : Value} (ha : type.IsFilled a) (hb : type.IsFilled b)
    (h : ∀ t, a.item? t = b.item? t) : a = b := by
  cases type with
  | textSet =>
    cases a with
    | set s =>
      cases b with
      | set s' =>
        refine congrArg Value.set (TextSet.eq_of_contains fun t => ?_)
        have hitem := h t
        simp only [Value.item?] at hitem
        cases hs : s.contains t <;> cases hs' : s'.contains t <;> simp_all
      | _ => exact hb.elim
    | _ => exact ha.elim
  | textMap =>
    cases a with
    | map m =>
      cases b with
      | map m' => exact congrArg Value.map (TextMap.eq_of_find? h)
      | _ => exact hb.elim
    | _ => exact ha.elim
  | _ => exact ha.elim

end ColumnType

namespace StoredTable

variable {table changed : StoredTable} {statements : Statement → Prop}

/-- An update leaves no empty collection in a column that it assigns to. -/
theorem Coherent.isEmptyCollection_of_update (h : table.Coherent) {update : Update}
    {bound : ColumnValues} {key : RowKey} {changes : List (Column × ColumnType × Assignment)}
    (haddressed : table.addressed update = .ok (bound, key, changes))
    (hupdate : table.update update = .ok changed) {row : StoredRow}
    (hrow : (key, row) ∈ changed.rows) :
    ∀ change ∈ changes, ∀ value, row.cells.find? change.1 = some value →
      value.isEmptyCollection = false := by
  obtain ⟨_, _, _, cells, hother, hcells, rfl⟩ := update_eq_ok_iff.mp hupdate
  rw [haddressed, Except.ok.injEq] at hother
  cases hother
  obtain ⟨hbind, hkey, -⟩ := addressed_eq_ok_iff.mp haddressed
  have hstorable := storable_of_keyOf (bindEqualities_fits hbind) hkey
  split at hrow
  · obtain heq | ⟨-, hne⟩ := (Bindings.mem_insert_iff RowKey.compare_lawfulOn h.increasing
      h.keysSatisfy hstorable _ _).mp hrow
    · cases heq
      intro change hmem value hvalue
      obtain ⟨-, hnot⟩ | ⟨type, assignment, cell, -, hleft⟩ := left_of_assignCells hcells hvalue
      · exact absurd rfl (hnot change hmem)
      · obtain ⟨s, rfl, hfilled⟩ | ⟨m, rfl, hfilled⟩ := filled_of_cellAfter hleft
        · exact hfilled
        · exact hfilled
    · exact absurd rfl hne
  · exact absurd rfl ((Bindings.mem_erase_iff RowKey.compare_lawfulOn h.keysSatisfy hstorable _).mp
      hrow).2

/-- An empty collection in a cell was given as one. -/
theorem Originates.emptyCollection_given (h : table.Originates statements)
    {entry : RowKey × StoredRow} (hentry : entry ∈ table.rows) {column : Column} {value : Value}
    (hvalue : entry.2.cells.find? column = some value) (hempty : value.isEmptyCollection = true) :
    ∃ statement given, statements statement ∧ statement.Gives column given ∧
      given.isEmptyCollection = true := by
  obtain ⟨statement, given, type, hstatement, hgives, -, hbind⟩ | ⟨-, type, -, hfilled⟩ :=
    (h entry hentry).cells column value hvalue
  · exact ⟨statement, given, hstatement, hgives, ColumnType.isEmptyCollection_of_bind hbind hempty⟩
  · rw [ColumnType.isEmptyCollection_of_isFilled hfilled] at hempty
    cases hempty

/-- The cell of a collection column is missing, a collection with items, or given without any. -/
theorem Originates.filled_or_given (h : table.Originates statements)
    {entry : RowKey × StoredRow} (hentry : entry ∈ table.rows) {column : Column} {type : ColumnType}
    (htype : table.definition.typeOf? column = some type) :
    (∀ value, entry.2.cells.find? column = some value → type.IsFilled value) ∨
      entry.2.GivenWithoutItems statements table.definition column := by
  by_cases hfilled : ∀ value, entry.2.cells.find? column = some value → type.IsFilled value
  · exact .inl hfilled
  · push Not at hfilled
    obtain ⟨value, hvalue, hnot⟩ := hfilled
    obtain hgiven | ⟨-, declared, hdeclared, hassigned⟩ :=
      (h entry hentry).cells column value hvalue
    · exact .inr ⟨value, type, hvalue, htype, hnot, hgiven⟩
    · rw [htype, Option.some.injEq] at hdeclared
      exact absurd (hdeclared ▸ hassigned) hnot

end StoredTable

/-- Cells that are missing or have items are equal if they have the same items. -/
theorem StoredRow.find?_eq_of_item? {row other : StoredRow} {column : Column} {type : ColumnType}
    (hrow : ∀ value, row.cells.find? column = some value → type.IsFilled value)
    (hother : ∀ value, other.cells.find? column = some value → type.IsFilled value)
    (hitems : ∀ t, row.item? column t = other.item? column t) :
    row.cells.find? column = other.cells.find? column := by
  simp only [item?] at hitems
  cases hcell : row.cells.find? column with
  | none =>
    cases hcell' : other.cells.find? column with
    | none => rfl
    | some value' =>
      obtain ⟨t, ht⟩ := ColumnType.exists_item?_of_isFilled (hother value' hcell')
      rw [hcell, hcell'] at hitems
      exact absurd (hitems t).symm ht
  | some value =>
    cases hcell' : other.cells.find? column with
    | none =>
      obtain ⟨t, ht⟩ := ColumnType.exists_item?_of_isFilled (hrow value hcell)
      rw [hcell, hcell'] at hitems
      exact absurd (hitems t) ht
    | some value' =>
      rw [hcell, hcell'] at hitems
      exact congrArg some (ColumnType.eq_of_item? (hrow value hcell) (hother value' hcell') hitems)

namespace CommitLog

/-- Where empty collections are stored, and how far the items of a row determine its cells. For
tables that some requests and some others lead to: an empty collection in a cell was given as one by
a statement that was committed to the table. An update leaves none in a column that it assigns to.
Rows of the two tables with the same items in a column have the same cell there, unless one of them
was given a value without items for it by a statement committed to its table. -/
theorem empty_only_given (requests others : List (String × Request))
    {keyspace name keyspace' name' : String} {table other : StoredTable}
    (htable : (World.run {} requests).cluster.table keyspace name = .ok table)
    (hother : (World.run {} others).cluster.table keyspace' name' = .ok other) :
    (∀ entry ∈ table.rows, ∀ column value, entry.2.cells.find? column = some value →
      value.isEmptyCollection = true →
      ∃ statement given, CommittedTo (ofRequests requests) keyspace name statement ∧
        statement.Gives column given ∧ given.isEmptyCollection = true) ∧
    (∀ update bound key changes changed, table.addressed update = .ok (bound, key, changes) →
      table.update update = .ok changed → ∀ row, (key, row) ∈ changed.rows →
      ∀ change ∈ changes, ∀ value, row.cells.find? change.1 = some value →
        value.isEmptyCollection = false) ∧
    ∀ entry ∈ table.rows, ∀ twin ∈ other.rows, ∀ column type,
      table.definition.typeOf? column = some type → other.definition.typeOf? column = some type →
      (∀ t, entry.2.item? column t = twin.2.item? column t) →
      entry.2.cells.find? column = twin.2.cells.find? column ∨
        entry.2.GivenWithoutItems (CommittedTo (ofRequests requests) keyspace name)
          table.definition column ∨
        twin.2.GivenWithoutItems (CommittedTo (ofRequests others) keyspace' name')
          other.definition column := by
  have hreach : (World.run {} requests).cluster.Reachable := ⟨requests, rfl⟩
  have horiginates := originates_run requests htable
  refine ⟨fun entry hentry column value => horiginates.emptyCollection_given hentry,
    fun update bound key changes changed haddressed hupdate row =>
      (hreach.coherent htable).isEmptyCollection_of_update haddressed hupdate,
    fun entry hentry twin htwin column type htype htype' hitems => ?_⟩
  obtain hfilled | hgiven := horiginates.filled_or_given hentry htype
  · obtain hfilled' | hgiven := (originates_run others hother).filled_or_given htwin htype'
    · exact .inl (StoredRow.find?_eq_of_item? hfilled hfilled' hitems)
    · exact .inr (.inr hgiven)
  · exact .inr (.inl hgiven)

/-- A session writes a vertex with an empty map for its properties. -/
def writeEmptyProperties : List (String × Request) :=
  insertVertex [("ID", .text "1"), ("PROPERTIES", .map .empty)]

/-- A session writes a vertex without properties. -/
def writeNoProperties : List (String × Request) :=
  insertVertex [("ID", .text "1")]

/-- Two vertices have no properties, and only one of them has a cell for these, which was given as
an empty collection. -/
theorem empty_only_given_writeEmptyProperties :
    ∃ table other entry twin,
      (World.run {} writeEmptyProperties).cluster.table "graph" "vertices" = .ok table ∧
      (World.run {} writeNoProperties).cluster.table "graph" "vertices" = .ok other ∧
      entry ∈ table.rows ∧ twin ∈ other.rows ∧
      (∀ t, entry.2.item? .properties t = twin.2.item? .properties t) ∧
      entry.2.cells.find? .properties = some (.map .empty) ∧
      twin.2.cells.find? .properties = none ∧
      (∃ statement given,
        CommittedTo (ofRequests writeEmptyProperties) "graph" "vertices" statement ∧
        statement.Gives .properties given ∧ given.isEmptyCollection = true) ∧
      entry.2.GivenWithoutItems (CommittedTo (ofRequests writeEmptyProperties) "graph" "vertices")
        table.definition .properties := by
  obtain ⟨table, entry, htable, htype, hentry, hcell⟩ := exists_properties_cell
    writeEmptyProperties (some (.map .empty)) (by decide +kernel)
  obtain ⟨other, twin, hother, htype', htwin, hnone⟩ := exists_properties_cell
    writeNoProperties none (by decide +kernel)
  have hitems : ∀ t, entry.2.item? .properties t = twin.2.item? .properties t := by
    intro t
    rw [StoredRow.item?, StoredRow.item?, hcell, hnone]
    rfl
  obtain ⟨hgiven, -, hsame⟩ :=
    empty_only_given writeEmptyProperties writeNoProperties htable hother
  refine ⟨table, other, entry, twin, htable, hother, hentry, htwin, hitems, hcell, hnone,
    hgiven entry hentry .properties _ hcell rfl, ?_⟩
  obtain heq | hgiven | ⟨value, type, hvalue, -⟩ :=
    hsame entry hentry twin htwin .properties .textMap htype htype' hitems
  · rw [hcell, hnone] at heq
    cases heq
  · exact hgiven
  · rw [hnone] at hvalue
    cases hvalue

/-- Some stored cells are empty collections. -/
theorem emptyMap_stored :
    ¬ ∀ (requests : List (String × Request)) (keyspace name : String) (table : StoredTable),
      (World.run {} requests).cluster.table keyspace name = .ok table →
      ∀ entry ∈ table.rows, ∀ column value, entry.2.cells.find? column = some value →
        value.isEmptyCollection = false := by
  intro hall
  obtain ⟨table, entry, htable, -, hentry, hcell⟩ := exists_properties_cell
    writeEmptyProperties (some (.map .empty)) (by decide +kernel)
  cases hall writeEmptyProperties "graph" "vertices" table htable entry hentry .properties _ hcell

end CommitLog

end WideGraph
