import WideGraph.Proofs.FirstFault
import WideGraph.Proofs.Store.CellTypes
import WideGraph.Proofs.Store.Deletion
import WideGraph.Proofs.Store.Representation

/-!
# The row that an update changes

An update changes the one row with the key that its equalities make, and in a row that was there
nothing but the columns it assigns to. An equality for a column outside the primary key is not
refused: it is of no consequence for a row that was there, but a new row starts from the values of
all equalities, such that it keeps that value, too, and comes to exist by it alone. The only clauses
that are refused are those that are no equalities.
-/

namespace WideGraph

/-- The update assigns to a column. -/
def Update.Assigns (update : Update) (column : Column) : Prop :=
  ∃ assignment ∈ update.assignments, Column.ofName? assignment.column = some column

/-- Whether a clause is something else than an equality for a column outside the primary key. -/
def Clause.isKeyed (d : TableDefinition) : Clause → Bool
  | .compare .eq name _ => (Column.ofName? name).any d.isPrimaryKey
  | _ => true

/-- Equalities are for one list of names and values. -/
theorem Clause.equalities_injective : Function.Injective Clause.equalities := by
  refine List.map_injective_iff.mpr ?_
  rintro ⟨name, value⟩ ⟨other, otherValue⟩ heq
  cases heq
  rfl

/-- The update without its equalities for columns outside the primary key. -/
def Update.byKey (d : TableDefinition) (update : Update) : Update :=
  { update with clauses := update.clauses.filter (Clause.isKeyed d) }

namespace StoredTable

/-- Nothing but the row under a key has changed from one state of a table to another. If there is a
reason for the row to be there it is now as given, and otherwise it is gone. -/
structure Rewrites (table changed : StoredTable) (key : RowKey) (after : StoredRow) : Prop where
  frame : changed = { table with rows := changed.rows }
  others : ∀ entry, entry.1 ≠ key → (entry ∈ changed.rows ↔ entry ∈ table.rows)
  row : ∀ row, (key, row) ∈ changed.rows ↔ row = after ∧ after.Lasting table.definition

/-- The row that an update starts from: the one under its key, or a new one with the bound values. -/
def startOf (table : StoredTable) (key : RowKey) (bound : ColumnValues) : StoredRow :=
  (Bindings.find? key table.rows).getD ⟨bound, false⟩

section

variable {table changed : StoredTable} (hcoherent : table.Coherent)

include hcoherent

/-- A row that is there is what an update of it starts from. -/
theorem Coherent.startOf_of_mem {key : RowKey} {row : StoredRow} (hrow : (key, row) ∈ table.rows)
    (bound : ColumnValues) : table.startOf key bound = row := by
  have hkey := (hcoherent.rows _ hrow).storable_key
  rw [startOf, (Bindings.find?_eq_some_iff_mem RowKey.compare_lawfulOn hcoherent.increasing
    hcoherent.keysSatisfy hkey row).mpr hrow, Option.getD_some]

/-- Where no row is under the key, an update starts from the bound values. -/
theorem Coherent.startOf_of_not_mem {key : RowKey} (hkey : key.Storable)
    (hnew : ∀ row, (key, row) ∉ table.rows) (bound : ColumnValues) :
    table.startOf key bound = ⟨bound, false⟩ := by
  rw [startOf]
  cases hfound : Bindings.find? key table.rows with
  | none => rfl
  | some row => exact absurd (hcoherent.mem_of_find? hkey hfound) (hnew row)

/-- The row under a storable key is rewritten when it is put in or taken out as an update does it. -/
theorem Coherent.rewrites {key : RowKey} (hkey : key.Storable) (after : StoredRow) :
    table.Rewrites { table with
      rows := if after.inserted || table.hasDataCell after.cells then
        Bindings.insert key after table.rows else Bindings.erase key table.rows } key after := by
  have hlasting : (after.inserted || table.hasDataCell after.cells) = true ↔
      after.Lasting table.definition := by
    rw [Bool.or_eq_true, hasDataCell_iff]
    rfl
  have hinsert := Bindings.mem_insert_iff RowKey.compare_lawfulOn hcoherent.increasing
    hcoherent.keysSatisfy hkey after
  have herase := Bindings.mem_erase_iff RowKey.compare_lawfulOn hcoherent.keysSatisfy hkey
  by_cases hkept : after.Lasting table.definition
  · rw [if_pos (hlasting.mpr hkept)]
    refine ⟨rfl, fun entry hne => ?_, fun row => ?_⟩
    · rw [hinsert]
      simp [hne, Prod.ext_iff]
    · rw [hinsert]
      simp [hkept]
  · rw [if_neg (mt hlasting.mp hkept)]
    refine ⟨rfl, fun entry hne => ?_, fun row => ?_⟩
    · rw [herase]
      simp [hne]
    · rw [herase]
      simp [hkept]

/-- A successful update rewrites the row that it addresses. -/
theorem Coherent.rewrites_of_update {update : Update} (h : table.update update = .ok changed) :
    ∃ bound key changes cells, table.addressed update = .ok (bound, key, changes) ∧
      assignCells (table.startOf key bound).cells changes = .ok cells ∧
      table.Rewrites changed key ⟨cells, (table.startOf key bound).inserted⟩ := by
  obtain ⟨bound, key, changes, cells, haddressed, hcells, rfl⟩ := update_eq_ok_iff.mp h
  obtain ⟨hbound, hkey, -⟩ := addressed_eq_ok haddressed
  exact ⟨bound, key, changes, cells, haddressed, hcells,
    hcoherent.rewrites (storable_of_keyOf hbound hkey) ⟨cells, _⟩⟩

end

section Refusal

variable {table : StoredTable} {e : StoreError}

/-- A value of the wrong kind for its column is refused as such. -/
theorem invalidValue_of_bind {type : ColumnType} {value : Value}
    (h : type.bind value = .error e) : e = .invalidValue value.kindName type := by
  cases type <;> cases value <;> cases h <;> rfl

/-- A name that stands for no declared column is refused as such. -/
theorem undefinedColumn_of_resolve {d : TableDefinition} {name : String}
    (h : d.resolve name = .error e) : e = .undefinedColumn name d.name := by
  rw [TableDefinition.resolve] at h
  split at h <;> cases h
  rfl

/-- A value that cannot be bound is for no declared column or of the wrong kind. -/
theorem error_of_bind {d : TableDefinition} {name : String} {value : Value}
    (h : d.bind name value = .error e) :
    e = .undefinedColumn name d.name ∨ ∃ type, e = .invalidValue value.kindName type := by
  obtain hresolve | ⟨⟨column, type⟩, -, hrest⟩ := bind_error_iff.mp h
  · exact .inl (undefinedColumn_of_resolve hresolve)
  · obtain hvalue | ⟨bound, -, hbound⟩ := bind_error_iff.mp hrest
    · exact .inr ⟨type, invalidValue_of_bind hvalue⟩
    · cases hbound

/-- Columns that cannot be assigned are undeclared or in the primary key. -/
theorem error_of_assignedColumns {assignments : List Assignment}
    (h : table.assignedColumns assignments = .error e) :
    (∃ name, e = .undefinedColumn name table.definition.name) ∨
      ∃ column, e = .keyPartAssigned column := by
  rw [assignedColumns_eq_mapExcept, mapExcept_eq_error_iff] at h
  obtain ⟨assignment, -, hassigned⟩ := h.exists_mem
  rw [assignedColumn] at hassigned
  split at hassigned
  · rename_i hresolve
    cases hassigned
    exact .inl ⟨_, undefinedColumn_of_resolve hresolve⟩
  · split at hassigned <;> cases hassigned
    exact .inr ⟨_, rfl⟩

/-- An assignment that cannot be made is to no collection, or not made for its kind, or has a value
of the wrong kind. -/
theorem error_of_cellAfter {assignment : Assignment} {type : ColumnType} {cell : Option Value}
    (h : assignment.cellAfter type cell = .error e) :
    e = .notACollection type ∨ e = .invalidAssignment assignment.column type ∨
      ∃ kind, e = .invalidValue kind type := by
  obtain hcollection | ⟨collection, -, hrest⟩ := bind_error_iff.mp h
  · rw [ColumnType.collectionOf.eq_def] at hcollection
    split at hcollection <;> cases hcollection
    exact .inl rfl
  · obtain happly | ⟨_, -, hcell⟩ := bind_error_iff.mp hrest
    · right
      rw [Assignment.applyTo.eq_def] at happly
      split at happly
      case h_1 | h_3 =>
        obtain hvalue | ⟨bound, -, hbound⟩ := bind_error_iff.mp happly
        · exact .inr ⟨_, invalidValue_of_bind hvalue⟩
        · split at hbound <;> cases hbound
      all_goals cases happly
      exact .inl rfl
    · cases hcell

/-- If assignments cannot be made then one of them cannot be made to what is in its cell. -/
theorem exists_cellAfter_of_assignCells {changes : List (Column × ColumnType × Assignment)}
    {cells : ColumnValues} (h : assignCells cells changes = .error e) :
    ∃ change ∈ changes, ∃ cell, change.2.2.cellAfter change.2.1 cell = .error e := by
  induction changes generalizing cells with
  | nil => cases h
  | cons change rest ih =>
    obtain ⟨column, type, assignment⟩ := change
    rw [assignCells_cons] at h
    obtain hfirst | ⟨kept, -, hrest⟩ := bind_error_iff.mp h
    · exact ⟨_, List.mem_cons_self, _, hfirst⟩
    · obtain ⟨change, hmem, hcell⟩ := ih hrest
      exact ⟨change, List.mem_cons_of_mem _ hmem, hcell⟩

/-- A clause that is no equality is refused with the given error. -/
theorem bindEqualities_of_not_equality {otherwise : StoreError} {start : ColumnValues}
    {clause : Clause} (hclause : ∀ name value, clause ≠ Clause.eq name value) (rest : List Clause) :
    table.bindEqualities otherwise start (clause :: rest) = .error otherwise := by
  rw [bindEqualities.eq_def]
  split
  · rename_i heq
    cases heq
  · rename_i name value _ heq
    exact absurd (List.cons.inj heq).1 (hclause name value)
  · rfl

/-- Some clause is no equality, and the values of the equalities before it can be bound. -/
def HasOther (d : TableDefinition) (clauses : List Clause) : Prop :=
  ∃ (given : List (String × Value)) (clause : Clause) (rest : List Clause),
    clauses = Clause.equalities given ++ clause :: rest ∧
    (∀ pair ∈ given, ∃ equality, d.bind pair.1 pair.2 = .ok equality) ∧
    ∀ name value, clause ≠ Clause.eq name value

/-- After an equality another clause only counts if the value of the equality can be bound. -/
theorem hasOther_cons_iff {d : TableDefinition} {name : String} {value : Value}
    {rest : List Clause} :
    HasOther d (Clause.eq name value :: rest) ↔
      (∃ equality, d.bind name value = .ok equality) ∧ HasOther d rest := by
  constructor
  · rintro ⟨given, clause, behind, hclauses, hbound, hclause⟩
    cases given with
    | nil => exact absurd (List.cons.inj hclauses).1.symm (hclause name value)
    | cons pair given =>
      obtain ⟨hfirst, hrest⟩ := List.forall_mem_cons.mp hbound
      obtain ⟨heq, hothers⟩ := List.cons.inj hclauses
      cases heq
      exact ⟨hfirst, given, clause, behind, hothers, hrest, hclause⟩
  · rintro ⟨hfirst, given, clause, behind, rfl, hbound, hclause⟩
    exact ⟨(name, value) :: given, clause, behind, rfl,
      List.forall_mem_cons.mpr ⟨hfirst, hbound⟩, hclause⟩

/-- The clauses of an update are refused as no equalities exactly if one of them is none, and the
values of those before it can be bound. -/
theorem bindEqualities_refused_iff {start : ColumnValues} {clauses : List Clause} :
    table.bindEqualities .updateNotByEquality start clauses = .error .updateNotByEquality ↔
      HasOther table.definition clauses := by
  induction clauses generalizing start with
  | nil => simp [bindEqualities, HasOther]
  | cons first others ih =>
    by_cases hfirst : ∃ name value, first = Clause.eq name value
    · obtain ⟨name, value, rfl⟩ := hfirst
      rw [hasOther_cons_iff, Clause.eq, bindEqualities]
      cases hbind : table.definition.bind name value with
      | error e =>
        obtain rfl | ⟨type, rfl⟩ := error_of_bind hbind <;> simp
      | ok equality => simpa using ih
    · have hclause : ∀ name value, first ≠ Clause.eq name value := fun name value heq =>
        hfirst ⟨name, value, heq⟩
      simp only [bindEqualities_of_not_equality hclause, true_iff]
      exact ⟨[], first, others, rfl, List.forall_mem_nil _, hclause⟩

/-- An update is refused as not made by equalities exactly if a clause is none, and the values of
the equalities before it can be bound. -/
theorem update_refused_iff {update : Update} :
    table.update update = .error .updateNotByEquality ↔
      HasOther table.definition update.clauses := by
  have hclauses : table.bindEqualities .updateNotByEquality .empty update.clauses =
      .error .updateNotByEquality ↔ HasOther table.definition update.clauses :=
    bindEqualities_refused_iff
  rw [← hclauses]
  constructor
  · intro h
    obtain hclauses | ⟨bound, -, h⟩ := bind_error_iff.mp h
    · exact hclauses
    obtain hkey | ⟨key, -, h⟩ := bind_error_iff.mp h
    · obtain ⟨column, hcolumn⟩ := missingKeyPart_of_keyOf hkey
      cases hcolumn
    obtain hassigned | ⟨changes, -, h⟩ := bind_error_iff.mp h
    · obtain ⟨name, hname⟩ | ⟨column, hcolumn⟩ := error_of_assignedColumns hassigned
      · cases hname
      · cases hcolumn
    obtain hcells | ⟨cells, -, h⟩ := bind_error_iff.mp h
    · obtain ⟨change, -, cell, hcell⟩ := exists_cellAfter_of_assignCells hcells
      obtain he | he | ⟨kind, he⟩ := error_of_cellAfter hcell <;> cases he
    · split at h <;> cases h
  · intro h
    rw [StoredTable.update, h]
    rfl

end Refusal

section ByKey

variable {table : StoredTable}

/-- The values of equalities are bound one by one. -/
theorem exists_equalities {otherwise : StoreError} {clauses : List Clause} {bound : ColumnValues}
    (h : table.bindEqualities otherwise .empty clauses = .ok bound) :
    ∃ given equalities, clauses = Clause.equalities given ∧
      table.definition.BindsTo given equalities ∧ bound = .ofList equalities := by
  obtain ⟨given, hclauses, hbind⟩ := exists_bindAll_of_bindEqualities h
  obtain ⟨equalities, hbound, rfl⟩ := bindAll_eq_ok_iff.mp hbind
  exact ⟨given, equalities, hclauses, hbound, rfl⟩

/-- Without equalities for other columns than those of the key an update addresses the same row. -/
theorem addressed_byKey {update : Update} {bound : ColumnValues} {key : RowKey}
    {changes : List (Column × ColumnType × Assignment)}
    (h : table.addressed update = .ok (bound, key, changes)) :
    ∃ keyed, table.addressed (update.byKey table.definition) = .ok (keyed, key, changes) := by
  obtain ⟨hbind, hkey, hchanges⟩ := addressed_eq_ok_iff.mp h
  obtain ⟨given, equalities, hclauses, hbound, rfl⟩ := exists_equalities hbind
  have hkeyed : table.definition.BindsTo
      (given.filter fun pair => (Column.ofName? pair.1).any table.definition.isPrimaryKey)
      (equalities.filter fun equality => table.definition.isPrimaryKey equality.1) := by
    refine List.rel_filter (fun pair equality hequality => ?_) hbound
    obtain ⟨type, hresolve, -⟩ := TableDefinition.bind_eq_ok_iff.mp hequality
    dsimp only
    rw [(TableDefinition.resolve_eq_ok_iff.mp hresolve).1, Option.any_some]
  have hclausesByKey : (update.byKey table.definition).clauses = Clause.equalities
      (given.filter fun pair => (Column.ofName? pair.1).any table.definition.isPrimaryKey) := by
    rw [Update.byKey, hclauses, Clause.equalities, List.filter_map]
    rfl
  refine ⟨.ofList (equalities.filter fun equality => table.definition.isPrimaryKey equality.1),
    addressed_eq_ok_iff.mpr ⟨?_, ?_, hchanges⟩⟩
  · rw [hclausesByKey, bindEqualities_map_eq]
    exact bindAll_eq_ok_iff.mpr ⟨_, hkeyed, rfl⟩
  · rw [← hkey]
    refine keyOf_congr fun column hprimary => ?_
    rw [ColumnValues.find?_ofList_filter, if_pos hprimary]

/-- An equality for a column outside the primary key is of no consequence for a row that is there. -/
theorem Coherent.update_byKey {changed : StoredTable} (hcoherent : table.Coherent) {update : Update}
    {bound : ColumnValues} {key : RowKey} {changes : List (Column × ColumnType × Assignment)}
    (haddressed : table.addressed update = .ok (bound, key, changes)) {row : StoredRow}
    (hrow : (key, row) ∈ table.rows) (h : table.update update = .ok changed) :
    table.update (update.byKey table.definition) = .ok changed := by
  obtain ⟨keyed, hkeyed⟩ := addressed_byKey haddressed
  obtain ⟨_, _, _, cells, hsame, hcells, rfl⟩ := update_eq_ok_iff.mp h
  rw [haddressed, Except.ok.injEq] at hsame
  cases hsame
  have hstart : ∀ bound, (Bindings.find? key table.rows).getD ⟨bound, false⟩ = row :=
    hcoherent.startOf_of_mem hrow
  rw [hstart] at hcells ⊢
  exact update_eq_ok_iff.mpr ⟨keyed, key, changes, cells, hkeyed, by rw [hstart]; exact hcells,
    by rw [hstart]⟩

end ByKey

section Assigned

variable {table : StoredTable} {update : Update}
  {changes : List (Column × ColumnType × Assignment)}
  (hchanges : table.assignedColumns update.assignments = .ok changes)

/-- Each assignment is made to the column of its name. -/
theorem columns_of_assignedColumns {assignments : List Assignment}
    (h : table.assignedColumns assignments = .ok changes) :
    List.Forall₂ (fun assignment change => Column.ofName? assignment.column = some change.1)
      assignments changes := by
  refine (assignedColumns_eq_ok_iff.mp h).imp fun assignment change hassigned => ?_
  exact (TableDefinition.resolve_eq_ok_iff.mp (assignedColumn_eq_ok_iff.mp hassigned).1).1

include hchanges

/-- A column that is not assigned is that of no change. -/
theorem ne_of_not_assigns {column : Column} (h : ¬update.Assigns column) :
    ∀ change ∈ changes, change.1 ≠ column := by
  rintro change hchange rfl
  obtain ⟨assignment, hmem, hname⟩ :=
    exists_mem_of_forall₂ (columns_of_assignedColumns hchanges) hchange
  exact h ⟨assignment, hmem, hname⟩

/-- No column of the primary key is assigned. -/
theorem isPrimaryKey_of_assigns {column : Column} (h : update.Assigns column) :
    table.definition.isPrimaryKey column = false := by
  obtain ⟨assignment, hmem, hname⟩ := h
  obtain ⟨change, hchange, hother⟩ :=
    exists_mem_of_forall₂ (columns_of_assignedColumns hchanges).flip hmem
  have heq : column = change.1 := Option.some.inj (hname.symm.trans hother)
  exact heq ▸ (resolved_of_assignedColumns hchanges change hchange).2

end Assigned

/-- Updates of a table that can be reached. One is refused as not made by equalities exactly if a
clause is none and the values of the equalities before it can be bound. A successful update changes
at most the row with the key that its equalities make. Of a row that was there it keeps the mark and
every cell that it does not assign, and equalities for other columns than those of the key are of no
consequence. A new row is not marked, and has the values of all equalities in the cells that the
update does not assign. It has cells in key columns and assigned columns alone exactly if all
equalities are for such columns; by an equality for another one it comes to exist, whatever is
assigned. -/
theorem update_keeps_unassigned_unless_new {cluster : Cluster} (hreach : cluster.Reachable)
    {keyspace name : String} {table : StoredTable} (htable : cluster.table keyspace name = .ok table)
    (update : Update) :
    (table.update update = .error .updateNotByEquality ↔
      HasOther table.definition update.clauses) ∧
    ∀ changed, table.update update = .ok changed →
      ∃ given equalities key after, update.clauses = Clause.equalities given ∧
        table.definition.BindsTo given equalities ∧
        table.keyOf (.ofList equalities) = .ok key ∧
        table.Rewrites changed key after ∧
        (∀ column, update.Assigns column → table.definition.isPrimaryKey column = false) ∧
        (∀ row, (key, row) ∈ table.rows →
          after.inserted = row.inserted ∧
          (∀ column, ¬update.Assigns column → after.cells.find? column = row.cells.find? column) ∧
          table.update (update.byKey table.definition) = .ok changed) ∧
        ((∀ row, (key, row) ∉ table.rows) →
          after.inserted = false ∧
          (∀ column, ¬update.Assigns column →
            after.cells.find? column = (ColumnValues.ofList equalities).find? column) ∧
          ((∀ row, (key, row) ∈ changed.rows → ∀ column value,
              row.cells.find? column = some value →
              table.definition.isPrimaryKey column = true ∨ update.Assigns column) ↔
            ∀ equality ∈ equalities,
              table.definition.isPrimaryKey equality.1 = true ∨ update.Assigns equality.1) ∧
          ∀ equality ∈ equalities, table.definition.isPrimaryKey equality.1 = false →
            ¬update.Assigns equality.1 → (key, after) ∈ changed.rows ∧
              ∃ value, after.cells.find? equality.1 = some value) := by
  have hcoherent := hreach.coherent htable
  refine ⟨update_refused_iff, fun changed h => ?_⟩
  obtain ⟨bound, key, changes, cells, haddressed, hcells, hrewrites⟩ :=
    hcoherent.rewrites_of_update h
  obtain ⟨hbind, hkey, hchanges⟩ := addressed_eq_ok_iff.mp haddressed
  obtain ⟨given, equalities, hclauses, hbound, rfl⟩ := exists_equalities hbind
  have hkept : ∀ column, ¬update.Assigns column →
      cells.find? column = (table.startOf key (.ofList equalities)).cells.find? column :=
    fun column hnot => find?_assignCells_of_not_assigned hcells (ne_of_not_assigns hchanges hnot)
  refine ⟨given, equalities, key, _, hclauses, hbound, hkey, hrewrites,
    fun column => isPrimaryKey_of_assigns hchanges, fun row hrow => ?_, fun hnew => ?_⟩
  · rw [hcoherent.startOf_of_mem hrow] at hkept ⊢
    exact ⟨rfl, hkept, hcoherent.update_byKey haddressed hrow h⟩
  · have hstorable := storable_of_keyOf (addressed_eq_ok haddressed).1 hkey
    rw [hcoherent.startOf_of_not_mem hstorable hnew] at hkept hrewrites ⊢
    have hstray : ∀ equality ∈ equalities, table.definition.isPrimaryKey equality.1 = false →
        ¬update.Assigns equality.1 → (key, ⟨cells, false⟩) ∈ changed.rows ∧
          ∃ value, cells.find? equality.1 = some value := by
      intro equality hmem hprimary hnot
      obtain ⟨value, hvalue⟩ := ColumnValues.exists_find?_ofList
        (List.mem_map_of_mem (f := Prod.fst) hmem)
      have hcell : cells.find? equality.1 = some value := (hkept _ hnot).trans hvalue
      exact ⟨(hrewrites.row _).mpr ⟨rfl, .inr ⟨equality.1, value, hcell, hprimary⟩⟩, value, hcell⟩
    refine ⟨rfl, hkept, ⟨fun hplain equality hmem => ?_, fun hall row hrow column value hvalue => ?_⟩,
      hstray⟩
    · by_contra hneither
      rw [not_or, Bool.not_eq_true] at hneither
      obtain ⟨hrow, value, hvalue⟩ := hstray equality hmem hneither.1 hneither.2
      exact (hplain _ hrow _ value hvalue).elim (by simp [hneither.1]) hneither.2
    · obtain ⟨rfl, -⟩ := (hrewrites.row row).mp hrow
      by_cases hassigned : update.Assigns column
      · exact .inr hassigned
      · have hlast : (ColumnValues.ofList equalities).find? column = some value :=
          (hkept column hassigned).symm.trans hvalue
        exact hall _ (ColumnValues.mem_of_find?_ofList hlast)

/-- A session writes a vertex with a property. -/
def writeAge : List (String × Request) :=
  [("writer", .connect "graph"), ("writer", .changeSchema ElementKind.vertex.layout.createTable),
    ("writer", .add (.insert ⟨"vertices",
      [("ID", .text "1"), ("LABEL", .text "person"), ("PROPERTIES", .map (.ofList [("age", "27")]))]⟩)),
    ("writer", .commit)]

/-- The values for an identifier and a label. -/
def robot (id : String) : List (String × Value) :=
  [("ID", .text id), ("LABEL", .text "robot")]

/-- The update that takes the age of a labelled vertex away. -/
def removeAge (id : String) : Update :=
  ⟨"vertices", [.remove "PROPERTIES" (.text "age")], Clause.equalities (robot id)⟩

/-- The age can be taken away from the vertex that is there and from one that is not. -/
theorem exists_removeAge :
    ∃ table kept created, (World.run {} writeAge).cluster.table "graph" "vertices" = .ok table ∧
      table.definition = ElementKind.vertex.layout ∧
      table.update (removeAge "1") = .ok kept ∧ table.update (removeAge "2") = .ok created ∧
      table.rows.map (·.1) = [⟨partitionToken [.text "1"], [.text "1"], []⟩] := by
  have hrun : ((World.run {} writeAge).cluster.table "graph" "vertices").toOption.map
      (fun table => (table.definition, (table.update (removeAge "1")).toOption.isSome,
        (table.update (removeAge "2")).toOption.isSome, table.rows.map (·.1))) =
      some (ElementKind.vertex.layout, true, true,
        [⟨partitionToken [.text "1"], [.text "1"], []⟩]) := by decide +kernel
  obtain ⟨table, htable, hfacts⟩ := exists_ok_of_map_toOption hrun
  simp only [Prod.mk.injEq, Option.isSome_iff_exists, toOption_eq_some_iff] at hfacts
  obtain ⟨hdefinition, ⟨kept, hkept⟩, ⟨created, hcreated⟩, hkeys⟩ := hfacts
  exact ⟨table, kept, created, htable, hdefinition, hkept, hcreated, hkeys⟩

/-- Where the vertex is there the label makes no difference to the update. Where it is not the label
is written, and makes the vertex exist though nothing is assigned. A comparison that is no equality
is refused. -/
theorem update_keeps_unassigned_unless_new_writeAge :
    ∃ table kept created, (World.run {} writeAge).cluster.table "graph" "vertices" = .ok table ∧
      table.update (removeAge "1") = .ok kept ∧
      table.update ((removeAge "1").byKey table.definition) = .ok kept ∧
      table.update (removeAge "2") = .ok created ∧
      (∃ entry ∈ created.rows, entry ∉ table.rows ∧
        entry.2.cells.find? .label = some (.text "robot")) ∧
      table.update { removeAge "1" with clauses := [.compare .gt "ID" (.text "0")] } =
        .error .updateNotByEquality := by
  obtain ⟨table, kept, created, htable, hdefinition, hkept, hcreated, hkeys⟩ := exists_removeAge
  have hbound : ∀ id, table.definition.BindsTo (robot id) [(.id, .text id), (.label, .text "robot")] := by
    intro id
    rw [hdefinition]
    have hid : ElementKind.vertex.layout.resolve "ID" = .ok (.id, .text) := by decide +kernel
    exact .cons (TableDefinition.bind_eq_ok_iff.mpr ⟨.text, hid, rfl⟩)
      (.cons (by decide +kernel) .nil)
  have hkey : ∀ id, table.keyOf (.ofList [(.id, .text id), (.label, .text "robot")]) =
      .ok ⟨partitionToken [.text id], [.text id], []⟩ := by
    intro id
    rw [keyOf, hdefinition]
    rfl
  have hupdates := update_keeps_unassigned_unless_new ⟨writeAge, rfl⟩ htable
  refine ⟨table, kept, created, htable, hkept, ?_, hcreated, ?_, ?_⟩
  · obtain ⟨given, equalities, key, after, hclauses, hgiven, hone, -, -, hold, -⟩ :=
      (hupdates (removeAge "1")).2 kept hkept
    obtain rfl := Clause.equalities_injective hclauses
    obtain rfl := hgiven.unique (hbound "1")
    rw [hkey, Except.ok.injEq] at hone
    have hmem : key ∈ table.rows.map (·.1) := by
      rw [hkeys, ← hone]
      exact List.mem_singleton_self _
    obtain ⟨⟨_, row⟩, hrow, rfl⟩ := List.mem_map.mp hmem
    exact (hold row hrow).2.2
  · obtain ⟨given, equalities, key, after, hclauses, hgiven, htwo, -, -, -, hnew⟩ :=
      (hupdates (removeAge "2")).2 created hcreated
    obtain rfl := Clause.equalities_injective hclauses
    obtain rfl := hgiven.unique (hbound "2")
    rw [hkey, Except.ok.injEq] at htwo
    have hfresh : ∀ row, (key, row) ∉ table.rows := by
      intro row hrow
      have hmem := List.mem_map_of_mem (f := Prod.fst) hrow
      rw [hkeys, ← htwo, List.mem_singleton] at hmem
      exact absurd (congrArg RowKey.partition hmem) (by simp)
    have hlabel : ¬(removeAge "2").Assigns .label := by
      rintro ⟨assignment, hmem, hname⟩
      obtain rfl := List.mem_singleton.mp hmem
      revert hname
      decide +kernel
    obtain ⟨hrow, -⟩ := (hnew hfresh).2.2.2 (.label, .text "robot") (by simp)
      (by rw [hdefinition]; decide) hlabel
    refine ⟨_, hrow, hfresh after, ?_⟩
    rw [(hnew hfresh).2.1 .label hlabel]
    decide +kernel
  · refine (hupdates _).1.mpr ⟨[], .compare .gt "ID" (.text "0"), [], rfl, List.forall_mem_nil _, ?_⟩
    intro name value heq
    cases heq

/-- A new row does not always have cells in key columns and assigned columns alone. -/
theorem label_outside_key_written :
    ¬ ∀ (cluster : Cluster) (keyspace name : String) (table changed : StoredTable)
      (update : Update), cluster.Reachable → cluster.table keyspace name = .ok table →
      table.update update = .ok changed →
      ∀ entry ∈ changed.rows, (∀ other ∈ table.rows, other.1 ≠ entry.1) →
        ∀ column value, entry.2.cells.find? column = some value →
          table.definition.isPrimaryKey column = true ∨ update.Assigns column := by
  intro hall
  have hrun : ((World.run {} writeAge).cluster.table "graph" "vertices").toOption.map
      (fun table => (table.definition, (table.update (removeAge "2")).toOption.map fun changed =>
        changed.rows.any fun entry => decide (∀ other ∈ table.rows, other.1 ≠ entry.1) &&
          decide (entry.2.cells.find? .label = some (.text "robot")))) =
      some (ElementKind.vertex.layout, some true) := by decide +kernel
  obtain ⟨table, htable, hfacts⟩ := exists_ok_of_map_toOption hrun
  obtain ⟨hdefinition, hcreated⟩ := Prod.mk.inj hfacts
  obtain ⟨changed, hupdate, hsome⟩ := exists_ok_of_map_toOption hcreated
  obtain ⟨entry, hentry, hlabel⟩ := List.any_eq_true.mp hsome
  rw [Bool.and_eq_true, decide_eq_true_iff, decide_eq_true_iff] at hlabel
  obtain hprimary | ⟨assignment, hmem, hname⟩ := hall _ "graph" "vertices" table changed _
    ⟨writeAge, rfl⟩ htable hupdate entry hentry hlabel.1 .label _ hlabel.2
  · rw [hdefinition] at hprimary
    exact absurd hprimary (by decide)
  · obtain rfl := List.mem_singleton.mp hmem
    exact absurd hname (by decide +kernel)

end StoredTable

end WideGraph
