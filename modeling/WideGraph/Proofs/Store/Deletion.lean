import WideGraph.Proofs.ColumnValues
import WideGraph.Proofs.Store.Coherence

/-!
# What deletes take out

A delete takes out the rows that have all the values that it names. Deletes of one table, one after
the other, take out the rows that one of them does, and leave the other rows and tables alone.
-/

namespace WideGraph

namespace StoredTable

/-- Only the definition of a table is needed to bind values. -/
theorem bindEqualities_definition (table : StoredTable) (otherwise : StoreError)
    (start : ColumnValues) (clauses : List Clause) :
    table.bindEqualities otherwise start clauses =
      bindEqualities { definition := table.definition } otherwise start clauses := by
  induction clauses generalizing start with
  | nil => rfl
  | cons clause rest ih =>
    rw [bindEqualities.eq_def, bindEqualities.eq_def { definition := table.definition }]
    cases clause with
    | compare comparison name value => cases comparison <;> simp only [ih]
    | _ => rfl

/-- Equalities under the names of columns bind the values that are bound to the columns. -/
theorem bindEqualities_native_eq_ok_iff {table : StoredTable} {otherwise : StoreError}
    {pairs : List (Column × Value)} {start bound : ColumnValues} :
    table.bindEqualities otherwise start (pairs.map fun pair =>
        Clause.eq pair.1.nativeName pair.2) = .ok bound ↔
      ∃ equalities, table.definition.BindsTo
          (pairs.map fun pair => (pair.1.nativeName, pair.2)) equalities ∧
        bound = equalities.foldl (fun values pair => values.set pair.1 pair.2) start := by
  have hclauses : (pairs.map fun pair => Clause.eq pair.1.nativeName pair.2) =
      Clause.equalities (pairs.map fun pair => (pair.1.nativeName, pair.2)) := by
    rw [Clause.equalities, List.map_map]
    rfl
  rw [hclauses, bindEqualities_map_eq, bindAll_eq_ok_iff]

/-- Storable values are bound as they are. -/
theorem bindEqualities_storable {table : StoredTable} {otherwise : StoreError}
    {pairs : List (Column × Value)} (hpairs : ∀ pair ∈ pairs, pair.2.Storable)
    {start bound : ColumnValues}
    (h : table.bindEqualities otherwise start (pairs.map fun pair =>
      Clause.eq pair.1.nativeName pair.2) = .ok bound) :
    bound = pairs.foldl (fun values pair => values.set pair.1 pair.2) start := by
  obtain ⟨equalities, hbinds, rfl⟩ := bindEqualities_native_eq_ok_iff.mp h
  rw [hbinds.eq_of_native fun pair hpair _ _ _ hbind =>
    ColumnType.eq_of_bind hbind (hpairs pair hpair)]

/-- Values that their columns keep as they are can be bound. -/
theorem bindEqualities_of_bind_self {table : StoredTable} (otherwise : StoreError)
    {pairs : List (Column × Value)}
    (hpairs : ∀ pair ∈ pairs, ∃ type, table.definition.typeOf? pair.1 = some type ∧
      type.bind pair.2 = .ok pair.2) (start : ColumnValues) :
    table.bindEqualities otherwise start (pairs.map fun pair =>
        Clause.eq pair.1.nativeName pair.2) =
      .ok (pairs.foldl (fun values pair => values.set pair.1 pair.2) start) :=
  bindEqualities_native_eq_ok_iff.mpr ⟨pairs, .of_bind_self hpairs, rfl⟩

/-- A row has bound values if each of them is in the cell of its column. -/
theorem hasCells_iff {d : TableDefinition} {row : StoredRow} (hrow : row.cells.Fits d)
    {bound : ColumnValues} (hbound : bound.Fits d) :
    hasCells row bound = true ↔
      ∀ column value, bound.find? column = some value → row.cells.find? column = some value := by
  have hcell : ∀ column value, bound.find? column = some value →
      ((row.cells.find? column).any (·.same value) = true ↔
        row.cells.find? column = some value) := by
    intro column value hvalue
    cases hfound : row.cells.find? column with
    | none => simp
    | some cell =>
      rw [Option.any_some, Option.some.injEq,
        Value.same_iff (hrow column cell hfound).2 (hbound column value hvalue).2]
  rw [hasCells, List.all_eq_true]
  constructor
  · intro h column value hvalue
    exact (hcell column value hvalue).mp
      (h (column, value) (ColumnValues.mem_bindings_iff.mpr hvalue))
  · rintro h ⟨column, value⟩ hmem
    have hvalue := ColumnValues.mem_bindings_iff.mp hmem
    exact (hcell column value hvalue).mpr (h column value hvalue)

section Pairs

variable {table : StoredTable} {pairs : List (Column × Value)}
  (hpairs : ∀ pair ∈ pairs, ∃ type, table.definition.typeOf? pair.1 = some type ∧
    type.bind pair.2 = .ok pair.2)

include hpairs

/-- A row has values that their columns keep as they are if they are in its cells. -/
theorem hasCells_ofList_iff {row : StoredRow} (hrow : row.cells.Fits table.definition) :
    hasCells row (.ofList pairs) = true ↔ ∀ column value,
      (ColumnValues.ofList pairs).find? column = some value →
        row.cells.find? column = some value := by
  refine hasCells_iff hrow fun column value hvalue => ?_
  obtain ⟨type, htype, hbind⟩ := hpairs _ (ColumnValues.mem_of_find?_ofList hvalue)
  exact ⟨⟨type, htype⟩, ColumnType.storable_of_bind hbind⟩

/-- The delete by values that their columns keep as they are takes out the rows that have them. -/
theorem delete_of_bind_self (hsome : pairs ≠ []) (name : String) :
    table.delete ⟨name, pairs.map fun pair => Clause.eq pair.1.nativeName pair.2⟩ =
      .ok { table with
        rows := table.rows.filter fun entry => !hasCells entry.2 (.ofList pairs) } :=
  delete_eq_ok_iff.mpr ⟨.ofList pairs, bindEqualities_of_bind_self _ hpairs _,
    ColumnValues.isEmpty_ofList hsome, rfl⟩

end Pairs

end StoredTable

namespace Delete

variable {delete : Delete} {d : TableDefinition} {row : StoredRow}

/-- The values that a delete names can be bound to the columns of a definition. -/
def Bindable (delete : Delete) (d : TableDefinition) : Prop :=
  ∃ bound, StoredTable.bindEqualities { definition := d } .deleteNotByEquality .empty
    delete.clauses = .ok bound

/-- The rows that a delete takes out of a table with a definition. -/
def takes (delete : Delete) (d : TableDefinition) (row : StoredRow) : Bool :=
  match StoredTable.bindEqualities { definition := d } .deleteNotByEquality .empty
    delete.clauses with
  | .ok bound => StoredTable.hasCells row bound
  | .error _ => false

/-- What a successful delete leaves of a table. -/
theorem eq_filter_of_ok {table changed : StoredTable} (h : table.delete delete = .ok changed) :
    delete.Bindable table.definition ∧
      changed = { table with
        rows := table.rows.filter fun entry => !delete.takes table.definition entry.2 } := by
  obtain ⟨bound, hbind, -, rfl⟩ := StoredTable.delete_eq_ok_iff.mp h
  rw [StoredTable.bindEqualities_definition] at hbind
  refine ⟨⟨bound, hbind⟩, ?_⟩
  simp only [takes, hbind]

/-- A delete by values takes out the rows that have each of them, if it can be bound. -/
theorem takes_ofList_iff (hrow : row.cells.Fits d) {name : String} {pairs : List (Column × Value)}
    (hpairs : ∀ pair ∈ pairs, pair.2.Storable)
    (hbind : Bindable ⟨name, pairs.map fun pair => Clause.eq pair.1.nativeName pair.2⟩ d) :
    takes ⟨name, pairs.map fun pair => Clause.eq pair.1.nativeName pair.2⟩ d row = true ↔
      ∀ column value, (ColumnValues.ofList pairs).find? column = some value →
        row.cells.find? column = some value := by
  obtain ⟨bound, hbind⟩ := hbind
  have hfits := StoredTable.bindEqualities_fits hbind
  obtain rfl := StoredTable.bindEqualities_storable hpairs hbind
  rw [takes, hbind]
  exact StoredTable.hasCells_iff hrow hfits

end Delete

/-- Deletes of one table that succeed one after the other leave the rows that none of them takes. -/
theorem Keyspace.Applies.find?_of_deletes {tables reached : Keyspace} {name : String}
    {deletes : List Delete} (h : Applies tables (deletes.map .delete) reached)
    (hname : ∀ delete ∈ deletes, delete.table = name) {before : StoredTable}
    (hbefore : Bindings.find? name tables = some before) :
    (∀ delete ∈ deletes, delete.Bindable before.definition) ∧
      Bindings.find? name reached = some { before with
        rows := before.rows.filter fun entry =>
          deletes.all fun delete => !delete.takes before.definition entry.2 } := by
  induction deletes generalizing tables before with
  | nil =>
    cases h
    simpa using hbefore
  | cons delete rest ih =>
    obtain ⟨hfirst, hrest⟩ := List.forall_mem_cons.mp hname
    cases h with
    | @cons _ _ _ _ table changed hfound happly happlies =>
      change Bindings.find? delete.table tables = some table at hfound
      rw [hfirst, hbefore, Option.some.injEq] at hfound
      subst hfound
      obtain ⟨hbind, rfl⟩ := Delete.eq_filter_of_ok happly
      change Applies (Bindings.insert delete.table _ tables) _ _ at happlies
      rw [hfirst] at happlies
      obtain ⟨hbindable, hafter⟩ := ih happlies hrest (Bindings.find?_insert_self _ _ _)
      refine ⟨List.forall_mem_cons.mpr ⟨hbind, hbindable⟩, ?_⟩
      rw [hafter, List.filter_filter]
      simp only [List.all_cons, Bool.and_comm]

end WideGraph
