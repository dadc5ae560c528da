import WideGraph.Proofs.Store.Coherence

/-!
# What an insert leaves

An insert binds the values of a row one by one and writes them over the cells that the row had. A
value that is bound to null takes the cell of its column away.
-/

namespace WideGraph

/-- The cells after values were written over those before. A column with a value has the bound form
of the value, or no cell if that is null, and any other column has the cell from before. -/
def ColumnValues.WrittenOver (values : ColumnValues) (d : TableDefinition)
    (before after : ColumnValues) : Prop :=
  ∀ column,
    match values.find? column with
    | none => after.find? column = before.find? column
    | some value => ∃ type bound, d.typeOf? column = some type ∧ type.bind value = .ok bound ∧
        after.find? column = if bound.isNull then none else some bound

namespace StoredTable

/-- Values of distinct columns are bound each on its own. -/
theorem find?_bindAll {table : StoredTable} {values bound : ColumnValues}
    (h : table.bindAll .empty (values.bindings.map fun b => (b.1.nativeName, b.2)) = .ok bound)
    (column : Column) :
    match values.find? column with
    | none => bound.find? column = none
    | some value => ∃ type found, table.definition.typeOf? column = some type ∧
        type.bind value = .ok found ∧ bound.find? column = some found := by
  obtain ⟨equalities, hbinds, rfl⟩ := bindAll_eq_ok_iff.mp h
  have hpairs := TableDefinition.BindsTo.native_iff.mp hbinds
  cases hvalue : values.find? column with
  | none =>
    refine Option.eq_none_iff_forall_not_mem.mpr fun found hfound => ?_
    obtain ⟨pair, hmem, hcolumn, -⟩ :=
      exists_mem_of_forall₂ hpairs (ColumnValues.mem_of_find?_ofList hfound)
    dsimp only at hcolumn
    subst hcolumn
    simp [ColumnValues.mem_bindings_iff.mp hmem] at hvalue
  | some value =>
    obtain ⟨⟨other, found⟩, hmem, hcolumn, type, htype, hbind⟩ :=
      exists_mem_of_forall₂ hpairs.flip (ColumnValues.mem_bindings_iff.mpr hvalue)
    dsimp only at hcolumn htype hbind
    subst hcolumn
    have hdistinct : (equalities.map (·.1)).Nodup := by
      rw [hbinds.columns_of_native]
      exact values.nodup_bindings
    exact ⟨type, found, htype, hbind, (ColumnValues.find?_ofList_iff hdistinct).mpr hmem⟩

/-- Bound values are written over cells. -/
theorem writtenOver_of_bindAll {table : StoredTable} {values bound : ColumnValues}
    (h : table.bindAll .empty (values.bindings.map fun b => (b.1.nativeName, b.2)) = .ok bound)
    (before : ColumnValues) :
    values.WrittenOver table.definition before (writeCells before bound) := by
  intro column
  have hcolumn := find?_bindAll h column
  cases hvalue : values.find? column with
  | none =>
    rw [hvalue] at hcolumn
    rw [find?_writeCells, hcolumn]
  | some value =>
    rw [hvalue] at hcolumn
    obtain ⟨type, found, htype, hbind, hfound⟩ := hcolumn
    exact ⟨type, found, htype, hbind, by rw [find?_writeCells, hfound]⟩

/-- After an insert into a coherent table the row with the written cells is kept under its key. -/
theorem Coherent.writtenOver_of_insert {table changed : StoredTable} (h : table.Coherent)
    {name : String} {values : ColumnValues}
    (happly : table.insert ⟨name, values.bindings.map fun b => (b.1.nativeName, b.2)⟩ =
      .ok changed) :
    changed.definition = table.definition ∧ ∃ key row, (key, row) ∈ changed.rows ∧
      values.WrittenOver table.definition
        ((Bindings.find? key table.rows).getD {}).cells row.cells := by
  obtain ⟨bound, key, hbind, hkey, rfl⟩ := insert_eq_ok_iff.mp happly
  have hstorable := storable_of_keyOf (bindAll_fits hbind) hkey
  refine ⟨rfl, key, ⟨writeCells ((Bindings.find? key table.rows).getD {}).cells bound, true⟩, ?_,
    writtenOver_of_bindAll hbind _⟩
  exact (Bindings.mem_insert_iff RowKey.compare_lawfulOn h.increasing h.keysSatisfy hstorable _
    _).mpr (.inl rfl)

end StoredTable

end WideGraph
