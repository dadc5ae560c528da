import WideGraph.Proofs.ColumnValues
import WideGraph.Proofs.FirstFault
import WideGraph.Proofs.Order.StorableValue
import WideGraph.Store.Change

/-!
# Values bound by name

A name stands for a declared column, to whose type the value given for it is bound. Values are bound
one by one, those of an insert as those of equality clauses, and of several for one column the last
counts. The key of a row is looked up among bound values, column by column.
-/

namespace WideGraph

/-- A bound value is storable. -/
theorem ColumnType.storable_of_bind {type : ColumnType} {value bound : Value}
    (h : type.bind value = .ok bound) : bound.Storable := by
  cases type <;> cases value <;> cases h <;> trivial

/-- A storable value is bound to itself or not at all. -/
theorem ColumnType.eq_of_bind {type : ColumnType} {value bound : Value}
    (h : type.bind value = .ok bound) (hvalue : value.Storable) : bound = value := by
  cases type <;> cases value <;> first | exact hvalue.elim | (cases h <;> rfl)

/-- A value that was bound is bound to itself. -/
theorem ColumnType.bind_bound {type : ColumnType} {value bound : Value}
    (h : type.bind value = .ok bound) : type.bind bound = .ok bound := by
  cases type <;> cases value <;> cases h <;> rfl

namespace TableDefinition

/-- A name stands for the column it spells if that is declared. -/
theorem resolve_eq_ok_iff {d : TableDefinition} {name : String} {column : Column}
    {type : ColumnType} :
    d.resolve name = .ok (column, type) ↔
      Column.ofName? name = some column ∧ d.typeOf? column = some type := by
  rw [resolve]
  cases hname : Column.ofName? name with
  | none => simp
  | some found =>
    cases htype : d.typeOf? found with
    | none =>
      have hne : found = column → d.typeOf? column ≠ some type := by
        rintro rfl
        simp [htype]
      simpa [htype] using hne
    | some foundType =>
      simp only [Option.bind_some, htype, Option.map_some, Except.ok.injEq, Prod.mk.injEq,
        Option.some.injEq]
      refine and_congr_right fun heq => ?_
      rw [← heq, htype, Option.some.injEq]

/-- A declared column is found under its name. -/
theorem resolve_nativeName {d : TableDefinition} {column : Column} {type : ColumnType}
    (h : d.typeOf? column = some type) : d.resolve column.nativeName = .ok (column, type) :=
  resolve_eq_ok_iff.mpr ⟨Column.ofName?_nativeName column, h⟩

/-- To bind a value by name is to bind it to the type of the column that the name stands for. -/
theorem bind_eq_ok_iff {d : TableDefinition} {name : String} {value bound : Value}
    {column : Column} :
    d.bind name value = .ok (column, bound) ↔
      ∃ type, d.resolve name = .ok (column, type) ∧ type.bind value = .ok bound := by
  rw [TableDefinition.bind, bind_ok_iff]
  constructor
  · rintro ⟨⟨found, type⟩, hresolve, hbind⟩
    obtain ⟨value, hvalue, heq⟩ := bind_ok_iff.mp hbind
    cases heq
    exact ⟨type, hresolve, hvalue⟩
  · rintro ⟨type, hresolve, hvalue⟩
    exact ⟨(column, type), hresolve, bind_ok_iff.mpr ⟨bound, hvalue, rfl⟩⟩

/-- Under the name of a column a value is bound to that column, by its type. -/
theorem bind_nativeName_eq_ok_iff {d : TableDefinition} {column : Column} {value : Value}
    {equality : Column × Value} :
    d.bind column.nativeName value = .ok equality ↔ equality.1 = column ∧
      ∃ type, d.typeOf? column = some type ∧ type.bind value = .ok equality.2 := by
  obtain ⟨other, bound⟩ := equality
  simp only [bind_eq_ok_iff, resolve_eq_ok_iff, Column.ofName?_nativeName, Option.some.injEq]
  constructor
  · rintro ⟨type, ⟨rfl, htype⟩, hvalue⟩
    exact ⟨rfl, type, htype, hvalue⟩
  · rintro ⟨rfl, type, htype, hvalue⟩
    exact ⟨type, ⟨rfl, htype⟩, hvalue⟩

/-- Values given for the columns of some names are bound, in the same order. -/
def BindsTo (d : TableDefinition) (given : List (String × Value))
    (equalities : List (Column × Value)) : Prop :=
  List.Forall₂ (fun pair equality => d.bind pair.1 pair.2 = .ok equality) given equalities

/-- Values are bound in one way at most. -/
theorem BindsTo.unique {d : TableDefinition} {given : List (String × Value)}
    {equalities others : List (Column × Value)} (h : d.BindsTo given equalities)
    (hothers : d.BindsTo given others) : equalities = others :=
  List.right_unique_forall₂' (fun _ _ _ hfirst hsecond =>
    Except.ok.inj (hfirst.symm.trans hsecond)) h hothers

namespace BindsTo

variable {d : TableDefinition} {pairs : List (Column × Value)}

/-- Under the names of columns values are bound to these columns, by the types of the columns. -/
theorem native_iff {equalities : List (Column × Value)} :
    d.BindsTo (pairs.map fun pair => (pair.1.nativeName, pair.2)) equalities ↔
      List.Forall₂ (fun pair equality => equality.1 = pair.1 ∧
        ∃ type, d.typeOf? pair.1 = some type ∧ type.bind pair.2 = .ok equality.2)
        pairs equalities := by
  rw [BindsTo, List.forall₂_map_left_iff]
  simp only [bind_nativeName_eq_ok_iff]

/-- Under the names of columns values are bound for the same columns. -/
theorem columns_of_native {equalities : List (Column × Value)}
    (h : d.BindsTo (pairs.map fun pair => (pair.1.nativeName, pair.2)) equalities) :
    equalities.map (·.1) = pairs.map (·.1) := by
  rw [← List.forall₂_eq_eq_eq, List.forall₂_map_left_iff, List.forall₂_map_right_iff]
  exact (native_iff.mp h).flip.imp fun _ _ hpair => hpair.1

/-- Under the names of columns values are bound as they are, if each of them can only be. -/
theorem eq_of_native {equalities : List (Column × Value)}
    (hpairs : ∀ pair ∈ pairs, ∀ type bound, d.typeOf? pair.1 = some type →
      type.bind pair.2 = .ok bound → bound = pair.2)
    (h : d.BindsTo (pairs.map fun pair => (pair.1.nativeName, pair.2)) equalities) :
    equalities = pairs := by
  have hsame : List.Forall₂ (· = ·) pairs equalities := by
    refine ((List.forall₂_and_left _ _).mpr ⟨hpairs, native_iff.mp h⟩).imp ?_
    rintro pair equality ⟨hpair, hcolumn, type, htype, hvalue⟩
    exact Prod.ext hcolumn.symm (hpair type _ htype hvalue).symm
  rw [List.forall₂_eq_eq_eq] at hsame
  exact hsame.symm

/-- Under the names of columns values are bound that their columns keep as they are. -/
theorem of_bind_self (hpairs : ∀ pair ∈ pairs, ∃ type, d.typeOf? pair.1 = some type ∧
    type.bind pair.2 = .ok pair.2) :
    d.BindsTo (pairs.map fun pair => (pair.1.nativeName, pair.2)) pairs :=
  native_iff.mpr (List.forall₂_same.mpr fun pair hpair => ⟨rfl, hpairs pair hpair⟩)

end BindsTo

end TableDefinition

/-- The equalities with some values for the columns of some names. -/
def Clause.equalities (given : List (String × Value)) : List Clause :=
  given.map fun pair => Clause.eq pair.1 pair.2

namespace ColumnValues

/-- Every value is storable and is that of a declared column. -/
def Fits (values : ColumnValues) (d : TableDefinition) : Prop :=
  ∀ column value, values.find? column = some value →
    (∃ type, d.typeOf? column = some type) ∧ value.Storable

/-- No values fit. -/
theorem fits_empty (d : TableDefinition) : empty.Fits d := by
  intro column value h
  cases h

end ColumnValues

namespace StoredTable

/-- Values are bound one after the other, and of those for one column the last counts. -/
theorem bindAll_eq_ok_iff {table : StoredTable} {values : List (String × Value)}
    {start bound : ColumnValues} :
    table.bindAll start values = .ok bound ↔
      ∃ restrictions, table.definition.BindsTo values restrictions ∧
        bound = restrictions.foldl (fun values pair => values.set pair.1 pair.2) start := by
  induction values generalizing start with
  | nil => simp [bindAll, TableDefinition.BindsTo, eq_comm]
  | cons given rest ih =>
    rw [bindAll]
    simp only [TableDefinition.BindsTo, List.forall₂_cons_left_iff] at ih ⊢
    cases hbind : table.definition.bind given.1 given.2 with
    | error e => simp
    | ok restriction =>
      dsimp only
      rw [ih]
      constructor
      · rintro ⟨restrictions, hrest, rfl⟩
        exact ⟨restriction :: restrictions, ⟨restriction, restrictions, rfl, hrest, rfl⟩, rfl⟩
      · rintro ⟨_, ⟨_, restrictions, hfirst, hrest, rfl⟩, rfl⟩
        cases hfirst
        exact ⟨restrictions, hrest, rfl⟩

/-- A value that was bound by name is the bound form of one that was listed for its column. -/
theorem listed_of_bindAll {table : StoredTable} {values : List (String × Value)}
    {bound : ColumnValues} (h : table.bindAll .empty values = .ok bound) {column : Column}
    {value : Value} (hfound : bound.find? column = some value) :
    ∃ name given type, Column.ofName? name = some column ∧ (name, given) ∈ values ∧
      table.definition.typeOf? column = some type ∧ type.bind given = .ok value := by
  obtain ⟨equalities, hbound, rfl⟩ := bindAll_eq_ok_iff.mp h
  obtain ⟨⟨name, given⟩, hmem, hpair⟩ :=
    exists_mem_of_forall₂ hbound (ColumnValues.mem_of_find?_ofList hfound)
  obtain ⟨type, hresolve, hvalue⟩ := TableDefinition.bind_eq_ok_iff.mp hpair
  obtain ⟨hname, htype⟩ := TableDefinition.resolve_eq_ok_iff.mp hresolve
  exact ⟨name, given, type, hname, hmem, htype, hvalue⟩

/-- Values bound by name fit. -/
theorem bindAll_fits {table : StoredTable} {values : List (String × Value)} {bound : ColumnValues}
    (h : table.bindAll .empty values = .ok bound) : bound.Fits table.definition := by
  intro column value hfound
  obtain ⟨_, _, type, -, -, htype, hbind⟩ := listed_of_bindAll h hfound
  exact ⟨⟨type, htype⟩, ColumnType.storable_of_bind hbind⟩

/-- Equalities bind the values that they list. -/
theorem bindEqualities_map_eq (table : StoredTable) (otherwise : StoreError) (start : ColumnValues)
    (values : List (String × Value)) :
    table.bindEqualities otherwise start (Clause.equalities values) =
      table.bindAll start values := by
  induction values generalizing start with
  | nil => rfl
  | cons given rest ih =>
    rw [Clause.equalities, List.map_cons, Clause.eq, bindEqualities, bindAll]
    cases table.definition.bind given.1 given.2 with
    | error e => rfl
    | ok restriction => exact ih _

/-- Equalities are bound as the values that they list. -/
theorem exists_bindAll_of_bindEqualities {table : StoredTable} {otherwise : StoreError}
    {clauses : List Clause} {start bound : ColumnValues}
    (h : table.bindEqualities otherwise start clauses = .ok bound) :
    ∃ values, clauses = Clause.equalities values ∧ table.bindAll start values = .ok bound := by
  induction clauses generalizing start with
  | nil =>
    cases h
    exact ⟨[], rfl, rfl⟩
  | cons clause rest ih =>
    rw [bindEqualities.eq_def] at h
    split at h
    · rename_i heq
      cases heq
    · rename_i name value others heq
      obtain ⟨rfl, rfl⟩ := List.cons.inj heq
      split at h
      · cases h
      · rename_i hbind
        obtain ⟨values, rfl, hvalues⟩ := ih h
        refine ⟨(name, value) :: values, rfl, ?_⟩
        rw [bindAll, hbind]
        exact hvalues
    · cases h

/-- Values bound by equality clauses fit. -/
theorem bindEqualities_fits {table : StoredTable} {otherwise : StoreError} {clauses : List Clause}
    {bound : ColumnValues} (h : table.bindEqualities otherwise .empty clauses = .ok bound) :
    bound.Fits table.definition := by
  obtain ⟨values, -, hbind⟩ := exists_bindAll_of_bindEqualities h
  exact bindAll_fits hbind

/-- The value of a key column, which may not be missing. -/
def keyValue (values : ColumnValues) (column : Column) : Except StoreError Value :=
  match values.find? column with
  | none => .error (.missingKeyPart column)
  | some value => .ok value

/-- The parts of a key are looked up one by one. -/
theorem keyPart_eq_mapExcept (values : ColumnValues) (columns : List Column) :
    keyPart values columns = mapExcept (keyValue values) columns := by
  induction columns with
  | nil => rfl
  | cons column rest ih =>
    rw [keyPart, mapExcept, keyValue, ih]
    cases values.find? column <;> rfl

/-- The value of a key column is what is found under it. -/
theorem keyValue_eq_ok_iff {values : ColumnValues} {column : Column} {value : Value} :
    keyValue values column = .ok value ↔ values.find? column = some value := by
  rw [keyValue]
  cases values.find? column <;> simp

/-- The parts of a key are what is found under its columns. -/
theorem keyPart_eq_ok_iff {values : ColumnValues} {columns : List Column} {parts : List Value} :
    keyPart values columns = .ok parts ↔
      List.Forall₂ (fun column part => values.find? column = some part) columns parts := by
  rw [keyPart_eq_mapExcept, mapExcept_eq_ok_iff]
  simp only [keyValue_eq_ok_iff]

/-- A key is made of the values found under the key columns, with the token of its partition. -/
theorem keyOf_eq_ok_iff {table : StoredTable} {values : ColumnValues} {key : RowKey} :
    table.keyOf values = .ok key ↔
      keyPart values table.definition.partitionColumns = .ok key.partition ∧
      keyPart values table.definition.clusteringColumns = .ok key.clustering ∧
      key.token = partitionToken key.partition := by
  rw [keyOf, bind_ok_iff]
  obtain ⟨token, partition, clustering⟩ := key
  constructor
  · rintro ⟨foundPartition, hpartition, hrest⟩
    obtain ⟨foundClustering, hclustering, heq⟩ := bind_ok_iff.mp hrest
    cases heq
    exact ⟨hpartition, hclustering, rfl⟩
  · rintro ⟨hpartition, hclustering, htoken⟩
    change token = partitionToken partition at htoken
    rw [htoken]
    exact ⟨partition, hpartition, bind_ok_iff.mpr ⟨clustering, hclustering, rfl⟩⟩

/-- The parts of a key are among the values that it was made of. -/
theorem exists_find?_of_keyOf {table : StoredTable} {bound : ColumnValues} {key : RowKey}
    (h : table.keyOf bound = .ok key) {column : Column}
    (hprimary : table.definition.isPrimaryKey column = true) :
    ∃ value, bound.find? column = some value := by
  obtain ⟨hpartition, hclustering, -⟩ := keyOf_eq_ok_iff.mp h
  have hfound : ∀ {columns : List Column} {parts : List Value},
      keyPart bound columns = .ok parts → column ∈ columns →
        ∃ value, bound.find? column = some value := by
    intro columns parts hparts hmem
    obtain ⟨value, -, hvalue⟩ := exists_mem_of_forall₂ (keyPart_eq_ok_iff.mp hparts).flip hmem
    exact ⟨value, hvalue⟩
  rw [TableDefinition.isPrimaryKey, Bool.or_eq_true] at hprimary
  obtain hprimary | hprimary := hprimary
  · exact hfound hpartition (List.contains_iff_mem.mp hprimary)
  · exact hfound hclustering (List.contains_iff_mem.mp hprimary)

/-- Values that make no key lack a part of it. -/
theorem missingKeyPart_of_keyOf {table : StoredTable} {values : ColumnValues} {e : StoreError}
    (h : table.keyOf values = .error e) :
    ∃ column, e = .missingKeyPart column := by
  have hpart : ∀ columns, keyPart values columns = .error e →
      ∃ column, e = .missingKeyPart column := by
    intro columns hpart
    rw [keyPart_eq_mapExcept, mapExcept_eq_error_iff] at hpart
    obtain ⟨column, -, hcolumn⟩ := hpart.exists_mem
    rw [keyValue] at hcolumn
    split at hcolumn <;> cases hcolumn
    exact ⟨column, rfl⟩
  obtain hpartition | ⟨_, -, hrest⟩ := bind_error_iff.mp h
  · exact hpart _ hpartition
  · obtain hclustering | ⟨_, -, hkey⟩ := bind_error_iff.mp hrest
    · exact hpart _ hclustering
    · cases hkey

/-- A key is only made of the values for key columns. -/
theorem keyOf_congr {table : StoredTable} {a b : ColumnValues}
    (h : ∀ column, table.definition.isPrimaryKey column = true → a.find? column = b.find? column) :
    table.keyOf a = table.keyOf b := by
  have hpart : ∀ columns : List Column, (∀ column ∈ columns, a.find? column = b.find? column) →
      keyPart a columns = keyPart b columns := by
    intro columns hcolumns
    rw [keyPart_eq_mapExcept, keyPart_eq_mapExcept]
    refine mapExcept_congr fun column hcolumn => ?_
    rw [keyValue, keyValue, hcolumns column hcolumn]
  simp only [TableDefinition.isPrimaryKey, TableDefinition.isPartitionKey,
    TableDefinition.isClusteringKey, Bool.or_eq_true, List.contains_iff_mem, or_imp,
    forall_and] at h
  rw [keyOf, keyOf, hpart _ h.1, hpart _ h.2]

end StoredTable

end WideGraph
