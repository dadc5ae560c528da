import WideGraph.Proofs.Store.Coherence

/-!
# How tables keep their rows

In every table of a reachable cluster a row has a complete key with the token of its partition,
cells of declared columns only, and a reason to be there: it was written whole or has a cell outside
its key. The values that a table keeps are in a total order with identical equals, because neither
whole numbers nor lists are ever stored. Hence the keys of the rows are in a total order, too, there
is one row for each primary key, and the rows can be ordered by any columns.
-/

namespace WideGraph

/-- On the items with a property the comparison is a total preorder: different items may be equal. -/
structure TotalPreorderOn {α : Type} (order : α → α → Ordering) (p : α → Prop) : Prop where
  total : ∀ a b, p a → p b → (order a b).isLE = true ∨ (order b a).isLE = true
  swap : ∀ a b, p a → p b → (order a b).swap = order b a
  trans : ∀ a b c, p a → p b → p c → (order a b).isLE = true → (order b c).isLE = true →
    (order a c).isLE = true

/-- One of two items that can be compared either way is not behind the other. -/
theorem TotalPreorderOn.of_swap_trans {α : Type} {order : α → α → Ordering} {p : α → Prop}
    (hswap : ∀ a b, p a → p b → (order a b).swap = order b a)
    (htrans : ∀ a b c, p a → p b → p c → (order a b).isLE = true → (order b c).isLE = true →
      (order a c).isLE = true) : TotalPreorderOn order p where
  total a b ha hb := by
    rw [← hswap a b ha hb]
    cases order a b <;> decide
  swap := hswap
  trans := htrans

namespace LawfulOn

variable {κ α : Type} {order : κ → κ → Ordering} {p : κ → Prop}

/-- A comparison that is lawful on some keys is lawful on fewer. -/
theorem mono {q : κ → Prop} (law : LawfulOn order p) (h : ∀ a, q a → p a) : LawfulOn order q where
  eq_iff a b ha hb := law.eq_iff a b (h a ha) (h b hb)
  swap a b ha hb := law.swap a b (h a ha) (h b hb)
  lt_trans a b c ha hb hc := law.lt_trans a b c (h a ha) (h b hb) (h c hc)

/-- A lawful comparison is lawful the other way round. -/
theorem flip (law : LawfulOn order p) : LawfulOn (fun a b => order b a) p where
  eq_iff a b ha hb := (law.eq_iff b a hb ha).trans eq_comm
  swap a b ha hb := law.swap b a hb ha
  lt_trans a b c ha hb hc hab hbc := law.lt_trans c b a hc hb ha hbc hab

/-- Items compared first by a key and then in some other way are in a total preorder. -/
theorem preorder_then (law : LawfulOn order p) {f : α → κ} {q : α → Prop}
    (hf : ∀ a, q a → p (f a)) {next : α → α → Ordering} (hnext : TotalPreorderOn next q) :
    TotalPreorderOn (fun a b => (order (f a) (f b)).then (next a b)) q := by
  refine .of_swap_trans (fun a b ha hb => ?_) fun a b c ha hb hc hab hbc => ?_
  · rw [Ordering.swap_then, law.swap _ _ (hf a ha) (hf b hb), hnext.swap a b ha hb]
  · have hle : ∀ a b, ((order (f a) (f b)).then (next a b)).isLE = true →
        order (f a) (f b) = .lt ∨ order (f a) (f b) = .eq ∧ (next a b).isLE = true := by
      intro a b h
      cases horder : order (f a) (f b) <;> simp_all
    obtain hab | ⟨heq, hab⟩ := hle a b hab
    · have hac : order (f a) (f c) = .lt := by
        obtain hbc | ⟨heq, -⟩ := hle b c hbc
        · exact law.lt_trans _ _ _ (hf a ha) (hf b hb) (hf c hc) hab hbc
        · rwa [← (law.eq_iff _ _ (hf b hb) (hf c hc)).mp heq]
      rw [hac]
      rfl
    · rw [(law.eq_iff _ _ (hf a ha) (hf b hb)).mp heq]
      obtain hbc | ⟨heq, hbc⟩ := hle b c hbc
      · rw [hbc]
        rfl
      · rw [heq]
        exact hnext.trans a b c ha hb hc hab hbc

end LawfulOn

namespace StoredTable

/-- Rows with fitting cells are in a total preorder by any columns, each in either direction. -/
theorem compareRows_preorder {d : TableDefinition} {p : StoredRow → Prop}
    (hfits : ∀ row, p row → row.cells.Fits d) (orders : List (Column × SortOrder)) :
    TotalPreorderOn (fun a b => compareRows a b orders) p := by
  induction orders with
  | nil => exact .of_swap_trans (fun _ _ _ _ => rfl) fun _ _ _ _ _ _ _ _ => rfl
  | cons first rest ih =>
    obtain ⟨column, direction⟩ := first
    have hvalue : ∀ row, p row → (row.valueOf column).Storable := fun row hrow =>
      StoredRow.storable_valueOf (hfits row hrow) column
    cases direction with
    | ascending => exact Value.order_lawfulOn.preorder_then hvalue ih
    | descending => exact Value.order_lawfulOn.flip.preorder_then hvalue ih

end StoredTable

/-- A row has a reason to be there: it was written whole or has a cell outside the primary key. -/
def StoredRow.Lasting (d : TableDefinition) (row : StoredRow) : Prop :=
  row.inserted = true ∨
    ∃ column value, row.cells.find? column = some value ∧ d.isPrimaryKey column = false

namespace StoredTable

/-- Every row has a reason to be there. -/
def Lasting (table : StoredTable) : Prop :=
  ∀ entry ∈ table.rows, entry.2.Lasting table.definition

/-- A cell outside the primary key is what is looked for when a row is to be kept. -/
theorem hasDataCell_iff {table : StoredTable} {cells : ColumnValues} :
    table.hasDataCell cells = true ↔
      ∃ column value, cells.find? column = some value ∧
        table.definition.isPrimaryKey column = false := by
  rw [hasDataCell, ColumnValues.columns, List.any_map, List.any_eq_true]
  simp only [Function.comp_apply, Bool.not_eq_true', Prod.exists]
  exact exists₂_congr fun column value => and_congr_left fun _ => ColumnValues.mem_bindings_iff

/-- Every statement keeps only rows that have a reason to be there. -/
theorem Lasting.apply {table changed : StoredTable} {statement : Statement} (h : table.Lasting)
    (hcoherent : table.Coherent) (happly : table.apply statement = .ok changed) :
    changed.Lasting := by
  cases statement with
  | insert statement =>
    obtain ⟨bound, key, hbind, hkey, rfl⟩ := insert_eq_ok_iff.mp happly
    have hbound := bindAll_fits hbind
    exact hcoherent.forall_mem_insert (storable_of_keyOf hbound hkey) h (.inl rfl)
  | update statement =>
    obtain ⟨bound, key, changes, cells, haddressed, -, rfl⟩ := update_eq_ok_iff.mp happly
    obtain ⟨hbound, hkey, -⟩ := addressed_eq_ok haddressed
    split
    · rename_i hkept
      exact hcoherent.forall_mem_insert (storable_of_keyOf hbound hkey) h
        ((Bool.or_eq_true_iff.mp hkept).imp_right hasDataCell_iff.mp)
    · exact fun entry hentry => h entry (List.mem_filter.mp hentry).1
  | delete statement =>
    obtain ⟨bound, -, -, rfl⟩ := delete_eq_ok_iff.mp happly
    exact fun entry hentry => h entry (List.mem_filter.mp hentry).1

/-- The value is kept by a table, as a part of a key or in a cell. -/
def Holds (table : StoredTable) (value : Value) : Prop :=
  ∃ entry ∈ table.rows, value ∈ entry.1.partition ∨ value ∈ entry.1.clustering ∨
    ∃ column, entry.2.cells.find? column = some value

/-- The values that a coherent table keeps are storable. -/
theorem Coherent.storable_of_holds {table : StoredTable} (h : table.Coherent) {value : Value}
    (hvalue : table.Holds value) : value.Storable := by
  obtain ⟨entry, hentry, hplace⟩ := hvalue
  have hrow := h.rows entry hentry
  obtain hpartition | hclustering | ⟨column, hcell⟩ := hplace
  · exact hrow.storable_key.1 value hpartition
  · exact hrow.storable_key.2 value hclustering
  · exact (hrow.fits column value hcell).2

/-- Two rows of a coherent table with the same values in the key are the same row. -/
theorem Coherent.eq_of_parts {table : StoredTable} (h : table.Coherent) {a b : RowKey × StoredRow}
    (ha : a ∈ table.rows) (hb : b ∈ table.rows) (hpartition : a.1.partition = b.1.partition)
    (hclustering : a.1.clustering = b.1.clustering) : a = b := by
  have hparts : ∀ entry ∈ table.rows, entry.1 =
      ⟨partitionToken entry.1.partition, entry.1.partition, entry.1.clustering⟩ := by
    intro entry hentry
    rw [(h.rows entry hentry).key_eq]
    rfl
  have hkey : a.1 = b.1 := by
    rw [hparts a ha, hpartition, hclustering, ← hparts b hb]
  have hfound := fun (entry : RowKey × StoredRow) (hentry : entry ∈ table.rows) =>
    (Bindings.find?_eq_some_iff_mem RowKey.compare_lawfulOn h.increasing h.keysSatisfy
      (h.rows entry hentry).storable_key entry.2).mpr hentry
  have hsame := hfound a ha
  rw [hkey, hfound b hb, Option.some.injEq] at hsame
  exact Prod.ext hkey hsame.symm

/-- What holds of the rows of a table, of their keys and of the values in both. -/
structure WellFormed (table : StoredTable) : Prop where
  /-- A key has a part for every partition and every clustering column, and the token belongs to the
  partition. -/
  keys : ∀ entry ∈ table.rows,
    entry.1.partition.length = table.definition.partitionKeys.length ∧
    entry.1.clustering.length = table.definition.clusteringKeys.length ∧
    entry.1.token = partitionToken entry.1.partition
  /-- A cell is one of a declared column. -/
  cells : ∀ entry ∈ table.rows, ∀ column value, entry.2.cells.find? column = some value →
    ∃ type, table.definition.typeOf? column = some type
  /-- A row was written whole or has a cell outside the primary key. -/
  lasting : ∀ entry ∈ table.rows, entry.2.Lasting table.definition
  /-- The values that the table keeps are in a total order with identical equals. -/
  values : LawfulOn Value.order table.Holds
  /-- So are the keys of its rows. -/
  keyOrder : LawfulOn RowKey.order fun key => ∃ row, (key, row) ∈ table.rows
  /-- The rows are sorted by their keys. -/
  sorted : table.rows.Pairwise fun a b => RowKey.order a.1 b.1 = .lt
  /-- There is one row for a primary key. -/
  unique : ∀ a ∈ table.rows, ∀ b ∈ table.rows, a.1.partition = b.1.partition →
    a.1.clustering = b.1.clustering → a = b
  /-- The rows are in a total preorder by any columns. -/
  ordering : ∀ orders, TotalPreorderOn (fun a b => compareRows a b orders) fun row =>
    ∃ key, (key, row) ∈ table.rows

/-- A coherent table whose rows last is well formed. -/
theorem Coherent.wellFormed_of_lasting {table : StoredTable} (h : table.Coherent)
    (hlasting : table.Lasting) : table.WellFormed where
  keys entry hentry := by
    rw [(h.rows entry hentry).key_eq]
    exact ⟨by simp [StoredRow.keyIn, TableDefinition.partitionColumns],
      by simp [StoredRow.keyIn, TableDefinition.clusteringColumns], rfl⟩
  cells entry hentry column value hvalue := ((h.rows entry hentry).fits column value hvalue).1
  lasting := hlasting
  values := Value.order_lawfulOn.mono fun _ => h.storable_of_holds
  keyOrder := RowKey.compare_lawfulOn.mono fun key ⟨row, hrow⟩ =>
    (h.rows (key, row) hrow).storable_key
  sorted := h.increasing
  unique _ ha _ hb hpartition hclustering := h.eq_of_parts ha hb hpartition hclustering
  ordering orders :=
    compareRows_preorder (fun row ⟨key, hrow⟩ => (h.rows (key, row) hrow).fits) orders

end StoredTable

namespace Cluster

/-- Every table of a reachable cluster is well formed, whatever its definition is and whatever was
asked for. -/
theorem Reachable.wellFormed {cluster : Cluster} (h : cluster.Reachable) {keyspace name : String}
    {table : StoredTable} (htable : cluster.table keyspace name = .ok table) :
    table.WellFormed := by
  have hboth : table.Coherent ∧ table.Lasting := by
    refine h.of_preserved (motive := fun table => table.Coherent ∧ table.Lasting)
      (fun definition => ⟨⟨List.Pairwise.nil, by simp⟩, ?_⟩) ?_ ?_ htable
    · intro entry hentry
      cases hentry
    · rintro table indexes ⟨hcoherent, hlasting⟩
      exact ⟨⟨hcoherent.increasing, hcoherent.rows⟩, hlasting⟩
    · rintro table statement changed ⟨hcoherent, hlasting⟩ happly
      exact ⟨hcoherent.apply happly, hlasting.apply hcoherent happly⟩
  exact hboth.1.wellFormed_of_lasting hboth.2

/-- The statement that adds an element to the search index for an age. -/
def addAged (age : Value) (id : String) : Statement :=
  .update ⟨"search_indexes", [.append "ELEMENT_IDS" (.text id)],
    [Clause.eq "INDEX_LABEL_NAME" (.text "byAge"), Clause.eq "FIELD_VALUES" age]⟩

/-- The statement that takes an element out of the search index for an age. -/
def removeAged (age : Value) (id : String) : Statement :=
  .update ⟨"search_indexes", [.remove "ELEMENT_IDS" (.text id)],
    [Clause.eq "INDEX_LABEL_NAME" (.text "byAge"), Clause.eq "FIELD_VALUES" age]⟩

/-- Two elements of one age are added to the search index, which is given as a whole number and as a
decimal; another element is added and taken out again, and a row is written whole without any. -/
def writeAges : List (String × Request) :=
  [("writer", .connect "graph"),
    ("writer", .changeSchema ElementKind.searchIndex.layout.createTable),
    ("writer", .add (addAged (.bigint 3) "1")),
    ("writer", .add (addAged (.decimal (Binary64.ofInt 3)) "2")),
    ("writer", .add (addAged (.bigint 4) "3")), ("writer", .add (removeAged (.bigint 4) "3")),
    ("writer", .add (.insert ⟨"search_indexes",
      [("INDEX_LABEL_NAME", .text "byAge"), ("FIELD_VALUES", .bigint 5)]⟩)),
    ("writer", .commit)]

/-- The elements of one age share a row, the row written whole stays, and there is no other. -/
theorem wellFormed_writeAges :
    ∃ table, (World.run {} writeAges).cluster.table "graph" "search_indexes" = .ok table ∧
      table.rows.length = 2 ∧ table.WellFormed := by
  have hrows : ((World.run {} writeAges).cluster.table "graph" "search_indexes").toOption.map
      (fun table => table.rows.length) = some 2 := by decide +kernel
  obtain ⟨table, htable, hlength⟩ := exists_ok_of_map_toOption hrows
  exact ⟨table, htable, hlength, Reachable.wellFormed ⟨writeAges, rfl⟩ htable⟩

end Cluster

end WideGraph
