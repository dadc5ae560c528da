import WideGraph.Proofs.GraphTable.QueryReading

/-!
# Elements looked up by identifier

A query for one identifier and nothing else is answered with the rows that have its key values. If
the identifier has a value for every column of the primary key there is at most one such row.
-/

namespace WideGraph

/-- Bindings in key order of which all have one key are at most one. -/
theorem Bindings.length_le_one {κ α : Type} [Ord κ] (hself : ∀ k : κ, compare k k = .eq)
    {bindings : List (κ × α)} (hincreasing : Increasing bindings)
    (hsame : ∀ a ∈ bindings, ∀ b ∈ bindings, a.1 = b.1) : bindings.length ≤ 1 := by
  rcases bindings with _ | ⟨first, _ | ⟨second, rest⟩⟩
  · exact Nat.zero_le 1
  · exact Nat.le_refl 1
  · have hlt := List.rel_of_pairwise_cons hincreasing (List.mem_cons_self (a := second))
    rw [hsame first (by simp) second (by simp), hself] at hlt
    cases hlt

namespace StoredTable

/-- A fitting row has key values if they are its values. -/
theorem hasKey_iff_valueOf {d : TableDefinition} {row : StoredRow} (hrow : row.cells.Fits d)
    {key : List (Column × Value)} (hkey : ∀ part ∈ key, GraphTable.FitsAsIs d part) :
    hasKey row.cells.find? key = true ↔ ∀ part ∈ key, row.valueOf part.1 = part.2 := by
  rw [hasKey, List.all_eq_true]
  refine forall₂_congr fun part hpart => ?_
  obtain ⟨type, -, hbind, hnull⟩ := hkey part hpart
  rw [← same_filled hrow part.1 (ColumnType.storable_of_bind hbind) hnull,
    Value.same_iff (ColumnType.storable_of_bind hbind) (StoredRow.storable_valueOf hrow part.1),
    eq_comm]

/-- A row has the key of another that has values for the whole primary key if it has them, too. -/
theorem keyIn_eq_iff_hasKey {d : TableDefinition} {row other : StoredRow}
    (hrow : row.cells.Fits d) (hother : other.cells.Fits d) {key : List (Column × Value)}
    (hkey : ∀ part ∈ key, GraphTable.FitsAsIs d part)
    (hcover : ∀ column, d.isPrimaryKey column = true ↔ column ∈ key.map (·.1))
    (hotherHas : hasKey other.cells.find? key = true) :
    row.keyIn d = other.keyIn d ↔ hasKey row.cells.find? key = true := by
  rw [hasKey_iff_valueOf hother hkey] at hotherHas
  rw [hasKey_iff_valueOf hrow hkey, StoredRow.keyIn_eq_iff]
  simp only [hcover, List.forall_mem_map]
  exact forall₂_congr fun part hpart => by rw [hotherHas part hpart]

/-- The cells of the row that has certain key values, none if there is no such row. -/
def cellsAt (table : StoredTable) (key : List (Column × Value)) : ColumnValues :=
  ((table.rows.find? fun entry => hasKey entry.2.cells.find? key).map (·.2.cells)).getD .empty

section WholeKey

variable {table : StoredTable} (hcoherent : table.Coherent) {key : List (Column × Value)}
  (hkey : ∀ part ∈ key, GraphTable.FitsAsIs table.definition part)
  (hcover : ∀ column, table.definition.isPrimaryKey column = true ↔ column ∈ key.map (·.1))

include hcoherent hkey hcover

/-- At most one row of a coherent table has values for the whole primary key. -/
theorem length_filter_hasKey :
    (table.rows.filter fun entry => hasKey entry.2.cells.find? key).length ≤ 1 := by
  refine Bindings.length_le_one RowKey.order_self
    (Bindings.increasing_filter _ hcoherent.increasing) fun a ha b hb => ?_
  obtain ⟨harow, hahas⟩ := List.mem_filter.mp ha
  obtain ⟨hbrow, hbhas⟩ := List.mem_filter.mp hb
  have ha := hcoherent.rows a harow
  have hb := hcoherent.rows b hbrow
  rw [ha.key_eq, hb.key_eq]
  exact (keyIn_eq_iff_hasKey ha.fits hb.fits hkey hcover hbhas).mpr hahas

/-- A row that has values for the whole primary key is the only one. -/
theorem filter_hasKey_eq_singleton {entry : RowKey × StoredRow} (hentry : entry ∈ table.rows)
    (hhas : hasKey entry.2.cells.find? key = true) :
    (table.rows.filter fun entry => hasKey entry.2.cells.find? key) = [entry] := by
  have hmem : entry ∈ table.rows.filter fun entry => hasKey entry.2.cells.find? key :=
    List.mem_filter.mpr ⟨hentry, hhas⟩
  have hlength := length_filter_hasKey hcoherent hkey hcover
  obtain ⟨only, honly⟩ := List.length_eq_one_iff.mp
    (Nat.le_antisymm hlength (List.length_pos_of_mem hmem))
  rw [honly, List.mem_singleton] at hmem
  rw [honly, hmem]

/-- The cells at the values of a whole key are those of the row that is kept under the key. -/
theorem cellsAt_eq {other : StoredRow} (hother : other.cells.Fits table.definition)
    (hhas : hasKey other.cells.find? key = true) :
    table.cellsAt key =
      ((Bindings.find? (other.keyIn table.definition) table.rows).getD {}).cells := by
  have hlookup := Bindings.find?_eq_some_iff_mem RowKey.compare_lawfulOn hcoherent.increasing
    hcoherent.keysSatisfy (StoredRow.storable_keyIn hother table.definition)
  rw [cellsAt, ← List.head?_filter]
  cases hfound : Bindings.find? (other.keyIn table.definition) table.rows with
  | some row =>
    have hmem := (hlookup row).mp hfound
    have hrow := hcoherent.rows _ hmem
    rw [filter_hasKey_eq_singleton hcoherent hkey hcover hmem
      ((keyIn_eq_iff_hasKey hrow.fits hother hkey hcover hhas).mp hrow.key_eq.symm)]
    rfl
  | none =>
    rw [List.filter_eq_nil_iff.mpr]
    · rfl
    · intro entry hentry hentryHas
      have hrow := hcoherent.rows entry hentry
      have hsame := (keyIn_eq_iff_hasKey hrow.fits hother hkey hcover hhas).mpr hentryHas
      rw [← hrow.key_eq] at hsame
      rw [(hlookup entry.2).mpr (hsame ▸ hentry)] at hfound
      cases hfound

end WholeKey

section KeyClauses

variable {table : StoredTable} {column : Column} {type : ColumnType}

/-- A restriction of a key column needs no filtering. -/
theorem checkLeaf_of_primary (htype : table.definition.typeOf? column = some type)
    (hprimary : table.definition.isPrimaryKey column = true) (allowed : Bool) :
    (∀ value, table.checkLeaf allowed (Clause.eq column.nativeName value) = .ok ()) ∧
      ∀ values, table.checkLeaf allowed (.isIn column.nativeName values) = .ok () := by
  have hresolve := TableDefinition.resolve_nativeName htype
  constructor <;>
  · intro value
    simp [Clause.eq, checkLeaf, hresolve, hprimary, requireAccess, bind, Except.bind]

/-- An equality with a value that fits its column is decided. -/
theorem exists_rowMatches_eq {part : Column × Value}
    (hfits : GraphTable.FitsAsIs table.definition part) (key : RowKey) (row : StoredRow) :
    ∃ b, table.rowMatches key row (Clause.eq part.1.nativeName part.2) = .ok b := by
  obtain ⟨type, htype, hbind, -⟩ := hfits
  have hresolve := TableDefinition.resolve_nativeName htype
  exact ⟨_, rowMatches_compare_eq_ok_iff.mpr ⟨_, _, _, hresolve, hbind, rfl⟩⟩

/-- Alternatives that fit their column are decided. -/
theorem exists_rowMatches_isIn (htype : table.definition.typeOf? column = some type)
    {values : List Value} (hvalues : ∀ value ∈ values, type.bind value = .ok value) (key : RowKey)
    (row : StoredRow) : ∃ b, table.rowMatches key row (.isIn column.nativeName values) = .ok b := by
  have hresolve := TableDefinition.resolve_nativeName htype
  obtain ⟨b, hb⟩ := exists_isAmong (row.valueOf column) fun value h => ⟨value, hvalues value h⟩
  exact ⟨b, rowMatches_isIn_eq_ok_iff.mpr ⟨_, _, hresolve, hb⟩⟩

end KeyClauses

end StoredTable

namespace ElementKind

/-- The columns into which identifiers decode are part of the primary key. -/
theorem isPrimaryKey_idColumns (kind : ElementKind) :
    ∀ column ∈ kind.idColumns, kind.layout.isPrimaryKey column = true := by
  cases kind <;> decide

/-- Except for index labels, identifiers decode into the whole primary key. -/
theorem isPrimaryKey_iff_mem_idColumns {kind : ElementKind} (h : kind ≠ .indexLabel)
    (column : Column) : kind.layout.isPrimaryKey column = true ↔ column ∈ kind.idColumns := by
  have hcolumns : kind.layout.partitionColumns ++ kind.layout.clusteringColumns =
      kind.idColumns := by
    cases kind <;> first | rfl | exact absurd rfl h
  simp [TableDefinition.isPrimaryKey, TableDefinition.isPartitionKey,
    TableDefinition.isClusteringKey, ← hcolumns]

end ElementKind

namespace GraphTable

variable {table : GraphTable} {stored : StoredTable}

/-- Except for index labels, identifiers stand for values of the whole primary key. -/
theorem IsIdKey.isPrimaryKey_iff {key : List (Column × Value)} (hkey : table.IsIdKey key)
    (hkind : table.kind ≠ .indexLabel) (column : Column) :
    table.definition.isPrimaryKey column = true ↔ column ∈ key.map (·.1) := by
  rw [hkey.columns_eq]
  exact ElementKind.isPrimaryKey_iff_mem_idColumns hkind column

/-- The select for one key passes the check, and it decides every row. -/
theorem keyedSelects_decided {key : List (Column × Value)} (hkey : table.IsIdKey key)
    (hdefinition : stored.definition = table.definition) (base : Select) :
    ∃ clauses, table.keyedSelects base [key] = [{ base with clauses }] ∧
      stored.checkLeaves false (clauses.flatMap Clause.leaves) = .ok () ∧
      ∀ rowKey row, ∃ b, stored.rowMatchesAll rowKey row clauses = .ok b := by
  obtain ⟨hcolumns, hfits⟩ := hkey
  rw [← hdefinition] at hfits
  have hprimary : ∀ column ∈ table.idColumns, stored.definition.isPrimaryKey column = true := by
    rw [hdefinition]
    exact table.kind.isPrimaryKey_idColumns
  by_cases hone : ∃ column, table.idColumns = [column]
  · obtain ⟨column, hcolumn⟩ := hone
    obtain ⟨part, rfl, rfl⟩ : ∃ part, key = [part] ∧ part.1 = column := by
      rw [hcolumn] at hcolumns
      obtain ⟨part, rfl⟩ := List.length_eq_one_iff.mp
        ((List.length_map _).symm.trans (congrArg List.length hcolumns))
      exact ⟨part, rfl, List.head_eq_of_cons_eq hcolumns⟩
    obtain ⟨type, htype, hbind, -⟩ := hfits part (by simp)
    refine ⟨[.isIn part.1.nativeName [part.2]], by simp [keyedSelects, hcolumn],
      StoredTable.checkLeaves_eq_ok_iff.mpr ?_, fun rowKey row => ?_⟩
    · simpa [Clause.leaves] using (StoredTable.checkLeaf_of_primary htype
        (hprimary part.1 (by simp [hcolumn])) false).2 [part.2]
    · refine StoredTable.exists_rowMatchesAll (List.forall_mem_singleton.mpr ?_)
      exact StoredTable.exists_rowMatches_isIn htype (by simpa using hbind) rowKey row
  · refine ⟨key.map fun part : Column × Value => Clause.eq part.1.nativeName part.2,
      keyedSelects_of_not_single hone base key [],
      StoredTable.checkLeaves_eq_ok_iff.mpr ?_, fun rowKey row =>
      StoredTable.exists_rowMatchesAll ?_⟩
    · intro leaf hleaf
      obtain ⟨part, hpart, rfl⟩ : ∃ part ∈ key, leaf = Clause.eq part.1.nativeName part.2 := by
        simpa [Clause.eq, Clause.leaves] using hleaf
      obtain ⟨type, htype, -⟩ := hfits part hpart
      have hcolumn : part.1 ∈ table.idColumns := hcolumns ▸ List.mem_map_of_mem hpart
      exact (StoredTable.checkLeaf_of_primary htype (hprimary part.1 hcolumn) false).1 part.2
    · intro clause hclause
      obtain ⟨part, hpart, rfl⟩ := List.mem_map.mp hclause
      exact StoredTable.exists_rowMatches_eq (hfits part hpart) rowKey row

/-- The keys of one identifier are a group. -/
theorem keyGroups_singleton (table : GraphTable) (key : List (Column × Value)) :
    table.keyGroups [key] = [[key]] := by
  by_cases hone : ∃ column, table.idColumns = [column]
  · obtain ⟨column, hcolumn⟩ := hone
    simp only [keyGroups, hcolumn]
  · exact keyGroups_of_not_single hone key []

/-- A query for one identifier is answered with the rows that have the key values of the
identifier. -/
theorem query_withId_iff {c : Connection}
    (hstored : c.cluster.table c.session.keyspace table.name = .ok stored)
    (hdefinition : stored.definition = table.definition) (hcoherent : stored.Coherent)
    {id : Identifier} {key : List (Column × Value)} (hkey : table.idKeyValues id = .ok key)
    {entries : List Entry} :
    (table.query ((Query.all table.kind).withId id) c).1 = .ok entries ↔
      table.kind.merge ((stored.rows.filter fun entry => hasKey entry.2.cells.find? key).map
        fun entry => entry.2.entry table.kind) = .ok entries := by
  set query := (Query.all table.kind).withId id
  have hparts := isIdKey_of_idKeyValues hkey
  obtain ⟨clauses, hselects, hcheck, hdecided⟩ :=
    keyedSelects_decided hparts hdefinition (table.unlimitedBase query)
  have hgroup : table.SelectsGroup (table.unlimitedBase query)
      { table.unlimitedBase query with clauses } [key] := by
    have hgroups : List.Forall₂ (table.SelectsGroup (table.unlimitedBase query)) _ _ :=
      table.selectsGroup_keyedSelects rfl (List.forall_mem_singleton.mpr hparts)
    rw [hselects, keyGroups_singleton] at hgroups
    cases hgroups with
    | cons hfirst _ => exact hfirst
  have hselect : table.selects query = .ok [{ table := table.name, clauses }] := by
    refine (selects_eq_ok_iff rfl).mpr ⟨[key], [], ?_, rfl, ?_, ?_⟩
    · exact mapExcept_eq_ok_iff.mpr (.cons hkey .nil)
    · rw [hselects, List.length_singleton]
      omega
    · rw [hselects]
      simp [restrict, unlimitedBase, query, Query.withId, Query.all]
  have htest : ∀ entry ∈ stored.rows, stored.rowMatchesAll entry.1 entry.2 clauses =
      .ok ((fun entry : RowKey × StoredRow => hasKey entry.2.cells.find? key) entry) := by
    intro entry hentry
    obtain ⟨b, hb⟩ := hdecided entry.1 entry.2
    obtain ⟨same, hsame, hmatches⟩ := hgroup
    cases hsame
    have hfits := hdefinition ▸ (hcoherent.rows entry hentry).fits
    rw [hb, hmatches stored entry.1 entry.2 b hdefinition hfits hb]
    simp [inGroup]
  rw [query_of_select hselect]
  exact answers_iff_of_test hstored hcoherent hcheck htest

end GraphTable

end WideGraph
