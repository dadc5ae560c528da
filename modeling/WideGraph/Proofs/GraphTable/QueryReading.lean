import Mathlib.Algebra.Order.BigOperators.Group.List
import Mathlib.Algebra.Order.Ring.Nat
import WideGraph.Proofs.GraphTable.Answer
import WideGraph.Proofs.GraphTable.Creation
import WideGraph.Proofs.GraphTable.Merging
import WideGraph.Proofs.GraphTable.RangeReading
import WideGraph.Proofs.Query.Compilation

/-!
# Queries read directly

The identifiers of a query name keys, and each of its selects is for one group of them: all
identifiers share a group if they decode into one column, and otherwise each has its own. The rows
behind the answer of a select are those in its group that satisfy every condition, a column without
a cell being seen as null. They are the rows that satisfy the conditions as they are unless one of
them is accepted for want of a cell.
-/

namespace WideGraph

/-- A row has the key values of an identifier. -/
def hasKey (cell? : Column → Option Value) (key : List (Column × Value)) : Bool :=
  key.all fun part => (cell? part.1).any (·.same part.2)

/-- A row has the key values of one of several identifiers. -/
def inGroup (cell? : Column → Option Value) (group : List (List (Column × Value))) : Bool :=
  group.any (hasKey cell?)

/-- Numbers that are nowhere larger than others and have the same sum are the same everywhere. -/
theorem eq_of_sum_eq {α : Type} {f g : α → Nat} {items : List α} (hle : ∀ a ∈ items, f a ≤ g a)
    (hsum : (items.map f).sum = (items.map g).sum) : ∀ a ∈ items, f a = g a := by
  induction items with
  | nil => simp
  | cons a rest ih =>
    obtain ⟨hfirst, hrest⟩ := List.forall_mem_cons.mp hle
    have hmore := List.sum_le_sum hrest
    simp only [List.map_cons, List.sum_cons] at hsum
    exact List.forall_mem_cons.mpr ⟨by omega, ih hrest (by omega)⟩

/-- The rows behind an entry: for edges those below it, otherwise its own. -/
def Entry.rowsBehind (kind : ElementKind) (entry : Entry) : List ColumnValues :=
  if kind = .edge then entry.subRows.map (·.columns) else [entry.row.columns]

namespace GraphTable

/-- The groups of keys for each of which a query has a select. A query without identifiers has one
group, to which every row belongs. -/
def keyGroups (table : GraphTable) (keys : List (List (Column × Value))) :
    List (List (List (Column × Value))) :=
  match keys, table.idColumns with
  | [], _ => [[[]]]
  | keys, [_] => [keys]
  | keys, _ => keys.map fun key => [key]

/-- A key value fits its column as it is. -/
def FitsAsIs (d : TableDefinition) (part : Column × Value) : Prop :=
  ∃ type, d.typeOf? part.1 = some type ∧ type.bind part.2 = .ok part.2 ∧
    part.2.isNull = false

/-- Each column into which identifiers decode is declared. -/
theorem typeOf?_idColumns (kind : ElementKind) :
    ∀ column ∈ kind.idColumns, ∃ type, kind.layout.typeOf? column = some type := by
  have hdeclared : kind.idColumns.all (fun column => (kind.layout.typeOf? column).isSome) = true := by
    cases kind <;> decide
  intro column hcolumn
  exact Option.isSome_iff_exists.mp (List.all_eq_true.mp hdeclared column hcolumn)

/-- The value of a part of an identifier fits its column as it is. -/
theorem fitsAsIs_of_idPartValue? {table : GraphTable} {column : Column} {type : ColumnType}
    (htype : table.definition.typeOf? column = some type) {part : String} {value : Value}
    (h : table.idPartValue? column part = some value) : FitsAsIs table.definition (column, value) := by
  refine ⟨type, htype, ?_⟩
  rw [idPartValue?, htype] at h
  cases type with
  | decimal =>
    obtain ⟨x, -, rfl⟩ := Option.map_eq_some_iff.mp h
    exact ⟨rfl, rfl⟩
  | _ =>
    cases h
    exact ⟨rfl, rfl⟩

/-- The parts of an identifier have the id columns, and values that fit them as they are. -/
theorem idPartValues?_eq_some {table : GraphTable} {columns : List Column} {parts : List String}
    {key : List (Column × Value)}
    (hcolumns : ∀ column ∈ columns, ∃ type, table.definition.typeOf? column = some type)
    (h : table.idPartValues? columns parts = some key) :
    key.map (·.1) = columns ∧ ∀ part ∈ key, FitsAsIs table.definition part := by
  induction columns generalizing parts key with
  | nil =>
    cases parts with
    | nil =>
      cases h
      simp
    | cons part parts => cases h
  | cons column rest ih =>
    obtain ⟨⟨type, htype⟩, hrest⟩ := List.forall_mem_cons.mp hcolumns
    cases parts with
    | nil => cases h
    | cons part parts =>
      rw [idPartValues?] at h
      split at h
      · rename_i value more hvalue hmore
        cases h
        obtain ⟨hnames, hfits⟩ := ih hrest hmore
        exact ⟨by rw [List.map_cons, hnames],
          List.forall_mem_cons.mpr ⟨fitsAsIs_of_idPartValue? htype hvalue, hfits⟩⟩
      · cases h

/-- Key values that an identifier can stand for: one for each id column, which fits it as it is. -/
structure IsIdKey (table : GraphTable) (key : List (Column × Value)) : Prop where
  columns_eq : key.map (·.1) = table.idColumns
  fits : ∀ part ∈ key, FitsAsIs table.definition part

/-- An identifier decodes into key values that it can stand for. -/
theorem isIdKey_of_idKeyValues {table : GraphTable} {id : Identifier} {key : List (Column × Value)}
    (h : table.idKeyValues id = .ok key) : table.IsIdKey key := by
  rw [idKeyValues] at h
  split at h
  · rename_i values hvalues
    cases h
    obtain ⟨hcolumns, hfits⟩ := idPartValues?_eq_some (typeOf?_idColumns table.kind) hvalues
    exact ⟨hcolumns, hfits⟩
  · cases h

end GraphTable

namespace StoredTable

/-- A value that is not null is the same as what is seen in a column, missing cells filled with
nulls, if there is a cell and the cell is the same. -/
theorem same_valueOf (row : StoredRow) (column : Column) {value : Value}
    (hvalue : value.isNull = false) :
    (!(row.valueOf column).isNull && (row.valueOf column).same value) =
      (row.cells.find? column).any (·.same value) := by
  rw [StoredRow.valueOf]
  cases row.cells.find? column with
  | none => rfl
  | some cell =>
    cases cell with
    | null => cases value <;> first | rfl | cases hvalue
    | _ => rfl

/-- An equality with a key value is decided by the cell. -/
theorem eq_of_rowMatches_eq {table : StoredTable} {key : RowKey} {row : StoredRow}
    {part : Column × Value} (hfits : GraphTable.FitsAsIs table.definition part) {b : Bool}
    (h : table.rowMatches key row (Clause.eq part.1.nativeName part.2) = .ok b) :
    b = (row.cells.find? part.1).any (·.same part.2) := by
  obtain ⟨type, htype, hbind, hnull⟩ := hfits
  have hresolve := TableDefinition.resolve_nativeName htype
  obtain ⟨column, found, bound, hfound, hbound, rfl⟩ := rowMatches_compare_eq_ok_iff.mp h
  rw [hresolve, Except.ok.injEq, Prod.mk.injEq] at hfound
  obtain ⟨rfl, rfl⟩ := hfound
  rw [hbind, Except.ok.injEq] at hbound
  subst hbound
  rw [← same_valueOf row part.1 hnull, Value.same]
  cases (row.valueOf part.1).order part.2 <;> rfl

/-- A storable value that is not null is the same as a column with missing cells filled if the
column has a cell that is the same. -/
theorem same_filled {d : TableDefinition} {row : StoredRow} (hfits : row.cells.Fits d)
    (column : Column) {value : Value} (hstorable : value.Storable) (hnull : value.isNull = false) :
    value.same (row.valueOf column) = (row.cells.find? column).any (·.same value) := by
  rw [StoredRow.valueOf]
  cases hcell : row.cells.find? column with
  | none => cases value <;> first | rfl | cases hnull
  | some cell =>
    have hcellStorable := (hfits column cell hcell).2
    rw [Option.getD_some, Option.any_some, Bool.eq_iff_iff, Value.same_iff hstorable hcellStorable,
      Value.same_iff hcellStorable hstorable, eq_comm]

/-- Clauses behind others are only decided for the rows that match the ones before. -/
theorem eq_and_of_rowMatchesAll_append {table : StoredTable} {key : RowKey} {row : StoredRow}
    {as bs : List Clause} {p q : Bool}
    (has : ∀ b, table.rowMatchesAll key row as = .ok b → b = p)
    (hbs : ∀ b, table.rowMatchesAll key row bs = .ok b → b = q)
    {b : Bool} (h : table.rowMatchesAll key row (as ++ bs) = .ok b) : b = (p && q) := by
  induction as generalizing p with
  | nil => rw [← has true rfl, Bool.true_and, hbs b h]
  | cons clause rest ih =>
    rw [List.cons_append, rowMatchesAll] at h
    split at h
    · cases h
    · rename_i hfalse
      cases h
      rw [← has false (by rw [rowMatchesAll, hfalse]), Bool.false_and]
    · rename_i htrue
      refine ih (fun b hb => has b ?_) h
      rw [rowMatchesAll, htrue]
      exact hb

/-- A row matches an equality for each part of a key if it has the key. -/
theorem eq_hasKey_of_rowMatchesAll {table : StoredTable} {rowKey : RowKey} {row : StoredRow}
    {key : List (Column × Value)}
    (hfits : ∀ part ∈ key, GraphTable.FitsAsIs table.definition part) {b : Bool}
    (h : table.rowMatchesAll rowKey row (key.map fun part =>
      Clause.eq part.1.nativeName part.2) = .ok b) : b = hasKey row.cells.find? key := by
  refine eq_all_of_rowMatchesAll ?_ h
  rw [List.forall₂_map_left_iff, List.forall₂_same]
  exact fun part hpart b hb => eq_of_rowMatches_eq (hfits part hpart) hb

/-- A row has a key of one column if the key's value is the same as what is seen in the column. -/
theorem any_same_eq_hasKey {d : TableDefinition} {row : StoredRow} (hrow : row.cells.Fits d)
    {column : Column} {type : ColumnType} (htype : d.typeOf? column = some type)
    {key : List (Column × Value)} (hcolumns : key.map (·.1) = [column])
    (hfits : ∀ part ∈ key, GraphTable.FitsAsIs d part) :
    (key.any fun part => type.boundPasses part.2 fun bound => bound.same (row.valueOf column)) =
      hasKey row.cells.find? key := by
  cases key with
  | nil => cases hcolumns
  | cons part rest =>
    rw [List.map_cons, List.cons.injEq, List.map_eq_nil_iff] at hcolumns
    obtain ⟨rfl, rfl⟩ := hcolumns
    obtain ⟨type', htype', hbind, hnull⟩ := hfits part (by simp)
    rw [htype, Option.some.injEq] at htype'
    subst htype'
    have hsame := same_filled hrow part.1 (ColumnType.storable_of_bind hbind) hnull
    simp only [List.any_cons, List.any_nil, Bool.or_false, hasKey, List.all_cons, List.all_nil,
      Bool.and_true, ColumnType.boundPasses, hbind, hsame]

/-- A row matches alternatives for one column if it has one of the keys that they are from. -/
theorem eq_inGroup_of_rowMatches_isIn {table : StoredTable} {rowKey : RowKey} {row : StoredRow}
    (hrow : row.cells.Fits table.definition) {column : Column} {type : ColumnType}
    (htype : table.definition.typeOf? column = some type) {keys : List (List (Column × Value))}
    (hkeys : ∀ key ∈ keys, key.map (·.1) = [column] ∧
      ∀ part ∈ key, GraphTable.FitsAsIs table.definition part)
    {b : Bool}
    (h : table.rowMatches rowKey row (.isIn column.nativeName (keys.flatten.map (·.2))) = .ok b) :
    b = inGroup row.cells.find? keys := by
  have hresolve := TableDefinition.resolve_nativeName htype
  obtain ⟨found, foundType, hfound, hamong⟩ := rowMatches_isIn_eq_ok_iff.mp h
  rw [hresolve, Except.ok.injEq, Prod.mk.injEq] at hfound
  obtain ⟨rfl, rfl⟩ := hfound
  rw [eq_any_of_isAmong hamong, List.any_map, List.any_flatten, inGroup]
  clear h hamong
  induction keys with
  | nil => rfl
  | cons key rest ih =>
    obtain ⟨⟨hcolumns, hfits⟩, hrest⟩ := List.forall_mem_cons.mp hkeys
    rw [List.any_cons, List.any_cons, ih hrest, ← any_same_eq_hasKey hrow htype hcolumns hfits]
    rfl

end StoredTable

namespace GraphTable

/-- Identifiers decode into key values that they can stand for. -/
theorem isIdKey_of_mapExcept {table : GraphTable} {ids : List Identifier}
    {keys : List (List (Column × Value))} (h : mapExcept table.idKeyValues ids = .ok keys) :
    ∀ key ∈ keys, table.IsIdKey key := by
  intro key hkey
  obtain ⟨id, -, hid⟩ := exists_mem_of_forall₂ (mapExcept_eq_ok_iff.mp h) hkey
  exact isIdKey_of_idKeyValues hid

/-- A select restricts a base select to a group of keys: a row for which its clauses are decided
matches them if it is in the group. -/
def SelectsGroup (table : GraphTable) (base select : Select)
    (group : List (List (Column × Value))) : Prop :=
  ∃ clauses, select = { base with clauses } ∧
    ∀ (stored : StoredTable) (rowKey : RowKey) (row : StoredRow) (b : Bool),
      stored.definition = table.definition → row.cells.Fits table.definition →
      stored.rowMatchesAll rowKey row clauses = .ok b → b = inGroup row.cells.find? group

/-- Without a single id column there is a select for each key. -/
theorem keyedSelects_of_not_single {table : GraphTable}
    (h : ¬ ∃ column, table.idColumns = [column]) (base : Select) (key : List (Column × Value))
    (rest : List (List (Column × Value))) :
    table.keyedSelects base (key :: rest) = (key :: rest).map fun key =>
      { base with clauses := key.map fun part => Clause.eq part.1.nativeName part.2 } := by
  rw [keyedSelects.eq_def]
  split
  · rename_i heq
    cases heq
  · rename_i column hcolumns _
    exact absurd ⟨column, hcolumns⟩ h
  · rfl

/-- Without a single id column every key is a group of its own. -/
theorem keyGroups_of_not_single {table : GraphTable}
    (h : ¬ ∃ column, table.idColumns = [column]) (key : List (Column × Value))
    (rest : List (List (Column × Value))) :
    table.keyGroups (key :: rest) = (key :: rest).map fun key => [key] := by
  rw [keyGroups.eq_def]
  split
  · rename_i heq
    cases heq
  · rename_i column hcolumns _
    exact absurd ⟨column, hcolumns⟩ h
  · rfl

/-- The selects of a query are for its groups of keys. -/
theorem selectsGroup_keyedSelects (table : GraphTable) {base : Select} (hbase : base.clauses = [])
    {keys : List (List (Column × Value))} (hkeys : ∀ key ∈ keys, table.IsIdKey key) :
    List.Forall₂ (table.SelectsGroup base) (table.keyedSelects base keys)
      (table.keyGroups keys) := by
  cases keys with
  | nil =>
    refine .cons ⟨[], by rw [← hbase], ?_⟩ .nil
    intro stored rowKey row b _ _ h
    cases h
    rfl
  | cons key rest =>
    by_cases hone : ∃ column, table.idColumns = [column]
    · obtain ⟨column, hcolumns⟩ := hone
      obtain ⟨type, htype⟩ := typeOf?_idColumns table.kind column (by
        change column ∈ table.idColumns
        rw [hcolumns]
        exact List.mem_singleton_self column)
      simp only [keyedSelects, keyGroups, hcolumns]
      refine .cons ⟨_, rfl, ?_⟩ .nil
      intro stored rowKey row b hdefinition hrow h
      have hdeclared : stored.definition.typeOf? column = some type := hdefinition ▸ htype
      rw [← hdefinition] at hrow
      have hparts : ∀ key' ∈ key :: rest, key'.map (·.1) = [column] ∧
          ∀ part ∈ key', FitsAsIs stored.definition part := fun key' hkey' =>
        ⟨(hkeys key' hkey').columns_eq.trans hcolumns, hdefinition ▸ (hkeys key' hkey').fits⟩
      have hall : b = [key :: rest].all (inGroup row.cells.find?) :=
        StoredTable.eq_all_of_rowMatchesAll (.cons (fun b hb =>
          StoredTable.eq_inGroup_of_rowMatches_isIn hrow hdeclared hparts hb) .nil) h
      rwa [List.all_cons, List.all_nil, Bool.and_true] at hall
    · rw [keyedSelects_of_not_single hone, keyGroups_of_not_single hone, List.forall₂_map_left_iff,
        List.forall₂_map_right_iff, List.forall₂_same]
      intro key hkey
      refine ⟨_, rfl, ?_⟩
      intro stored rowKey row b hdefinition _ h
      rw [inGroup, List.any_cons, List.any_nil, Bool.or_false]
      refine StoredTable.eq_hasKey_of_rowMatchesAll ?_ h
      rw [hdefinition]
      exact (hkeys key hkey).fits

/-- A compiled condition has the clause of the condition. -/
theorem toClause_of_compile {condition : Condition} {columns : List String}
    {compiled : CompiledCondition} (h : condition.compile columns = .ok compiled) :
    condition.toClause columns = .ok compiled.clause :=
  (Condition.compile_eq_ok_iff.mp h).2.1

/-- A row for which the clauses of compiled conditions are decided matches them if every condition
holds of it, missing cells being seen as null. -/
theorem eq_all_holds_of_rowMatchesAll {conditions : List Condition} {columns : List String}
    {compiled : List CompiledCondition}
    (hcompiled : mapExcept (·.compile columns) conditions = .ok compiled) {stored : StoredTable}
    {key : RowKey} {row : StoredRow} {b : Bool}
    (h : stored.rowMatchesAll key row (compiled.map (·.clause)) = .ok b) :
    b = conditions.all (·.holds stored.definition key.token row.filled) := by
  refine StoredTable.eq_all_of_rowMatchesAll ?_ h
  rw [List.forall₂_map_left_iff]
  refine (List.Forall₂.flip (mapExcept_eq_ok_iff.mp hcompiled)).imp fun c condition hcompile b hb => ?_
  exact StoredTable.eq_holds_of_rowMatches (toClause_of_compile hcompile) hb

/-- The rows of a table that are in a group of keys and of which every condition holds, with the
columns of a row seen in a certain way. -/
def selectedRows (stored : StoredTable) (view : StoredRow → Column → Option Value)
    (conditions : List Condition) (group : List (List (Column × Value))) :
    List (RowKey × StoredRow) :=
  stored.rows.filter fun entry => inGroup entry.2.cells.find? group &&
    conditions.all (·.holds stored.definition entry.1.token (view entry.2))

/-- The select for a group of keys answers with the rows in the group of which every condition
holds, missing cells being seen as null, or with the first of them in some order if it has a
limit. -/
theorem merge_of_answers {table : GraphTable} {stored : StoredTable} {cluster : Cluster}
    {keyspace : String} (hstored : cluster.table keyspace table.name = .ok stored)
    (hdefinition : stored.definition = table.definition) (hcoherent : stored.Coherent)
    {base select : Select} (hbase : base.table = table.name)
    {group : List (List (Column × Value))} (hselect : table.SelectsGroup base select group)
    {conditions : List Condition} {compiled : List CompiledCondition} {columns : List String}
    (hcompiled : mapExcept (·.compile columns) conditions = .ok compiled)
    {kind : ElementKind} {part : List Entry}
    (h : table.Answers cluster keyspace kind (restrict select compiled) part) :
    ∃ rows : List StoredRow, table.kind.merge ((StoredTable.takeLimit base.limit rows).map
        (StoredRow.entry kind)) = .ok part ∧
      rows.Perm ((selectedRows stored StoredRow.filled conditions group).map (·.2)) := by
  obtain ⟨clauses, rfl, hgroup⟩ := hselect
  obtain ⟨answer, hread, hentries⟩ := h
  have hnamed : cluster.table keyspace (restrict { base with clauses } compiled).table =
      .ok stored := by
    rw [← hstored, ← hbase]
    rfl
  rw [Cluster.read_of_table hnamed, StoredTable.select_eq_ok_iff] at hread
  obtain ⟨-, hits, orders, hhits, -, rfl⟩ := hread
  have hevaluated := StoredTable.evaluated_of_matchingRows hhits
  have htest : ∀ entry ∈ stored.rows, stored.rowMatchesAll entry.1 entry.2
      (clauses ++ compiled.map (·.clause)) = .ok (inGroup entry.2.cells.find? group &&
        conditions.all (·.holds stored.definition entry.1.token entry.2.filled)) := by
    intro entry hentry
    obtain ⟨b, hb⟩ := hevaluated entry hentry
    change stored.rowMatchesAll entry.1 entry.2 (clauses ++ compiled.map (·.clause)) = .ok b at hb
    have hfits := (hcoherent.rows entry hentry).fits
    rw [hb, StoredTable.eq_and_of_rowMatchesAll_append
      (fun b h => hgroup stored entry.1 entry.2 b hdefinition (hdefinition ▸ hfits) h)
      (fun b h => eq_all_holds_of_rowMatchesAll hcompiled h) hb]
  have hfiltered := StoredTable.matchingRows_eq_filter _ htest
  change stored.matchingRows (clauses ++ compiled.map (·.clause)) stored.rows = .ok hits at hhits
  rw [hhits, Except.ok.injEq] at hfiltered
  have hperm := sortStable_perm (fun a b => StoredTable.compareRows a b orders) hits
  refine ⟨sortStable (fun a b => StoredTable.compareRows a b orders) hits, ?_, ?_⟩
  · change table.entriesOfRows kind ((StoredTable.takeLimit base.limit
      (sortStable (fun a b => StoredTable.compareRows a b orders) hits)).map stored.project) =
        .ok part at hentries
    rwa [entriesOfRows_project table kind] at hentries
    intro row hrow
    have hrow := (StoredTable.takeLimit_sublist _ _).subset hrow
    rw [hperm.mem_iff, hfiltered] at hrow
    obtain ⟨entry, hentry, rfl⟩ := List.mem_map.mp hrow
    exact (hcoherent.rows entry (List.mem_filter.mp hentry).1).fits
  · rw [hfiltered] at hperm ⊢
    exact hperm

end GraphTable

/-- The rows behind gathered entries are the rows that were gathered. -/
theorem rowsBehind_merge {kind rowKind : ElementKind} {rows : List StoredRow} {part : List Entry}
    (h : kind.merge (rows.map (StoredRow.entry rowKind)) = .ok part) :
    (part.flatMap (Entry.rowsBehind kind)).Perm (rows.map (·.cells)) := by
  by_cases hkind : kind = .edge
  · subst hkind
    have hperm := (subRows_mergeEdges h).map fun row : EntryRow => row.columns
    rw [List.flatMap_nil, List.nil_append, List.map_map, List.map_map, List.map_flatMap] at hperm
    exact hperm
  · obtain ⟨f, hf, hcolumns⟩ : ∃ f : Entry → Entry, (∀ es, kind.merge es = .ok (es.map f)) ∧
        ∀ e, (f e).row.columns = e.row.columns := by
      cases kind with
      | vertex =>
        refine ⟨Entry.withVertexId, fun _ => rfl, fun e => ?_⟩
        rw [Entry.withVertexId]
        split <;> rfl
      | edge => exact absurd rfl hkind
      | _ => exact ⟨id, fun es => by rw [List.map_id]; rfl, fun _ => rfl⟩
    rw [hf, Except.ok.injEq, List.map_map] at h
    subst h
    have hbehind : Entry.rowsBehind kind = fun entry => [entry.row.columns] := by
      funext entry
      rw [Entry.rowsBehind, if_neg hkind]
    have hrow : (fun row => [((f ∘ StoredRow.entry rowKind) row).row.columns]) =
        fun row : StoredRow => [row.cells] := by
      funext row
      exact congrArg (fun columns => [columns]) (hcolumns _)
    rw [hbehind, List.flatMap_map, hrow, List.map_eq_flatMap]

namespace GraphTable

/-- The entries of an answer lie behind each other in parts, one for each group of keys. The rows
behind a part are, each once, the rows in its group of which every condition holds, with the columns
of a row seen in a certain way. -/
def ReadAs (table : GraphTable) (stored : StoredTable) (view : StoredRow → Column → Option Value)
    (query : Query) (keys : List (List (Column × Value))) (entries : List Entry) : Prop :=
  ∃ parts, entries = parts.flatten ∧ List.Forall₂ (fun group part =>
    (part.flatMap (Entry.rowsBehind table.kind)).Perm
      ((selectedRows stored view query.conditions group).map (·.2.cells)))
    (table.keyGroups keys) parts

/-- There are as many rows behind an answer as its groups select. -/
theorem ReadAs.length_rowsBehind {table : GraphTable} {stored : StoredTable}
    {view : StoredRow → Column → Option Value} {query : Query}
    {keys : List (List (Column × Value))} {entries : List Entry}
    (h : table.ReadAs stored view query keys entries) :
    (entries.flatMap (Entry.rowsBehind table.kind)).length =
      ((table.keyGroups keys).map fun group =>
        (selectedRows stored view query.conditions group).length).sum := by
  obtain ⟨parts, rfl, hparts⟩ := h
  generalize table.keyGroups keys = groups at hparts ⊢
  induction hparts with
  | nil => rfl
  | cons hfirst _ ih =>
    rw [List.flatten_cons, List.flatMap_append, List.length_append, ih, hfirst.length_eq,
      List.length_map, List.map_cons, List.sum_cons]

/-- A query without limit is answered with the rows of its groups that satisfy its conditions,
missing cells being seen as null. -/
theorem readAs_filled {table : GraphTable} {stored : StoredTable} {c : Connection}
    (hstored : c.cluster.table c.session.keyspace table.name = .ok stored)
    (hdefinition : stored.definition = table.definition) (hcoherent : stored.Coherent)
    {query : Query} (hlimit : query.hasLimit = false) {entries : List Entry}
    (hquery : (table.query query c).1 = .ok entries) :
    ∃ keys compiled, mapExcept table.idKeyValues query.ids = .ok keys ∧
      mapExcept (·.compile table.definition.partitionNames) query.conditions = .ok compiled ∧
      table.ReadAs stored StoredRow.filled query keys entries := by
  obtain ⟨selects, parts, hselects, hparts, rfl⟩ := query_eq_ok_iff.mp hquery
  obtain ⟨keys, compiled, hkeys, hcompiled, -, rfl⟩ := (selects_eq_ok_iff hlimit).mp hselects
  refine ⟨keys, compiled, hkeys, hcompiled, parts, rfl, ?_⟩
  rw [List.forall₂_map_left_iff] at hparts
  have hgroups : List.Forall₂ (table.SelectsGroup (table.unlimitedBase query))
      (table.keyedSelects (table.unlimitedBase query) keys) (table.keyGroups keys) :=
    table.selectsGroup_keyedSelects rfl (isIdKey_of_mapExcept hkeys)
  refine forall₂_join hgroups hparts fun select group part hselect hanswers => ?_
  obtain ⟨rows, hmerge, hperm⟩ :=
    merge_of_answers hstored hdefinition hcoherent rfl hselect hcompiled hanswers
  have hrows := hperm.map StoredRow.cells
  rw [List.map_map] at hrows
  exact (rowsBehind_merge hmerge).trans hrows

/-- The rows selected with missing cells seen as missing are those selected with missing cells seen
as null of which the conditions hold as they are. -/
theorem selectedRows_present {stored : StoredTable} {conditions : List Condition}
    {columns : List String} (hclauses : ∀ condition ∈ conditions, ∃ clause,
      condition.toClause columns = .ok clause) (group : List (List (Column × Value))) :
    selectedRows stored (fun row => row.cells.find?) conditions group =
      (selectedRows stored StoredRow.filled conditions group).filter fun entry =>
        conditions.all (·.holds stored.definition entry.1.token entry.2.cells.find?) := by
  rw [selectedRows, selectedRows, List.filter_filter]
  refine List.filter_congr fun entry _ => ?_
  have hfilled : conditions.all (·.holds stored.definition entry.1.token entry.2.cells.find?) =
      true → conditions.all (·.holds stored.definition entry.1.token entry.2.filled) = true := by
    simp only [List.all_eq_true]
    intro hall condition hcondition
    obtain ⟨clause, hclause⟩ := hclauses condition hcondition
    exact StoredRow.filled_of_holds _ _ _ hclause (hall condition hcondition)
  cases hpresent : conditions.all (·.holds stored.definition entry.1.token entry.2.cells.find?) with
  | false => simp
  | true => simp [hfilled hpresent]

/-- A selected row satisfies the conditions as it is if no relation accepts it for want of a
cell. -/
theorem all_holds_iff_of_selected {stored : StoredTable} {conditions : List Condition}
    {columns : List String} (hclauses : ∀ condition ∈ conditions, ∃ clause,
      condition.toClause columns = .ok clause) {group : List (List (Column × Value))}
    {entry : RowKey × StoredRow}
    (hentry : entry ∈ selectedRows stored StoredRow.filled conditions group) :
    conditions.all (·.holds stored.definition entry.1.token entry.2.cells.find?) = true ↔
      ∀ condition ∈ conditions, ∀ r ∈ condition.relations,
        r.acceptsMissing stored.definition entry.2.cells.find? = false := by
  have hselected := (List.mem_filter.mp hentry).2
  rw [Bool.and_eq_true, List.all_eq_true] at hselected
  rw [List.all_eq_true]
  refine forall₂_congr fun condition hcondition => ?_
  obtain ⟨clause, hclause⟩ := hclauses condition hcondition
  exact StoredRow.holds_iff_of_filled _ _ _ hclause (hselected.2 condition hcondition)

/-- A query without limit is answered with the rows of its groups that satisfy its conditions once
a column without a cell is seen as null. These are the rows that satisfy the conditions read
directly exactly if none of them has no cell in the column of an `in` relation with a null among its
alternatives. -/
theorem query_reads_directly_iff (table : GraphTable) (c : Connection)
    (hreach : c.cluster.Reachable) (hkeeps : c.cluster.Keeps c.session.keyspace table.kind)
    {query : Query} (hlimit : query.hasLimit = false) {entries : List Entry}
    (hquery : (table.query query c).1 = .ok entries) :
    ∃ stored keys, c.cluster.table c.session.keyspace table.name = .ok stored ∧
      mapExcept table.idKeyValues query.ids = .ok keys ∧
      table.ReadAs stored StoredRow.filled query keys entries ∧
      (table.ReadAs stored (fun row => row.cells.find?) query keys entries ↔
        ∀ group ∈ table.keyGroups keys,
        ∀ entry ∈ selectedRows stored StoredRow.filled query.conditions group,
        ∀ condition ∈ query.conditions, ∀ r ∈ condition.relations,
          r.acceptsMissing stored.definition entry.2.cells.find? = false) := by
  obtain ⟨stored, hstored, hdefinition⟩ := hkeeps
  have hcoherent := hreach.coherent hstored
  obtain ⟨keys, compiled, hkeys, hcompiled, hread⟩ :=
    readAs_filled hstored hdefinition hcoherent hlimit hquery
  have hclauses : ∀ condition ∈ query.conditions, ∃ clause,
      condition.toClause table.definition.partitionNames = .ok clause := by
    intro condition hcondition
    obtain ⟨found, -, hfound⟩ := exists_mem_of_forall₂
      (List.Forall₂.flip (mapExcept_eq_ok_iff.mp hcompiled)) hcondition
    exact ⟨found.clause, toClause_of_compile hfound⟩
  refine ⟨stored, keys, hstored, hkeys, hread, ?_⟩
  constructor
  · intro hdirect group hgroup entry hentry
    -- Both readings give all the rows behind the answer, so that each group selects as many rows.
    have hcount := hread.length_rowsBehind.symm.trans hdirect.length_rowsBehind
    have hfewer : ∀ group ∈ table.keyGroups keys,
        (selectedRows stored (fun row => row.cells.find?) query.conditions group).length ≤
          (selectedRows stored StoredRow.filled query.conditions group).length := by
      intro group _
      rw [selectedRows_present hclauses]
      exact List.length_filter_le _ _
    have hsame := eq_of_sum_eq hfewer hcount.symm group hgroup
    rw [selectedRows_present hclauses, List.length_filter_eq_length_iff] at hsame
    exact (all_holds_iff_of_selected hclauses hentry).mp (hsame entry hentry)
  · intro hnone
    obtain ⟨parts, hentries, hparts⟩ := hread
    refine ⟨parts, hentries, ?_⟩
    refine ((List.forall₂_and_left _ _).mpr ⟨fun _ h => h, hparts⟩).imp ?_
    rintro group part ⟨hgroup, hperm⟩
    rw [selectedRows_present hclauses, List.filter_eq_self.mpr]
    · exact hperm
    · intro entry hentry
      exact (all_holds_iff_of_selected hclauses hentry).mpr (hnone group hgroup entry hentry)

/-- The query for the vertex 1 with the condition that it is at least 1. -/
def firstVertex : Query :=
  { kind := .vertex, ids := [⟨"1"⟩],
    conditions := [.relation ⟨"ID", .compare .gte, .value (.text "1")⟩] }

/-- The query for vertices with a label among alternatives of which the only one is null. -/
def labelledNull : Query :=
  { kind := .vertex, conditions := [.relation ⟨"LABEL", .isIn, .list [.value .null]⟩] }

/-- No comparison accepts the first of two vertices for want of a cell, and it alone is answered. -/
theorem query_reads_directly_iff_firstVertex :
    ∃ stored entries, toTwoVertices.cluster.table "graph" "vertices" = .ok stored ∧
      (query ⟨.vertex, {}⟩ firstVertex toTwoVertices).1 = .ok entries ∧ entries.length = 1 ∧
      ReadAs ⟨.vertex, {}⟩ stored (fun row => row.cells.find?) firstVertex
        [[(.id, .text "1")]] entries := by
  have hcount : ((query ⟨.vertex, {}⟩ firstVertex toTwoVertices).1.toOption.map (·.length)) =
      some 1 := by decide +kernel
  obtain ⟨entries, hquery, hlength⟩ := exists_ok_of_map_toOption hcount
  have hlimit : firstVertex.hasLimit = false := by decide
  obtain ⟨stored, keys, hstored, hkeys, -, hiff⟩ := query_reads_directly_iff ⟨.vertex, {}⟩
    toTwoVertices ⟨writeTwoVertices, rfl⟩ keeps_toTwoVertices hlimit hquery
  have hdecoded : mapExcept (idKeyValues ⟨.vertex, {}⟩) firstVertex.ids =
      .ok [[(Column.id, .text "1")]] := rfl
  rw [hdecoded, Except.ok.injEq] at hkeys
  subst hkeys
  refine ⟨stored, entries, hstored, hquery, hlength, hiff.mpr ?_⟩
  intro group _ entry _ condition hcondition r hr
  rw [firstVertex, List.mem_singleton] at hcondition
  subst hcondition
  rw [Condition.relations, List.mem_singleton] at hr
  subst hr
  rfl

/-- Two vertices without label are answered where a label is asked for that is among alternatives of
which the only one is null, although neither of them has a cell that could be the same as one. -/
theorem labelledNull_answers_unlabelled :
    ∃ stored entries, toTwoVertices.cluster.table "graph" "vertices" = .ok stored ∧
      (query ⟨.vertex, {}⟩ labelledNull toTwoVertices).1 = .ok entries ∧
      (entries.flatMap (Entry.rowsBehind .vertex)).length = 2 ∧
      ¬ ReadAs ⟨.vertex, {}⟩ stored (fun row => row.cells.find?) labelledNull [] entries := by
  have hanswered : ((query ⟨.vertex, {}⟩ labelledNull toTwoVertices).1.toOption.map fun entries =>
      (entries.flatMap (Entry.rowsBehind .vertex)).length) = some 2 := by decide +kernel
  have hselected : ((toTwoVertices.cluster.table "graph" "vertices").toOption.map fun stored =>
      (selectedRows stored (fun row => row.cells.find?) labelledNull.conditions [[]]).length) =
        some 0 := by decide +kernel
  obtain ⟨stored, hstored, hgroup⟩ := exists_ok_of_map_toOption hselected
  obtain ⟨entries, hquery, hrows⟩ := exists_ok_of_map_toOption hanswered
  refine ⟨stored, entries, hstored, hquery, hrows, fun hread => ?_⟩
  have hcount := hread.length_rowsBehind
  simp only [keyGroups, List.map_cons, List.map_nil, List.sum_cons, List.sum_nil] at hcount
  omega

end GraphTable

end WideGraph
