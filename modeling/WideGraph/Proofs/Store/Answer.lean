import WideGraph.Proofs.NamedColumns
import WideGraph.Proofs.Store.Coherence

/-!
# What a select answers

A select is answered if its clauses pass the check, every row that is looked at can be evaluated,
and its orders name clustering columns. The answer then lists exactly the matching rows. The rows of
a coherent table come back as entries with the same cells.
-/

namespace WideGraph

namespace StoredTable

/-- When a comparison is decided, and how. -/
theorem rowMatches_compare_eq_ok_iff {table : StoredTable} {key : RowKey} {row : StoredRow}
    {comparison : Comparison} {name : String} {value : Value} {b : Bool} :
    table.rowMatches key row (.compare comparison name value) = .ok b ↔
      ∃ column type bound, table.definition.resolve name = .ok (column, type) ∧
        type.bind value = .ok bound ∧
        b = (!(row.valueOf column).isNull &&
          comparison.accepts ((row.valueOf column).order bound)) := by
  rw [rowMatches]
  constructor
  · intro h
    obtain ⟨⟨column, type⟩, hresolve, hrest⟩ := bind_ok_iff.mp h
    obtain ⟨bound, hbind, hdecided⟩ := bind_ok_iff.mp hrest
    cases hdecided
    exact ⟨column, type, bound, hresolve, hbind, rfl⟩
  · rintro ⟨column, type, bound, hresolve, hbind, rfl⟩
    exact bind_ok_iff.mpr ⟨_, hresolve, bind_ok_iff.mpr ⟨bound, hbind, rfl⟩⟩

/-- An equality with a value that its column takes is decided by the bound form of the value. -/
theorem rowMatches_eq_of_bind {table : StoredTable} {name : String} {column : Column}
    {value bound : Value} (h : table.definition.bind name value = .ok (column, bound)) (key : RowKey)
    (row : StoredRow) :
    table.rowMatches key row (Clause.eq name value) =
      .ok (!(row.valueOf column).isNull && (row.valueOf column).same bound) := by
  obtain ⟨type, hresolve, hvalue⟩ := TableDefinition.bind_eq_ok_iff.mp h
  refine rowMatches_compare_eq_ok_iff.mpr ⟨column, type, bound, hresolve, hvalue, ?_⟩
  rw [Value.same]
  cases (row.valueOf column).order bound <;> rfl

/-- Alternatives are decided on the column that they are for. -/
theorem rowMatches_isIn_eq_ok_iff {table : StoredTable} {key : RowKey} {row : StoredRow}
    {name : String} {values : List Value} {b : Bool} :
    table.rowMatches key row (.isIn name values) = .ok b ↔
      ∃ column type, table.definition.resolve name = .ok (column, type) ∧
        isAmong type (row.valueOf column) values = .ok b := by
  rw [rowMatches, bind_ok_iff]
  exact Prod.exists

/-- Alternatives are bound up to the first that cannot be, if none ahead of it is the same. -/
theorem isAmong_eq_error_iff {type : ColumnType} {current : Value} {values : List Value}
    {e : StoreError} :
    isAmong type current values = .error e ↔ ∃ before value after,
      values = before ++ value :: after ∧
      (∀ other ∈ before, ∃ bound, type.bind other = .ok bound ∧ bound.same current = false) ∧
      type.bind value = .error e := by
  constructor
  · intro h
    induction values with
    | nil => cases h
    | cons value rest ih =>
      rw [isAmong] at h
      cases hvalue : type.bind value with
      | error found =>
        rw [hvalue] at h
        cases h
        exact ⟨[], value, rest, rfl, List.forall_mem_nil _, hvalue⟩
      | ok bound =>
        rw [hvalue] at h
        dsimp only at h
        split at h
        · cases h
        · rename_i hother
          obtain ⟨before, bad, after, rfl, hbefore, hbad⟩ := ih h
          exact ⟨value :: before, bad, after, rfl,
            List.forall_mem_cons.mpr ⟨⟨bound, hvalue, Bool.eq_false_iff.mpr hother⟩, hbefore⟩, hbad⟩
  · rintro ⟨before, value, after, rfl, hbefore, hvalue⟩
    induction before with
    | nil => rw [List.nil_append, isAmong, hvalue]
    | cons other rest ih =>
      obtain ⟨⟨bound, hother, hne⟩, hrest⟩ := List.forall_mem_cons.mp hbefore
      rw [List.cons_append, isAmong, hother]
      dsimp only
      rw [if_neg (Bool.eq_false_iff.mp hne)]
      exact ih hrest

/-- Alternatives that their column takes are decided. -/
theorem exists_isAmong {type : ColumnType} (current : Value) {values : List Value}
    (h : ∀ value ∈ values, ∃ bound, type.bind value = .ok bound) :
    ∃ b, isAmong type current values = .ok b := by
  cases hamong : isAmong type current values with
  | ok b => exact ⟨b, rfl⟩
  | error e =>
    obtain ⟨before, value, after, rfl, -, hvalue⟩ := isAmong_eq_error_iff.mp hamong
    obtain ⟨bound, hbound⟩ := h value (List.mem_append_right _ List.mem_cons_self)
    rw [hvalue] at hbound
    cases hbound

/-- The rows that match are those that are decided to, every row being decided in turn. -/
theorem matchingRows_eq_mapExcept (table : StoredTable) (clauses : List Clause)
    (rows : List (RowKey × StoredRow)) :
    table.matchingRows clauses rows =
      (mapExcept (fun entry => table.rowMatchesAll entry.1 entry.2 clauses) rows).map fun decided =>
        ((rows.zip decided).filter (·.2)).map (·.1.2) := by
  induction rows with
  | nil => rfl
  | cons entry rest ih =>
    obtain ⟨key, row⟩ := entry
    rw [matchingRows, mapExcept, ih]
    generalize mapExcept (fun entry => table.rowMatchesAll entry.1 entry.2 clauses) rest = decided
    rcases table.rowMatchesAll key row clauses with e | _ | _
    · rfl
    · cases decided <;> rfl
    · cases decided <;> rfl

/-- Clauses that decide every row alike match the same rows. -/
theorem matchingRows_congr (table : StoredTable) {as bs : List Clause}
    (h : ∀ key row, table.rowMatchesAll key row as = table.rowMatchesAll key row bs)
    (rows : List (RowKey × StoredRow)) : table.matchingRows as rows = table.matchingRows bs rows := by
  simp only [matchingRows_eq_mapExcept, h]

/-- If rows were matched then every one of them could be evaluated. -/
theorem evaluated_of_matchingRows {table : StoredTable} {clauses : List Clause}
    {rows : List (RowKey × StoredRow)} {hits : List StoredRow}
    (h : table.matchingRows clauses rows = .ok hits) :
    ∀ entry ∈ rows, ∃ b, table.rowMatchesAll entry.1 entry.2 clauses = .ok b := by
  rw [matchingRows_eq_mapExcept] at h
  obtain ⟨decided, hdecided, -⟩ := map_ok_iff.mp h
  exact exists_mapExcept_iff.mp ⟨decided, hdecided⟩

/-- If clauses are decided for a row, it matches all of them if every one is decided to hold. -/
theorem eq_all_of_rowMatchesAll {table : StoredTable} {key : RowKey} {row : StoredRow} {α : Type}
    {clauses : List Clause} {items : List α} {test : α → Bool}
    (htest : List.Forall₂ (fun clause item => ∀ b, table.rowMatches key row clause = .ok b →
      b = test item) clauses items)
    {b : Bool} (h : table.rowMatchesAll key row clauses = .ok b) : b = items.all test := by
  induction htest with
  | nil =>
    cases h
    rfl
  | cons hclause _ ih =>
    rw [rowMatchesAll] at h
    rw [List.all_cons]
    split at h
    · cases h
    · rename_i hfalse
      cases h
      rw [← hclause _ hfalse, Bool.false_and]
    · rename_i htrue
      rw [← hclause _ htrue, Bool.true_and]
      exact ih h

/-- A row is decided for clauses if it is for each of them. -/
theorem exists_rowMatchesAll {table : StoredTable} {key : RowKey} {row : StoredRow}
    {clauses : List Clause} (h : ∀ clause ∈ clauses, ∃ b, table.rowMatches key row clause = .ok b) :
    ∃ b, table.rowMatchesAll key row clauses = .ok b := by
  induction clauses with
  | nil => exact ⟨true, rfl⟩
  | cons clause rest ih =>
    obtain ⟨⟨b, hclause⟩, hrest⟩ := List.forall_mem_cons.mp h
    rw [rowMatchesAll, hclause]
    cases b with
    | false => exact ⟨false, rfl⟩
    | true => exact ih hrest

/-- Clauses that are decided one by one match a row if every one of them holds. -/
theorem rowMatchesAll_eq_all {table : StoredTable} {key : RowKey} {row : StoredRow} {α : Type}
    {clauses : List Clause} {items : List α} {test : α → Bool}
    (h : List.Forall₂ (fun clause item => table.rowMatches key row clause = .ok (test item))
      clauses items) :
    table.rowMatchesAll key row clauses = .ok (items.all test) := by
  obtain ⟨b, hb⟩ : ∃ b, table.rowMatchesAll key row clauses = .ok b := by
    refine exists_rowMatchesAll fun clause hmem => ?_
    obtain ⟨item, -, hitem⟩ := exists_mem_of_forall₂ h.flip hmem
    exact ⟨test item, hitem⟩
  rw [hb, eq_all_of_rowMatchesAll (h.imp fun clause item hclause b hb => ?_) hb]
  exact Except.ok.inj (hb.symm.trans hclause)

/-- A row matches some clauses if it matches each of them. -/
theorem rowMatchesAll_eq_true_iff {table : StoredTable} {key : RowKey} {row : StoredRow}
    {clauses : List Clause} :
    table.rowMatchesAll key row clauses = .ok true ↔
      ∀ clause ∈ clauses, table.rowMatches key row clause = .ok true := by
  induction clauses with
  | nil => simp [rowMatchesAll]
  | cons clause rest ih =>
    rw [rowMatchesAll, List.forall_mem_cons, ← ih]
    split <;> rename_i hfirst <;> simp [hfirst]

/-- If a test decides every row then the matched rows are those that pass it. -/
theorem matchingRows_eq_filter {table : StoredTable} {clauses : List Clause}
    {rows : List (RowKey × StoredRow)} (test : RowKey × StoredRow → Bool)
    (h : ∀ entry ∈ rows, table.rowMatchesAll entry.1 entry.2 clauses = .ok (test entry)) :
    table.matchingRows clauses rows = .ok ((rows.filter test).map (·.2)) := by
  have hdecided : mapExcept (fun entry => table.rowMatchesAll entry.1 entry.2 clauses) rows =
      .ok (rows.map test) := by
    rw [mapExcept_eq_ok_iff, List.forall₂_map_right_iff, List.forall₂_same]
    exact h
  rw [matchingRows_eq_mapExcept, hdecided, Except.map, ← List.map_prod_left_eq_zip,
    List.filter_map, List.map_map]
  rfl

/-- Clauses are checked one by one. -/
theorem checkLeaves_eq_mapExcept (table : StoredTable) (allowed : Bool) (leaves : List Clause) :
    table.checkLeaves allowed leaves =
      (mapExcept (table.checkLeaf allowed) leaves).map fun _ => () := by
  induction leaves with
  | nil => rfl
  | cons leaf rest ih =>
    rw [checkLeaves, mapExcept, ih]
    generalize mapExcept (table.checkLeaf allowed) rest = checked
    cases table.checkLeaf allowed leaf with
    | error e => rfl
    | ok _ => cases checked <;> rfl

/-- Clauses pass the check if each of them does. -/
theorem checkLeaves_eq_ok_iff {table : StoredTable} {allowed : Bool} {leaves : List Clause} :
    table.checkLeaves allowed leaves = .ok () ↔
      ∀ leaf ∈ leaves, table.checkLeaf allowed leaf = .ok () := by
  rw [checkLeaves_eq_mapExcept, map_ok_iff]
  simp only [and_true, exists_mapExcept_iff, Unique.exists_iff]

/-- When a select is answered, and with which rows. -/
theorem select_eq_ok_iff {table : StoredTable} {select : Select} {answer : List Row} :
    table.select select = .ok answer ↔
      table.checkLeaves select.allowFiltering (select.clauses.flatMap Clause.leaves) = .ok () ∧
      ∃ hits orders, table.matchingRows select.clauses table.rows = .ok hits ∧
        table.orderColumns select.orders = .ok orders ∧
        answer = (takeLimit select.limit
          (sortStable (fun a b => compareRows a b orders) hits)).map table.project := by
  rw [StoredTable.select, bind_ok_iff]
  constructor
  · rintro ⟨checked, hcheck, hrest⟩
    obtain ⟨hits, hhits, hrest⟩ := bind_ok_iff.mp hrest
    obtain ⟨orders, horders, hanswer⟩ := bind_ok_iff.mp hrest
    cases hanswer
    exact ⟨hcheck, hits, orders, hhits, horders, rfl⟩
  · rintro ⟨hcheck, hits, orders, hhits, horders, rfl⟩
    exact ⟨(), hcheck, bind_ok_iff.mpr ⟨hits, hhits, bind_ok_iff.mpr ⟨orders, horders, rfl⟩⟩⟩

/-- A limit only leaves rows out. -/
theorem takeLimit_sublist (limit : Option Nat) (rows : List StoredRow) :
    (takeLimit limit rows).Sublist rows := by
  cases limit with
  | none => exact List.Sublist.refl rows
  | some n => exact List.take_sublist n rows

/-- Rows that are ordered by nothing keep their places. -/
theorem sortStable_eq_self {α : Type} {order : α → α → Ordering} (h : ∀ a b, order a b ≠ .gt)
    (items : List α) : sortStable order items = items := by
  induction items with
  | nil => rfl
  | cons a rest ih =>
    rw [sortStable, ih]
    cases rest with
    | nil => rfl
    | cons b rest => rw [insertStable, if_neg (h a b)]

/-- If a test decides every row then the select by clauses that pass the check is answered with the
rows that pass the test, in their order. -/
theorem select_of_test {table : StoredTable} {clauses : List Clause} {allowFiltering : Bool}
    (hcheck : table.checkLeaves allowFiltering (clauses.flatMap Clause.leaves) = .ok ())
    (test : RowKey × StoredRow → Bool)
    (h : ∀ entry ∈ table.rows, table.rowMatchesAll entry.1 entry.2 clauses = .ok (test entry))
    (name : String) :
    table.select (.mk name clauses [] none allowFiltering) =
      .ok ((table.rows.filter test).map fun entry => table.project entry.2) := by
  refine select_eq_ok_iff.mpr ⟨hcheck, _, [], matchingRows_eq_filter test h, rfl, ?_⟩
  rw [takeLimit, sortStable_eq_self (fun _ _ => by simp [compareRows]), List.map_map]
  rfl

/-- An equality with a text is decided by the cell of the column. -/
theorem eq_decide_of_rowMatches_text {table : StoredTable} {key : RowKey} {row : StoredRow}
    (hrow : row.cells.Fits table.definition) {column : Column} {text : String} {b : Bool}
    (h : table.rowMatches key row (Clause.eq column.nativeName (.text text)) = .ok b) :
    b = decide (row.cells.find? column = some (.text text)) := by
  obtain ⟨found, type, bound, hresolve, hbind, rfl⟩ := rowMatches_compare_eq_ok_iff.mp h
  have hcolumn := (TableDefinition.resolve_eq_ok_iff.mp hresolve).1
  rw [Column.ofName?_nativeName, Option.some.injEq] at hcolumn
  subst hcolumn
  obtain rfl := ColumnType.eq_of_bind hbind trivial
  rw [StoredRow.valueOf]
  cases hcell : row.cells.find? column with
  | none => rfl
  | some cell =>
    have hsame := Value.same_iff (hrow column cell hcell).2 (b := .text text) trivial
    cases hnull : cell.isNull with
    | true =>
      cases cell <;> first | rfl | cases hnull
    | false =>
      rw [Option.getD_some, hnull, Bool.not_false, Bool.true_and, Bool.eq_iff_iff,
        decide_eq_true_eq, Option.some.injEq, ← hsame, Comparison.accepts,
        Ordering.isEq_iff_eq_eq, Value.same, beq_iff_eq]

/-- The select for a text in a column is answered with the rows that have it, in their order. -/
theorem Coherent.eq_of_select_text {table : StoredTable} (hcoherent : table.Coherent)
    {name text : String} {column : Column} {allowFiltering : Bool} {answer : List Row}
    (h : table.select (.mk name [Clause.eq column.nativeName (.text text)] [] none allowFiltering) =
      .ok answer) :
    answer = (table.rows.filter fun entry =>
      decide (entry.2.cells.find? column = some (.text text))).map
        fun entry => table.project entry.2 := by
  obtain ⟨hcheck, hits, -, hhits, -, -⟩ := select_eq_ok_iff.mp h
  have htest : ∀ entry ∈ table.rows,
      table.rowMatchesAll entry.1 entry.2 [Clause.eq column.nativeName (.text text)] =
        .ok (decide (entry.2.cells.find? column = some (.text text))) := by
    intro entry hentry
    obtain ⟨b, hb⟩ := evaluated_of_matchingRows hhits entry hentry
    have hfits := (hcoherent.rows entry hentry).fits
    have hall : b = [decide (entry.2.cells.find? column = some (.text text))].all id :=
      eq_all_of_rowMatchesAll (.cons (fun _ h => eq_decide_of_rowMatches_text hfits h) .nil) hb
    rw [hb, hall]
    simp
  rw [select_of_test hcheck _ htest, Except.ok.injEq] at h
  exact h.symm

/-- A declared column is among those that rows list. -/
theorem mem_rowOrder {d : TableDefinition} {column : Column} {type : ColumnType}
    (h : d.typeOf? column = some type) : column ∈ d.rowOrder.map (·.column) := by
  rw [TableDefinition.typeOf?, Option.map_eq_some_iff] at h
  obtain ⟨declared, hfind, -⟩ := h
  have hmem : declared ∈ d.declarations := List.mem_of_find?_eq_some hfind
  have hcolumn : declared.column = column := by simpa using List.find?_some hfind
  refine List.mem_map.mpr ⟨declared, ?_, hcolumn⟩
  rw [TableDefinition.declarations, List.mem_append] at hmem
  rw [TableDefinition.rowOrder, List.mem_append]
  exact hmem.imp_right fun hregular => (sortStable_perm _ _).mem_iff.mpr hregular

/-- The first column of a row counts if it has the name. -/
theorem find?_row_cons (first name : String) (value : Value) (rest : List (String × Value)) :
    Row.find? ⟨(first, value) :: rest⟩ name =
      if Text.sameIgnoringCase first name then some value else Row.find? ⟨rest⟩ name := by
  rw [Row.find?, List.find?_cons]
  cases h : Text.sameIgnoringCase first name <;> simp [Row.find?]

/-- Among the cells of the given declarations that of a declared column is found under its name. -/
theorem find?_filterMap_cells (cells : ColumnValues) (declarations : List ColumnDeclaration)
    (column : Column) :
    Row.find? ⟨declarations.filterMap fun declared => (cells.find? declared.column).map fun value =>
        (Text.lower declared.column.nativeName, value)⟩ column.nativeName =
      if column ∈ declarations.map (·.column) then cells.find? column else none := by
  induction declarations with
  | nil => rfl
  | cons declared rest ih =>
    have hsame := Column.sameIgnoringCase_lower_iff declared.column column
    cases hcell : cells.find? declared.column with
    | none =>
      rw [List.filterMap_cons_none (by rw [hcell]; rfl), ih]
      by_cases heq : column = declared.column
      · subst heq
        simp [hcell]
      · simp [heq]
    | some value =>
      rw [List.filterMap_cons_some (by rw [hcell]; rfl), find?_row_cons, ih]
      by_cases heq : column = declared.column
      · subst heq
        simp [hsame, hcell]
      · simp [hsame, heq, Ne.symm heq]

/-- The cells of a row are found in its projection under the names of their columns. -/
theorem find?_project {table : StoredTable} {row : StoredRow}
    (h : row.cells.Fits table.definition) (column : Column) :
    (table.project row).find? column.nativeName = row.cells.find? column := by
  rw [project, find?_filterMap_cells]
  split
  · rfl
  · rename_i hnot
    cases hcell : row.cells.find? column with
    | none => rfl
    | some value =>
      obtain ⟨⟨type, htype⟩, -⟩ := h column value hcell
      exact absurd (mem_rowOrder htype) hnot

/-- The cells of the columns of a table, in the order in which rows list them. -/
def listedCells (d : TableDefinition) (cells : ColumnValues) : List (Column × Value) :=
  d.rowOrder.filterMap fun declared =>
    (cells.find? declared.column).map fun value => (declared.column, value)

/-- What a projected row names stands for the listed cells. -/
theorem standsFor_project (table : StoredTable) (row : StoredRow) :
    List.Forall₂ StandsFor (table.project row).columns (listedCells table.definition row.cells) := by
  have hcolumns : (table.project row).columns = (listedCells table.definition row.cells).map
      fun pair => (Text.lower pair.1.nativeName, pair.2) := by
    rw [project, listedCells, List.map_filterMap]
    simp only [Option.map_map, Function.comp_def]
  rw [hcolumns, List.forall₂_map_left_iff, List.forall₂_same]
  exact fun pair _ => ⟨Text.recased_lower pair.1.nativeName, rfl⟩

/-- Of fitting cells all are listed. -/
theorem ofList_listedCells {d : TableDefinition} {cells : ColumnValues} (h : cells.Fits d) :
    ColumnValues.ofList (listedCells d cells) = cells := by
  refine ColumnValues.ofList_eq fun column value => ?_
  simp only [listedCells, List.mem_filterMap, Option.map_eq_some_iff, Prod.mk.injEq]
  constructor
  · rintro ⟨declared, -, found, hfound, rfl, rfl⟩
    exact hfound
  · intro hvalue
    obtain ⟨⟨type, htype⟩, -⟩ := h column value hvalue
    obtain ⟨declared, hdeclared, rfl⟩ := List.mem_map.mp (mem_rowOrder htype)
    exact ⟨declared, hdeclared, value, hvalue, rfl, rfl⟩

/-- A projected row comes back as the entry with the cells of the row. -/
theorem ofRow_project {table : StoredTable} {row : StoredRow}
    (h : row.cells.Fits table.definition) (kind : ElementKind) (name : String) :
    Entry.ofRow kind name (table.project row) = .ok { row := { kind, columns := row.cells } } := by
  rw [Entry.ofRow_of_standsFor (standsFor_project table row), ofList_listedCells h]

end StoredTable

end WideGraph
