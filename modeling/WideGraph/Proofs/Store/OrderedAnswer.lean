import WideGraph.Proofs.Store.Refusal
import WideGraph.Proofs.Store.StableSort

/-!
# The order of an answer

A select that is answered lists the first rows of those that match every clause, sorted stably by
the columns that it is ordered by, each in its direction. A missing cell is taken as null, and
nothing comes before null in ascending order. Rows that tie stay in the order of their keys. A row
lists the cells that it has, in the order of its columns, so that the order of an answer can be
checked on the answer itself.
-/

namespace WideGraph

/-- A cell comes before another one in ascending order. A missing cell has the place of a null,
ahead of any other value. -/
def CellBefore : Option Value → Option Value → Prop
  | none, some w => w ≠ .null
  | some v, some w => v.order w = .lt
  | _, none => False

/-- A cell is put before another one in a direction. -/
def SortOrder.Puts : SortOrder → Option Value → Option Value → Prop
  | .ascending, a, b => CellBefore a b
  | .descending, a, b => CellBefore b a

/-- The cells of one row precede those of another in the order of several columns: the first column
in which they do not tie puts them so in its direction. -/
def Precedes (orders : List (Column × SortOrder)) (a b : Column → Option Value) : Prop :=
  match orders with
  | [] => False
  | (column, direction) :: rest =>
    direction.Puts (a column) (b column) ∨
      ¬ direction.Puts (b column) (a column) ∧ Precedes rest a b

/-- The first items, as many as a limit admits. -/
def upTo {α : Type} (limit : Option Nat) (items : List α) : List α :=
  match limit with
  | some n => items.take n
  | none => items

/-- The present cells of the columns under their lower-case names. -/
def ColumnValues.listing (columns : List Column) (cells : ColumnValues) : Row :=
  ⟨columns.filterMap fun column =>
    (cells.find? column).map fun value => (Text.lower column.nativeName, value)⟩

/-- The columns of a table are in the order in which rows list them. -/
structure ListOrder (d : TableDefinition) (columns : List Column) : Prop where
  /-- The partition keys come first, then the clustering keys, then the regular columns by name. -/
  parts : ∃ regular, columns = d.partitionColumns ++ d.clusteringColumns ++ regular ∧
    regular.Perm (d.regularColumns.map (·.column)) ∧
    regular.Pairwise fun a b => compare a.nativeName b.nativeName ≠ .gt
  /-- No column is listed twice, unless it is declared twice. -/
  nodup : d.fault? = none → columns.Nodup

/-- The columns of a table as its rows list them. -/
def TableDefinition.listedColumns (d : TableDefinition) : List Column :=
  d.rowOrder.map (·.column)

/-- Of fitting cells all are listed under their lower-case names, and nothing else is. -/
theorem ColumnValues.mem_listing_iff {d : TableDefinition} {cells : ColumnValues}
    (h : cells.Fits d) {name : String} {value : Value} :
    (name, value) ∈ (cells.listing d.listedColumns).columns ↔
      ∃ column, name = Text.lower column.nativeName ∧ cells.find? column = some value := by
  simp only [listing, List.mem_filterMap, Option.map_eq_some_iff, Prod.mk.injEq]
  constructor
  · rintro ⟨column, -, found, hfound, rfl, rfl⟩
    exact ⟨column, rfl, hfound⟩
  · rintro ⟨column, rfl, hfound⟩
    obtain ⟨⟨type, htype⟩, -⟩ := h column value hfound
    exact ⟨column, StoredTable.mem_rowOrder htype, value, hfound, rfl, rfl⟩

/-- A cell comes before another one if its value does, where a missing one is taken as null. -/
theorem order_getD_eq_lt_iff (a b : Option Value) :
    (a.getD .null).order (b.getD .null) = .lt ↔ CellBefore a b := by
  have hnone : ∀ v : Value, v.order .null ≠ .lt := by
    intro v
    cases v <;> simp [Value.order, Value.kindRank, Nat.compare_eq_lt]
  cases b with
  | none => cases a <;> exact iff_of_false (hnone _) id
  | some w =>
    cases a with
    | none => cases w <;> simp [CellBefore, Value.order, Value.kindRank, Nat.compare_eq_lt]
    | some v => rfl

namespace StoredTable

/-- Rows with fitting cells are compared as their cells precede each other. -/
theorem compareRows_eq_lt_iff {d : TableDefinition} {a b : StoredRow} (ha : a.cells.Fits d)
    (hb : b.cells.Fits d) (orders : List (Column × SortOrder)) :
    compareRows a b orders = .lt ↔ Precedes orders a.cells.find? b.cells.find? := by
  induction orders with
  | nil => exact iff_of_false (by simp [compareRows]) id
  | cons first rest ih =>
    obtain ⟨column, direction⟩ := first
    have hswap := Value.order_lawfulOn.swap _ _ (StoredRow.storable_valueOf ha column)
      (StoredRow.storable_valueOf hb column)
    have hlt := order_getD_eq_lt_iff (a.cells.find? column) (b.cells.find? column)
    have hgt := order_getD_eq_lt_iff (b.cells.find? column) (a.cells.find? column)
    change (a.valueOf column).order (b.valueOf column) = .lt ↔ _ at hlt
    change (b.valueOf column).order (a.valueOf column) = .lt ↔ _ at hgt
    rw [← hswap] at hgt
    cases direction with
    | ascending =>
      rw [compareRows, Ordering.then_eq_lt, ih, Precedes, SortOrder.Puts, SortOrder.Puts, ← hlt,
        ← hgt]
      cases (a.valueOf column).order (b.valueOf column) <;> simp
    | descending =>
      rw [compareRows, ← hswap, Ordering.then_eq_lt, ih, Precedes, SortOrder.Puts, SortOrder.Puts,
        ← hlt, ← hgt]
      cases (a.valueOf column).order (b.valueOf column) <;> simp

/-- The rows that match every clause of a select, with their keys. -/
def matching (table : StoredTable) (select : Select) : List (RowKey × StoredRow) :=
  table.rows.filter fun entry =>
    decide (∀ clause ∈ select.clauses, table.rowMatches entry.1 entry.2 clause = .ok true)

/-- If all rows could be evaluated then those that match every clause were found. -/
theorem eq_matching_of_matchingRows {table : StoredTable} {select : Select} {hits : List StoredRow}
    (h : table.matchingRows select.clauses table.rows = .ok hits) :
    hits = (table.matching select).map (·.2) := by
  have htest : ∀ entry ∈ table.rows, table.rowMatchesAll entry.1 entry.2 select.clauses =
      .ok (decide (∀ clause ∈ select.clauses,
        table.rowMatches entry.1 entry.2 clause = .ok true)) := by
    intro entry hentry
    obtain ⟨b, hb⟩ := evaluated_of_matchingRows h entry hentry
    rw [hb, Except.ok.injEq, Bool.eq_iff_iff, decide_eq_true_eq, ← rowMatchesAll_eq_true_iff, hb,
      Except.ok.injEq]
  rw [matchingRows_eq_filter _ htest, Except.ok.injEq] at h
  exact h.symm

/-- The rows that match every clause of a select, sorted by some columns. -/
def sortedMatching (table : StoredTable) (select : Select) (orders : List (Column × SortOrder)) :
    List (RowKey × StoredRow) :=
  sortStable (fun a b => compareRows a.2 b.2 orders) (table.matching select)

/-- The sorted rows fit the definition of a coherent table. -/
theorem Coherent.fits_of_mem_sortedMatching {table : StoredTable} (h : table.Coherent)
    {select : Select} {orders : List (Column × SortOrder)} {entry : RowKey × StoredRow}
    (hentry : entry ∈ table.sortedMatching select orders) :
    entry.2.cells.Fits table.definition := by
  have hmatching : entry ∈ table.matching select := (sortStable_perm _ _).mem_iff.mp hentry
  exact (h.rows entry (List.mem_filter.mp hmatching).1).fits

/-- The matching rows of a coherent table are sorted stably, and ties are in the order of the
keys. -/
theorem Coherent.stableSort_sortedMatching {table : StoredTable} (h : table.Coherent)
    (select : Select) (orders : List (Column × SortOrder)) :
    StableSort (fun a b => Precedes orders a.2.cells.find? b.2.cells.find?)
        (table.matching select) (table.sortedMatching select orders) ∧
      (table.sortedMatching select orders).Pairwise fun a b =>
        Precedes orders a.2.cells.find? b.2.cells.find? ∨ RowKey.order a.1 b.1 = .lt := by
  have hfits : ∀ entry ∈ table.matching select, entry.2.cells.Fits table.definition :=
    fun entry hentry => (h.rows entry (List.mem_filter.mp hentry).1).fits
  have law : TotalPreorderOn (fun a b => compareRows a.2 b.2 orders) (· ∈ table.matching select) :=
    (compareRows_preorder (fun _ hrow => hrow) orders).comap hfits
  refine ⟨stableSort_sortStable law fun a ha b hb =>
    compareRows_eq_lt_iff (hfits a ha) (hfits b hb) orders, ?_⟩
  -- The keys of the matching rows increase, which decides the order of those that tie.
  have hties := pairwise_sortStable law (fun _ ha => ha) (h.increasing.filter _)
  refine hties.imp_of_mem fun {a b} ha hb hab => hab.imp ?_ And.right
  exact (compareRows_eq_lt_iff (h.fits_of_mem_sortedMatching ha) (h.fits_of_mem_sortedMatching hb)
    orders).mp

/-- The columns that order an answer are clustering keys under the names that were asked for. -/
theorem forall₂_orderColumns {table : StoredTable} {asked : List (String × SortOrder)}
    {orders : List (Column × SortOrder)} (h : table.orderColumns asked = .ok orders) :
    List.Forall₂ (fun name order => Column.ofName? name.1 = some order.1 ∧ name.2 = order.2 ∧
      table.definition.isClusteringKey order.1 = true) asked orders := by
  rw [orderColumns_eq_mapExcept, mapExcept_eq_ok_iff] at h
  refine h.imp fun asked order horder => ?_
  rw [orderColumn] at horder
  split at horder
  · cases horder
  · rename_i column type hresolve
    split at horder <;> cases horder
    exact ⟨(TableDefinition.resolve_eq_ok_iff.mp hresolve).1, rfl, ‹_›⟩

/-- A projected row lists the present cells of the columns in order. -/
theorem project_eq_listing (table : StoredTable) (row : StoredRow) :
    table.project row = row.cells.listing table.definition.listedColumns := by
  rw [project, ColumnValues.listing, TableDefinition.listedColumns, List.filterMap_map]
  rfl

/-- The cells of a row are found again in what is listed of them. -/
theorem find?_listing {table : StoredTable} {row : StoredRow}
    (h : row.cells.Fits table.definition) :
    (fun column => (row.cells.listing table.definition.listedColumns).find? column.nativeName) =
      row.cells.find? := by
  funext column
  rw [← project_eq_listing]
  exact find?_project h column

end StoredTable

/-- No column is repeated if none occurs again further on the left. -/
theorem nodup_of_firstRepeated? {seen columns : List Column}
    (h : firstRepeated? seen columns = none) :
    columns.Nodup ∧ ∀ column ∈ columns, column ∉ seen := by
  induction columns generalizing seen with
  | nil => simp
  | cons column rest ih =>
    rw [firstRepeated?] at h
    split at h
    · cases h
    · rename_i hnew
      obtain ⟨hrest, hseen⟩ := ih h
      refine ⟨List.nodup_cons.mpr ⟨fun hmem => ?_, hrest⟩, ?_⟩
      · exact hseen column hmem List.mem_cons_self
      · refine List.forall_mem_cons.mpr ⟨by simpa using hnew, fun other hother => ?_⟩
        exact List.not_mem_of_not_mem_cons (hseen other hother)

namespace TableDefinition

/-- The declarations in the order of rows are the declarations. -/
theorem rowOrder_perm (d : TableDefinition) : d.rowOrder.Perm d.declarations :=
  (sortStable_perm _ d.regularColumns).append_left _

/-- The columns of a definition without fault are declared once. -/
theorem nodup_of_fault? {d : TableDefinition} (h : d.fault? = none) :
    (d.declarations.map (·.column)).Nodup := by
  rw [fault?] at h
  split at h
  · cases h
  · split at h
    · cases h
    · rename_i hnone
      exact (nodup_of_firstRepeated? hnone).1

/-- The columns of a table are listed in the order of rows. -/
theorem listOrder_listedColumns (d : TableDefinition) : ListOrder d d.listedColumns where
  parts := by
    refine ⟨(sortStable (fun a b => compare a.column.nativeName b.column.nativeName)
      d.regularColumns).map (·.column), ?_, (sortStable_perm _ _).map _, ?_⟩
    · rw [listedColumns, rowOrder, List.map_append, List.map_append]
      rfl
    · have names : TotalPreorderOn (fun a b : ColumnDeclaration =>
          compare a.column.nativeName b.column.nativeName) fun _ => True :=
        .of_swap_trans (fun _ _ _ _ => Std.OrientedCmp.eq_swap.symm)
          fun _ _ _ _ _ _ => Std.TransCmp.isLE_trans
      have hregular : d.regularColumns.Pairwise fun _ _ => True :=
        List.pairwise_of_forall fun _ _ => trivial
      have hsorted := pairwise_sortStable names (fun _ _ => trivial) hregular
      refine List.pairwise_map.mpr (hsorted.imp fun {a b} h hgt => ?_)
      obtain hlt | ⟨heq, -⟩ := h
      · cases hlt.symm.trans hgt
      · cases heq.symm.trans hgt
  nodup h := ((d.rowOrder_perm.map _).nodup_iff).mpr (nodup_of_fault? h)

end TableDefinition

/-- The first items are among the items in their order. -/
theorem upTo_sublist {α : Type} (limit : Option Nat) (items : List α) :
    (upTo limit items).Sublist items := by
  cases limit with
  | none => exact List.Sublist.refl items
  | some n => exact List.take_sublist n items

/-- The first items are those that a larger limit begins with. -/
theorem upTo_isPrefix {α : Type} {m : Nat} {limit : Option Nat} (h : ∀ n, limit = some n → m ≤ n)
    (items : List α) : upTo (some m) items <+: upTo limit items := by
  cases limit with
  | none => exact List.take_prefix m items
  | some n => exact List.take_prefix_take_left (h n rfl)

/-- An answer lists the first rows of a stable sort of those that match. -/
structure OrderedAnswer (c : Connection) (select : Select) (answer : List Row)
    (table : StoredTable) (orders : List (Column × SortOrder)) (columns : List Column)
    (sorted : List (RowKey × StoredRow)) : Prop where
  /-- The table is the one that the select addresses. -/
  table_eq : c.cluster.table c.session.keyspace select.table = .ok table
  /-- It keeps its rows in the order of token, partition and clustering. -/
  increasing : table.rows.Pairwise fun a b => RowKey.order a.1 b.1 = .lt
  /-- The orders are those of the select, by the clustering keys under its names. -/
  orders_named : List.Forall₂ (fun asked order => Column.ofName? asked.1 = some order.1 ∧
    asked.2 = order.2 ∧ table.definition.isClusteringKey order.1 = true) select.orders orders
  /-- The rows that match every clause are sorted stably. -/
  sorts : StableSort (fun a b => Precedes orders a.2.cells.find? b.2.cells.find?)
    (table.matching select) sorted
  /-- Rows that tie are in the order of their keys. -/
  ties : sorted.Pairwise fun a b =>
    Precedes orders a.2.cells.find? b.2.cells.find? ∨ RowKey.order a.1 b.1 = .lt
  /-- The answer lists the cells of the first ones, as many as the limit admits. -/
  answer_eq : answer = (upTo select.limit sorted).map fun entry => entry.2.cells.listing columns
  /-- So does the answer under any other limit. -/
  limits : ∀ limit, (c.execute { select with limit }).1 =
    .ok ((upTo limit sorted).map fun entry => entry.2.cells.listing columns)
  /-- The answer under a limit is what the answer under a larger one or under none begins with. -/
  begins : ∀ m limit shorter longer, (∀ n, limit = some n → m ≤ n) →
    (c.execute { select with limit := some m }).1 = .ok shorter →
    (c.execute { select with limit }).1 = .ok longer → shorter <+: longer
  /-- No row of the answer comes behind one that its cells precede. -/
  ordered : answer.Pairwise fun a b => ¬ Precedes orders (fun column => b.find? column.nativeName)
    fun column => a.find? column.nativeName
  /-- The columns are in the order of rows. -/
  columns_listed : ListOrder table.definition columns
  /-- A row lists the cells that it has under their lower-case names, and nothing else. -/
  lists : ∀ entry ∈ sorted, ∀ name value,
    (name, value) ∈ (entry.2.cells.listing columns).columns ↔
      ∃ column, name = Text.lower column.nativeName ∧ entry.2.cells.find? column = some value

namespace StoredTable

/-- A select that is answered is so under any limit, with the first rows of those that match in
order. -/
theorem select_limit_of_select {table : StoredTable} {select : Select} {answer : List Row}
    (h : table.select select = .ok answer) :
    ∃ orders, table.orderColumns select.orders = .ok orders ∧
      ∀ limit, table.select { select with limit } =
        .ok ((upTo limit (table.sortedMatching select orders)).map fun entry =>
          entry.2.cells.listing table.definition.listedColumns) := by
  obtain ⟨hcheck, hits, orders, hhits, horders, -⟩ := select_eq_ok_iff.mp h
  refine ⟨orders, horders, fun limit => select_eq_ok_iff.mpr
    ⟨hcheck, hits, orders, hhits, horders, ?_⟩⟩
  have htake : ∀ rows : List (RowKey × StoredRow),
      takeLimit limit (rows.map (·.2)) = (upTo limit rows).map (·.2) := by
    intro rows
    cases limit with
    | none => rfl
    | some n => exact List.map_take.symm
  rw [eq_matching_of_matchingRows hhits, sortStable_map, htake, List.map_map]
  exact List.map_congr_left fun entry _ => (project_eq_listing table entry.2).symm

end StoredTable

namespace Connection

/-- In any state that can be reached, a select that is answered at all lists the first of the rows
that match it, sorted stably by the columns that it is ordered by. -/
theorem execute_answers_sorted {c : Connection} (hreach : c.cluster.Reachable) {select : Select}
    {answer : List Row} (h : (c.execute select).1 = .ok answer) :
    ∃ table orders columns sorted,
      OrderedAnswer c select answer table orders columns sorted := by
  obtain ⟨table, htable, hselect⟩ := bind_ok_iff.mp h
  have hcoherent := hreach.coherent htable
  obtain ⟨orders, horders, hanswers⟩ := StoredTable.select_limit_of_select hselect
  obtain ⟨hsorts, hties⟩ := hcoherent.stableSort_sortedMatching select orders
  have hfits : ∀ entry ∈ table.sortedMatching select orders,
      entry.2.cells.Fits table.definition := fun _ => hcoherent.fits_of_mem_sortedMatching
  have hlimits : ∀ limit, (c.execute { select with limit }).1 =
      .ok ((upTo limit (table.sortedMatching select orders)).map fun entry =>
        entry.2.cells.listing table.definition.listedColumns) := by
    intro limit
    have hsame : c.cluster.table c.session.keyspace { select with limit }.table = .ok table :=
      htable
    exact (execute_eq_select hsame).trans (hanswers limit)
  have hanswer := hselect.symm.trans (hanswers select.limit)
  rw [Except.ok.injEq] at hanswer
  refine ⟨table, orders, table.definition.listedColumns, table.sortedMatching select orders, ?_⟩
  exact
    { table_eq := htable
      increasing := hcoherent.increasing
      orders_named := StoredTable.forall₂_orderColumns horders
      sorts := hsorts
      ties := hties
      answer_eq := hanswer
      limits := hlimits
      begins := by
        intro m limit shorter longer hle hshorter hlonger
        rw [hlimits, Except.ok.injEq] at hshorter hlonger
        rw [← hshorter, ← hlonger]
        exact (upTo_isPrefix hle _).map _
      ordered := by
        have hfirst := upTo_sublist select.limit (table.sortedMatching select orders)
        rw [hanswer, List.pairwise_map]
        refine (hsorts.ordered.sublist hfirst).imp_of_mem fun {a b} ha hb hab => ?_
        rwa [StoredTable.find?_listing (hfits a (hfirst.subset ha)),
          StoredTable.find?_listing (hfits b (hfirst.subset hb))]
      columns_listed := table.definition.listOrder_listedColumns
      lists := fun entry hentry _ _ => ColumnValues.mem_listing_iff (hfits entry hentry) }

/-- The insert of an edge that leaves one vertex for another, with a label or without. -/
def insertEdge (label other : Value) : Statement :=
  .insert ⟨"edges", [("OWNER_VERTEX", .text "1"), ("DIRECTION", .text "OUT"), ("LABEL", label),
    ("SORT_VALUES", .text ""), ("OTHER_VERTEX", other)]⟩

/-- Four edges leave a vertex. One has no label, and two have the same. -/
def writeEdges : List (String × Request) :=
  [("writer", .connect "graph"), ("writer", .changeSchema ElementKind.edge.layout.createTable),
    ("writer", .add (insertEdge (.text "likes") (.text "2"))),
    ("writer", .add (insertEdge (.text "knows") (.text "4"))),
    ("writer", .add (insertEdge .null (.text "3"))),
    ("writer", .add (insertEdge (.text "knows") (.text "2"))), ("writer", .commit)]

/-- The select for three edges of the vertex by their labels. -/
def selectEdges : Select :=
  ⟨"edges", [Clause.eq "OWNER_VERTEX" (.text "1")],
    [("label", .ascending), ("SORT_VALUES", .descending)], some 3, false⟩

/-- The edge without a label is the first of three, and those with the same label are in the order of
their keys. -/
theorem execute_answers_sorted_edges :
    ∃ answer table orders columns sorted,
      ((readerAfter writeEdges).execute selectEdges).1 = .ok answer ∧
      answer.map (fun row => (row.text? "label", row.text? "other_vertex")) =
        [(none, some "3"), (some "knows", some "2"), (some "knows", some "4")] ∧
      OrderedAnswer (readerAfter writeEdges) selectEdges answer table orders columns sorted := by
  have hlabels : ((readerAfter writeEdges).execute selectEdges).1.toOption.map
      (fun answer => answer.map fun row => (row.text? "label", row.text? "other_vertex")) =
      some [(none, some "3"), (some "knows", some "2"), (some "knows", some "4")] := by
    decide +kernel
  obtain ⟨answer, hanswer, hlabels⟩ := exists_ok_of_map_toOption hlabels
  obtain ⟨table, orders, columns, sorted, hordered⟩ :=
    execute_answers_sorted ⟨writeEdges, rfl⟩ hanswer
  exact ⟨answer, table, orders, columns, sorted, hanswer, hlabels, hordered⟩

end Connection

end WideGraph
