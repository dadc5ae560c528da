import WideGraph.Proofs.Order.AnyValue
import WideGraph.Proofs.Query.Reading
import WideGraph.Proofs.Store.CellTypes

/-!
# Alternatives and equalities

A column can be restricted to several values at once or to one value after the other. The two forms
accept the same rows as long as no value is null. An equality with null accepts no row, but null
among alternatives accepts the rows that have nothing but null in the column, be it for want of a
cell or in the cell itself. This is the only way in which the two forms can differ.
-/

namespace WideGraph

namespace Value

/-- Which of two values comes first does not matter for whether they are the same. -/
theorem same_comm (a b : Value) : a.same b = b.same a := by
  rw [same, same, ← order_swap a b]
  cases order a b <;> rfl

end Value

namespace StoredTable

/-- Alternatives that their column takes are decided, each by its bound form. -/
theorem isAmong_of_bindable {type : ColumnType} {values : List Value}
    (hbind : ∀ value ∈ values, ∃ bound, type.bind value = .ok bound) (current : Value) :
    isAmong type current values = .ok (values.any fun value =>
      type.boundPasses value fun bound => bound.same current) := by
  obtain ⟨b, hb⟩ := exists_isAmong current hbind
  rw [hb, eq_any_of_isAmong hb]

section Column

variable {table : StoredTable} {name : String} {column : Column} {type : ColumnType}
  (hresolve : table.definition.resolve name = .ok (column, type)) (key : RowKey) (row : StoredRow)

include hresolve

/-- A value as an alternative accepts a row if it does so as an equality, or if it is null and the
row has nothing but null in the column. -/
theorem boundPasses_same_iff {value : Value} (hbind : ∃ bound, type.bind value = .ok bound) :
    (type.boundPasses value fun bound => bound.same (row.valueOf column)) = true ↔
      table.rowMatches key row (Clause.eq name value) = .ok true ∨
        row.valueOf column = .null ∧ value = .null := by
  obtain ⟨bound, hvalue⟩ := hbind
  rw [rowMatches_eq_of_bind (TableDefinition.bind_eq_ok_iff.mpr ⟨type, hresolve, hvalue⟩)]
  cases hseen : row.valueOf column with
  | null =>
    rw [ColumnType.boundPasses_same_null]
    cases value <;> simp [Value.isNull]
  | _ => simp [ColumnType.boundPasses, hvalue, Value.same_comm bound, Value.isNull]

/-- Where nothing but null is seen, no equality accepts the row. -/
theorem rowMatches_eq_of_null {value : Value} (hbind : ∃ bound, type.bind value = .ok bound)
    (hnull : row.valueOf column = .null) :
    table.rowMatches key row (Clause.eq name value) = .ok false := by
  obtain ⟨bound, hvalue⟩ := hbind
  rw [rowMatches_eq_of_bind (TableDefinition.bind_eq_ok_iff.mpr ⟨type, hresolve, hvalue⟩), hnull]
  rfl

variable {values : List Value} (hbind : ∀ value ∈ values, ∃ bound, type.bind value = .ok bound)

include hbind

/-- Alternatives accept a row if one of them does so as an equality, or if null is among them and
the row has nothing but null in the column. -/
theorem rowMatches_isIn_iff :
    table.rowMatches key row (.isIn name values) = .ok true ↔
      (∃ value ∈ values, table.rowMatches key row (Clause.eq name value) = .ok true) ∨
        row.valueOf column = .null ∧ .null ∈ values := by
  have hdecided : table.rowMatches key row (.isIn name values) = .ok true ↔
      ∃ value ∈ values,
        (type.boundPasses value fun bound => bound.same (row.valueOf column)) = true := by
    rw [rowMatches, hresolve]
    change isAmong type (row.valueOf column) values = .ok true ↔ _
    rw [isAmong_of_bindable hbind, Except.ok.injEq, List.any_eq_true]
  rw [hdecided]
  constructor
  · rintro ⟨value, hmem, hpasses⟩
    obtain haccepted | ⟨hnull, rfl⟩ :=
      (boundPasses_same_iff hresolve key row (hbind value hmem)).mp hpasses
    · exact .inl ⟨value, hmem, haccepted⟩
    · exact .inr ⟨hnull, hmem⟩
  · rintro (⟨value, hmem, haccepted⟩ | ⟨hnull, hmem⟩)
    · exact ⟨value, hmem,
        (boundPasses_same_iff hresolve key row (hbind value hmem)).mpr (.inl haccepted)⟩
    · exact ⟨.null, hmem,
        (boundPasses_same_iff hresolve key row (hbind .null hmem)).mpr (.inr ⟨hnull, rfl⟩)⟩

/-- Alternatives accept just the rows that one of them accepts as an equality, unless null is among
them and the row has nothing but null in the column. -/
theorem rowMatches_isIn_agrees_iff :
    (table.rowMatches key row (.isIn name values) = .ok true ↔
      ∃ value ∈ values, table.rowMatches key row (Clause.eq name value) = .ok true) ↔
      ¬(row.valueOf column = .null ∧ .null ∈ values) := by
  rw [rowMatches_isIn_iff hresolve key row hbind]
  constructor
  · rintro hagrees ⟨hnull, hmem⟩
    obtain ⟨value, hvalue, haccepted⟩ := hagrees.mp (.inr ⟨hnull, hmem⟩)
    rw [rowMatches_eq_of_null hresolve key row (hbind value hvalue) hnull] at haccepted
    cases haccepted
  · intro hnot
    exact or_iff_left hnot

/-- Alternatives and equalities, for values that their column takes. Every row is decided either
way. Alternatives accept a row exactly if one of them does so as an equality, or if null is among
them and the row has nothing but null in the column; a row without a cell there is accepted exactly
if null is among them. On the rows of a table the alternatives are the disjunction of the equalities
exactly if null is not among them or every row has something else than null in the column. -/
theorem isIn_disjunction_unless_null :
    (∀ key row,
      (∃ accepted, table.rowMatches key row (.isIn name values) = .ok accepted) ∧
      (∀ value ∈ values, ∃ accepted,
        table.rowMatches key row (Clause.eq name value) = .ok accepted) ∧
      (table.rowMatches key row (.isIn name values) = .ok true ↔
        (∃ value ∈ values, table.rowMatches key row (Clause.eq name value) = .ok true) ∨
          row.valueOf column = .null ∧ .null ∈ values) ∧
      (row.cells.find? column = none →
        (table.rowMatches key row (.isIn name values) = .ok true ↔ .null ∈ values))) ∧
    ((∀ entry ∈ table.rows,
      (table.rowMatches entry.1 entry.2 (.isIn name values) = .ok true ↔
        ∃ value ∈ values, table.rowMatches entry.1 entry.2 (Clause.eq name value) = .ok true)) ↔
      .null ∉ values ∨ ∀ entry ∈ table.rows, entry.2.valueOf column ≠ .null) := by
  refine ⟨fun key row => ⟨?_, fun value hmem => ?_, rowMatches_isIn_iff hresolve key row hbind,
    fun hnone => ?_⟩, ?_⟩
  · obtain ⟨accepted, haccepted⟩ := exists_isAmong (row.valueOf column) hbind
    exact ⟨accepted, rowMatches_isIn_eq_ok_iff.mpr ⟨column, type, hresolve, haccepted⟩⟩
  · obtain ⟨bound, hvalue⟩ := hbind value hmem
    exact ⟨_, rowMatches_eq_of_bind
      (TableDefinition.bind_eq_ok_iff.mpr ⟨type, hresolve, hvalue⟩) key row⟩
  · have hnull : row.valueOf column = .null := by
      rw [StoredRow.valueOf, hnone, Option.getD_none]
    rw [rowMatches_isIn_iff hresolve key row hbind]
    constructor
    · rintro (⟨value, hmem, haccepted⟩ | ⟨-, hmem⟩)
      · rw [rowMatches_eq_of_null hresolve key row (hbind value hmem) hnull] at haccepted
        cases haccepted
      · exact hmem
    · exact fun hmem => .inr ⟨hnull, hmem⟩
  · have hrows : (∀ entry ∈ table.rows,
        (table.rowMatches entry.1 entry.2 (.isIn name values) = .ok true ↔
          ∃ value ∈ values, table.rowMatches entry.1 entry.2 (Clause.eq name value) = .ok true)) ↔
        ∀ entry ∈ table.rows, ¬(entry.2.valueOf column = .null ∧ .null ∈ values) :=
      forall₂_congr fun entry _ => rowMatches_isIn_agrees_iff hresolve entry.1 entry.2 hbind
    rw [hrows]
    by_cases hmem : Value.null ∈ values <;> simp [hmem]

end Column

/-- A session writes two vertices, one of them without a label. -/
def writeHalfLabelled : List (String × Request) :=
  [("writer", .connect "graph"), ("writer", .changeSchema ElementKind.vertex.layout.createTable),
    ("writer", .add (.insert ⟨"vertices", [("ID", .text "1"), ("LABEL", .text "person")]⟩)),
    ("writer", .add (.insert ⟨"vertices", [("ID", .text "2")]⟩)), ("writer", .commit)]

/-- The table of the two vertices has the layout of its kind, an identifier in every row, and a row
without a label. -/
theorem exists_halfLabelled :
    ∃ table unlabelled, (World.run {} writeHalfLabelled).cluster.table "graph" "vertices" =
        .ok table ∧
      table.definition = ElementKind.vertex.layout ∧
      (∀ entry ∈ table.rows, entry.2.valueOf .id ≠ .null) ∧
      unlabelled ∈ table.rows ∧ unlabelled.2.cells.find? .label = none := by
  have hrun : ((World.run {} writeHalfLabelled).cluster.table "graph" "vertices").toOption.map
      (fun table => (table.definition,
        table.rows.all fun entry => decide (entry.2.valueOf .id ≠ .null),
        table.rows.any fun entry => entry.2.cells.find? .label == none)) =
      some (ElementKind.vertex.layout, true, true) := by decide +kernel
  obtain ⟨table, htable, hfacts⟩ := exists_ok_of_map_toOption hrun
  rw [Prod.mk.injEq, Prod.mk.injEq] at hfacts
  obtain ⟨hdefinition, hids, hlabels⟩ := hfacts
  obtain ⟨unlabelled, hmem, hnone⟩ := List.any_eq_true.mp hlabels
  exact ⟨table, unlabelled, htable, hdefinition,
    fun entry hentry => of_decide_eq_true (List.all_eq_true.mp hids entry hentry), hmem,
    beq_iff_eq.mp hnone⟩

/-- Null among labels accepts the vertex without one. Among identifiers it makes no difference, as
every vertex has one. -/
theorem isIn_disjunction_unless_null_halfLabelled :
    ∃ table unlabelled, (World.run {} writeHalfLabelled).cluster.table "graph" "vertices" =
        .ok table ∧
      unlabelled ∈ table.rows ∧
      table.rowMatches unlabelled.1 unlabelled.2 (.isIn "LABEL" [.text "person", .null]) =
        .ok true ∧
      ∀ entry ∈ table.rows,
        (table.rowMatches entry.1 entry.2 (.isIn "id" [.text "1", .null]) = .ok true ↔
          ∃ value ∈ [Value.text "1", .null],
            table.rowMatches entry.1 entry.2 (Clause.eq "id" value) = .ok true) := by
  obtain ⟨table, unlabelled, htable, hdefinition, hids, hmem, hnone⟩ := exists_halfLabelled
  have hlabel : table.definition.resolve "LABEL" = .ok (.label, .text) := by
    rw [hdefinition]
    decide +kernel
  have hid : table.definition.resolve "id" = .ok (.id, .text) := by
    rw [hdefinition]
    decide +kernel
  have htaken : ∀ t, ∀ value ∈ [Value.text t, .null], ∃ bound,
      ColumnType.text.bind value = .ok bound := fun t => by
    simp [ColumnType.bind]
  refine ⟨table, unlabelled, htable, hmem, ?_, ?_⟩
  · exact (((isIn_disjunction_unless_null hlabel (htaken "person")).1 unlabelled.1
      unlabelled.2).2.2.2 hnone).mpr (by simp)
  · exact (isIn_disjunction_unless_null hid (htaken "1")).2.mpr (.inr hids)

/-- Alternatives are not always the disjunction of the equalities. -/
theorem isIn_null_accepts_unlabelled :
    ¬ ∀ (cluster : Cluster) (keyspace name : String) (table : StoredTable), cluster.Reachable →
      cluster.table keyspace name = .ok table →
      ∀ entry ∈ table.rows, ∀ column type values, table.definition.typeOf? column = some type →
        (∀ value ∈ values, ∃ bound, type.bind value = .ok bound) →
        (table.rowMatches entry.1 entry.2 (.isIn column.nativeName values) = .ok true ↔
          ∃ value ∈ values,
            table.rowMatches entry.1 entry.2 (Clause.eq column.nativeName value) = .ok true) := by
  intro hall
  obtain ⟨table, unlabelled, htable, hdefinition, -, hmem, hnone⟩ := exists_halfLabelled
  have htype : table.definition.typeOf? .label = some .text := by
    rw [hdefinition]
    decide
  have htaken : ∀ value ∈ [Value.null], ∃ bound, ColumnType.text.bind value = .ok bound := by
    simp [ColumnType.bind]
  have hagrees := hall _ "graph" "vertices" table ⟨writeHalfLabelled, rfl⟩ htable unlabelled hmem
    .label .text [.null] htype htaken
  rw [rowMatches_isIn_agrees_iff (TableDefinition.resolve_nativeName htype) unlabelled.1
    unlabelled.2 htaken, StoredRow.valueOf, hnone] at hagrees
  exact hagrees ⟨rfl, by simp⟩

end StoredTable

end WideGraph
