import WideGraph.Proofs.Store.Answer
import WideGraph.Proofs.Text.WordLiteral
import WideGraph.Query.Compiled

/-!
# Conditions read directly

What a condition says of a row is defined here on the condition itself, from the row's token and
what is seen in its columns. The clause of a condition evaluates to the same, if a column without a
cell is seen as null. Seen as missing, such a column satisfies no relation; the two readings differ
only where a list of alternatives has a null in it.
-/

namespace WideGraph

namespace TableDefinition

/-- Something is seen in the column that a name stands for, and passes a test for the column's
type. -/
def seesIn (d : TableDefinition) (cell? : Column → Option Value) (name : String)
    (test : ColumnType → Value → Bool) : Bool :=
  match d.resolve name with
  | .ok (column, type) => (cell? column).any (test type)
  | .error _ => false

end TableDefinition

/-- The form in which a type keeps a value passes a test. -/
def ColumnType.boundPasses (type : ColumnType) (value : Value) (test : Value → Bool) : Bool :=
  match type.bind value with
  | .ok bound => test bound
  | .error _ => false

/-- The token behind the last one of a scan. -/
def Value.scanEnd? : Value → Option Int64
  | .text literal => Text.wordLiteral? literal
  | .bigint n => some n
  | _ => none

/-- A token is in the range of a scan, its end excluded. -/
def inScan (token : Int64) (start : String) (stop : Value) : Bool :=
  match Text.wordLiteral? start, stop.scanEnd? with
  | some first, some last => decide (first ≤ token) && decide (token < last)
  | _, _ => false

/-- What a relation says of a row, from its token and what is seen in its columns. Only what is seen
and is not null compares with anything. -/
def Relation.holds (d : TableDefinition) (token : Int64) (cell? : Column → Option Value)
    (relation : Relation) : Bool :=
  match relation.kind, relation.operand with
  | .compare comparison, operand =>
    d.seesIn cell? relation.key fun type cell => !cell.isNull &&
      type.boundPasses operand.toValue fun bound => comparison.accepts (cell.order bound)
  | .notEqual, operand =>
    d.seesIn cell? relation.key fun type cell => !cell.isNull &&
      type.boundPasses operand.toValue fun bound => !cell.same bound
  | .isIn, .list items =>
    d.seesIn cell? relation.key fun type cell => items.any fun item =>
      type.boundPasses item.toValue fun bound => bound.same cell
  | .isIn, _ => false
  | .containsKey, operand =>
    d.seesIn cell? relation.key fun _ cell =>
      match cell with
      | .map m => m.containsKey operand.toValue.plain
      | _ => false
  | .scan, operand => inScan token relation.key operand.toValue

/-- What a condition says of a row. -/
def Condition.holds (d : TableDefinition) (token : Int64) (cell? : Column → Option Value) :
    Condition → Bool
  | .and left right => left.holds d token cell? && right.holds d token cell?
  | .or left right => left.holds d token cell? || right.holds d token cell?
  | .relation r => r.holds d token cell?

namespace StoredRow

/-- Every column of a row seen, null where there is no cell. -/
def filled (row : StoredRow) (column : Column) : Option Value :=
  some (row.valueOf column)

end StoredRow

namespace Operand

/-- The values of several operands are those of each. -/
theorem toValues_eq_map (items : List Operand) : toValues items = items.map toValue := by
  induction items with
  | nil => rfl
  | cons item rest ih => rw [toValues, ih, List.map_cons]

end Operand

namespace StoredTable

/-- A value found to be among others is the same as the bound form of one of them, and a value found
not to be is the same as none. -/
theorem eq_any_of_isAmong {type : ColumnType} {current : Value} {values : List Value} {b : Bool}
    (h : isAmong type current values = .ok b) :
    b = values.any fun value => type.boundPasses value fun bound => bound.same current := by
  induction values with
  | nil =>
    cases h
    rfl
  | cons value rest ih =>
    rw [isAmong] at h
    rw [List.any_cons, ColumnType.boundPasses]
    cases hbind : type.bind value with
    | error e => simp [hbind] at h
    | ok bound =>
      simp only [hbind] at h ⊢
      cases hsame : bound.same current with
      | true =>
        rw [hsame] at h
        cases h
        rfl
      | false =>
        rw [hsame] at h
        rw [Bool.false_or]
        exact ih h

/-- The bounds of a scan are decided as it is read. -/
theorem rowMatches_scan {table : StoredTable} {key : RowKey} {row : StoredRow}
    {columns : List String} {start stop : String} {value : Value}
    (hstop : value.scanEnd? = Text.wordLiteral? stop) {b : Bool}
    (h : table.rowMatches key row (.and (.tokenAtLeast columns start) (.tokenBelow columns stop)) =
      .ok b) : b = inScan key.token start value := by
  rw [inScan, hstop]
  simp only [rowMatches, tokenOf] at h
  cases hfirst : Text.wordLiteral? start with
  | none => simp [hfirst, bind, Except.bind] at h
  | some first =>
    simp only [hfirst, bind, Except.bind] at h
    cases hlow : decide (first ≤ key.token) with
    | false =>
      rw [hlow] at h
      cases h
      cases Text.wordLiteral? stop <;> simp [hlow]
    | true =>
      rw [hlow] at h
      cases hlast : Text.wordLiteral? stop with
      | none => simp [hlast] at h
      | some last =>
        simp only [hlast, Except.ok.injEq] at h
        simp [hlow, ← h]

/-- If the clause of a relation is decided for a row, it is decided as the relation is read with
every column seen. -/
theorem eq_holds_of_rowMatches_relation {table : StoredTable} {key : RowKey} {row : StoredRow}
    {relation : Relation} {columns : List String} {clause : Clause}
    (hclause : relation.toClause columns = .ok clause) {b : Bool}
    (h : table.rowMatches key row clause = .ok b) :
    b = relation.holds table.definition key.token row.filled := by
  obtain ⟨name, kind, operand⟩ := relation
  cases kind with
  | compare comparison =>
    cases hclause
    obtain ⟨column, type, bound, hresolve, hbind, rfl⟩ := rowMatches_compare_eq_ok_iff.mp h
    simp [Relation.holds, TableDefinition.seesIn, hresolve, StoredRow.filled,
      ColumnType.boundPasses, hbind]
  | notEqual => cases hclause
  | isIn =>
    cases operand with
    | list items =>
      cases hclause
      obtain ⟨column, type, hresolve, hamong⟩ := rowMatches_isIn_eq_ok_iff.mp h
      simp only [Relation.holds, TableDefinition.seesIn, hresolve]
      rw [eq_any_of_isAmong hamong, Operand.toValues_eq_map, List.any_map]
      rfl
    | _ => cases hclause
  | containsKey =>
    cases hclause
    rw [rowMatches] at h
    obtain ⟨⟨column, type⟩, hresolve, hcontains⟩ := bind_ok_iff.mp h
    simp only [Relation.holds, TableDefinition.seesIn, hresolve, StoredRow.filled, Option.any_some]
    cases hvalue : row.valueOf column <;>
      simp only [hvalue, Except.ok.injEq] at hcontains <;> exact hcontains.symm
  | scan =>
    simp only [Relation.holds]
    cases hvalue : operand.toValue with
    | text stop =>
      simp only [Relation.toClause, hvalue, Except.ok.injEq] at hclause
      subst hclause
      exact rowMatches_scan rfl h
    | bigint stop =>
      simp only [Relation.toClause, hvalue, Except.ok.injEq] at hclause
      subst hclause
      refine rowMatches_scan ?_ h
      rw [Text.wordLiteral?_toString stop.minValue_le_toInt stop.toInt_le, Int64.ofInt_toInt]
      rfl
    | _ => simp [Relation.toClause, hvalue] at hclause

/-- If the clause of a condition is decided for a row, it is decided as the condition is read with
every column seen. -/
theorem eq_holds_of_rowMatches {table : StoredTable} {key : RowKey} {row : StoredRow}
    {condition : Condition} {columns : List String} {clause : Clause}
    (hclause : condition.toClause columns = .ok clause) {b : Bool}
    (h : table.rowMatches key row clause = .ok b) :
    b = condition.holds table.definition key.token row.filled := by
  induction condition generalizing clause b with
  | relation relation => exact eq_holds_of_rowMatches_relation hclause h
  | or left right => cases hclause
  | and left right ihl ihr =>
    rw [Condition.toClause] at hclause
    split at hclause
    · cases hclause
    · rename_i l hl
      split at hclause
      · cases hclause
      · rename_i r hr
        cases hclause
        rw [rowMatches] at h
        rw [Condition.holds]
        split at h
        · cases h
        · rename_i hleft
          cases h
          rw [← ihl hl hleft, Bool.false_and]
        · rename_i hleft
          rw [← ihl hl hleft, Bool.true_and]
          exact ihr hr h

end StoredTable

/-- A relation accepts a row for want of a cell: the row has none in its column, and the list of
alternatives has a null in it. -/
def Relation.acceptsMissing (d : TableDefinition) (cell? : Column → Option Value)
    (relation : Relation) : Bool :=
  match relation.kind, relation.operand with
  | .isIn, .list items =>
    match d.resolve relation.key with
    | .ok (column, _) => (cell? column).isNone && items.any fun item => item.toValue.isNull
    | .error _ => false
  | _, _ => false

namespace Condition

/-- The relations of a condition, from left to right. -/
def relations : Condition → List Relation
  | .and left right | .or left right => left.relations ++ right.relations
  | .relation r => [r]

/-- A condition that has a clause says that all its relations hold. -/
theorem holds_eq_all {condition : Condition} {columns : List String} {clause : Clause}
    (h : condition.toClause columns = .ok clause) (d : TableDefinition) (token : Int64)
    (cell? : Column → Option Value) :
    condition.holds d token cell? = condition.relations.all (·.holds d token cell?) := by
  induction condition generalizing clause with
  | relation r => simp [holds, relations]
  | or left right => cases h
  | and left right ihl ihr =>
    rw [toClause] at h
    split at h
    · cases h
    · rename_i hl
      split at h
      · cases h
      · rename_i hr
        rw [holds, relations, List.all_append, ihl hl, ihr hr]

end Condition

/-- The bound form of a value is the same as null only if the value is null. -/
theorem ColumnType.boundPasses_same_null (type : ColumnType) (value : Value) :
    (type.boundPasses value fun bound => bound.same .null) = value.isNull := by
  cases type <;> cases value <;> rfl

namespace StoredRow

variable (d : TableDefinition) (token : Int64) (row : StoredRow)

/-- Of a column with a cell the same is seen whether or not missing cells are filled; of any other
column null is seen, or nothing. -/
theorem seesIn_filled (name : String) (test : ColumnType → Value → Bool) :
    d.seesIn row.filled name test = (d.seesIn row.cells.find? name test ||
      match d.resolve name with
      | .ok (column, type) => (row.cells.find? column).isNone && test type .null
      | .error _ => false) := by
  rw [TableDefinition.seesIn, TableDefinition.seesIn]
  cases d.resolve name with
  | error e => rfl
  | ok found =>
    obtain ⟨column, type⟩ := found
    simp only [filled, valueOf]
    cases row.cells.find? column <;> simp

/-- A relation that no null passes is read the same whether or not missing cells are filled. -/
theorem seesIn_filled_of_not_null (name : String) {test : ColumnType → Value → Bool}
    (htest : ∀ type, test type .null = false) :
    d.seesIn row.filled name test = d.seesIn row.cells.find? name test := by
  rw [seesIn_filled]
  cases d.resolve name <;> simp [htest]

/-- With missing cells seen as null a relation holds of the rows of which it holds otherwise, and of
those that it accepts for want of a cell. -/
theorem holds_filled (relation : Relation) :
    relation.holds d token row.filled =
      (relation.holds d token row.cells.find? || relation.acceptsMissing d row.cells.find?) := by
  obtain ⟨name, kind, operand⟩ := relation
  cases kind with
  | isIn =>
    cases operand with
    | list items =>
      simp only [Relation.holds, Relation.acceptsMissing]
      rw [seesIn_filled]
      simp only [ColumnType.boundPasses_same_null]
    | _ => rfl
  | scan => simp [Relation.holds, Relation.acceptsMissing]
  | _ =>
    simp only [Relation.holds, Relation.acceptsMissing, Bool.or_false]
    exact seesIn_filled_of_not_null d row name fun _ => rfl

/-- A relation does not hold of a row that it accepts for want of a cell. -/
theorem not_holds_of_acceptsMissing {relation : Relation}
    (h : relation.acceptsMissing d row.cells.find? = true) :
    relation.holds d token row.cells.find? = false := by
  obtain ⟨name, kind, operand⟩ := relation
  rw [Relation.acceptsMissing.eq_def] at h
  split at h
  · rename_i items hkind hoperand
    change kind = .isIn at hkind
    change operand = .list items at hoperand
    subst hkind hoperand
    split at h
    · rename_i column type hresolve
      change d.resolve name = _ at hresolve
      rw [Bool.and_eq_true, Option.isNone_iff_eq_none] at h
      simp [Relation.holds, TableDefinition.seesIn, hresolve, h.1]
    · cases h
  · cases h

/-- A row of which a condition with a clause holds once its missing cells are filled satisfies the
condition as it is, unless one of the relations accepts it for want of a cell. -/
theorem holds_iff_of_filled {condition : Condition} {columns : List String} {clause : Clause}
    (hclause : condition.toClause columns = .ok clause)
    (hfilled : condition.holds d token row.filled = true) :
    condition.holds d token row.cells.find? = true ↔
      ∀ r ∈ condition.relations, r.acceptsMissing d row.cells.find? = false := by
  rw [Condition.holds_eq_all hclause, List.all_eq_true] at hfilled ⊢
  refine forall₂_congr fun r hr => ?_
  have hor := hfilled r hr
  rw [holds_filled, Bool.or_eq_true] at hor
  constructor
  · intro hholds
    rw [Bool.eq_false_iff]
    intro hmissing
    rw [not_holds_of_acceptsMissing d token row hmissing] at hholds
    cases hholds
  · intro hnot
    rw [hnot] at hor
    exact hor.resolve_right (by decide)

/-- A row that satisfies a condition as it is satisfies it with its missing cells filled. -/
theorem filled_of_holds {condition : Condition} {columns : List String} {clause : Clause}
    (hclause : condition.toClause columns = .ok clause)
    (h : condition.holds d token row.cells.find? = true) :
    condition.holds d token row.filled = true := by
  rw [Condition.holds_eq_all hclause, List.all_eq_true] at h ⊢
  intro r hr
  rw [holds_filled, h r hr, Bool.true_or]

end StoredRow

end WideGraph
