import WideGraph.Schema.Column
import WideGraph.Value.Identity

/-!
# Values by column

The columns of an entry and the cells of a stored row are values listed by their columns, each
column at most once and in the order of all columns.
-/

namespace WideGraph

/-- Values bound to columns. -/
structure ColumnValues where
  bindings : List (Column × Value)
  increasing : Increasing bindings
deriving DecidableEq

namespace ColumnValues

/-- No column has a value. -/
def empty : ColumnValues :=
  ⟨[], List.Pairwise.nil⟩

/-- The value of a column, if it has one. -/
def find? (values : ColumnValues) (column : Column) : Option Value :=
  Bindings.find? column values.bindings

/-- Give a column a value in place of the one it had. -/
def set (values : ColumnValues) (column : Column) (value : Value) : ColumnValues :=
  ⟨Bindings.insert column value values.bindings,
    Bindings.increasing_insert column value values.increasing⟩

/-- Take the value of a column away. -/
def erase (values : ColumnValues) (column : Column) : ColumnValues :=
  ⟨Bindings.erase column values.bindings, Bindings.increasing_filter _ values.increasing⟩

/-- The values of the given pairs, of which the last for a column stays. -/
def ofList (pairs : List (Column × Value)) : ColumnValues :=
  pairs.foldl (fun values pair => values.set pair.1 pair.2) empty

/-- The columns that have a value. -/
def columns (values : ColumnValues) : List Column :=
  values.bindings.map (·.1)

/-- Whether no column has a value. -/
def isEmpty (values : ColumnValues) : Bool :=
  values.bindings.isEmpty

@[simp] theorem find?_empty (column : Column) : empty.find? column = none :=
  rfl

@[simp] theorem find?_set (values : ColumnValues) (column : Column) (value : Value) (other : Column) :
    (values.set column value).find? other =
      if other = column then some value else values.find? other := by
  rw [find?, set, Bindings.find?_insert]
  by_cases h : other = column
  · simp [h]
  · have hne : compare other column ≠ .eq := fun heq => h (Column.eq_of_compare heq)
    simp [h, hne, find?]

@[simp] theorem find?_erase (values : ColumnValues) (column other : Column) :
    (values.erase column).find? other = if other = column then none else values.find? other := by
  rw [find?, erase, Bindings.find?_erase]
  by_cases h : other = column
  · simp [h]
  · have hne : compare other column ≠ .eq := fun heq => h (Column.eq_of_compare heq)
    simp [h, hne, find?]

/-- Values that agree on every column are equal. -/
theorem eq_of_find? {a b : ColumnValues} (h : ∀ column, a.find? column = b.find? column) : a = b := by
  have hb : a.bindings = b.bindings := Bindings.eq_of_find? a.increasing b.increasing h
  cases a
  cases b
  simp_all

end ColumnValues

end WideGraph
