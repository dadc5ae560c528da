import WideGraph.Bindings
import WideGraph.Text.LetterCase

/-!
# Columns and their types

Every table draws its columns from one fixed list. A column has a native name in upper case and is
found under any letter case, because the store folds names that are not quoted.
-/

namespace WideGraph

/-- The columns that tables may have. -/
inductive Column where
  | id
  | name
  | label
  | properties
  | ownerVertex
  | direction
  | sortValues
  | otherVertex
  | fieldValues
  | indexLabelName
  | elementIds
  | idStrategy
  | primaryKeys
  | nullableKeys
  | indexNames
  | sourceLabel
  | targetLabel
  | frequency
  | sortKeys
  | dataType
  | cardinality
  | baseType
  | baseValue
  | indexType
  | fields
deriving DecidableEq, Repr

namespace Column

/-- Every column, in the order in which an entry lists them. -/
def all : List Column :=
  [.id, .name, .label, .properties, .ownerVertex, .direction, .sortValues, .otherVertex,
    .fieldValues, .indexLabelName, .elementIds, .idStrategy, .primaryKeys, .nullableKeys,
    .indexNames, .sourceLabel, .targetLabel, .frequency, .sortKeys, .dataType, .cardinality,
    .baseType, .baseValue, .indexType, .fields]

/-- The native name of a column. -/
def nativeName : Column → String
  | .id => "ID"
  | .name => "NAME"
  | .label => "LABEL"
  | .properties => "PROPERTIES"
  | .ownerVertex => "OWNER_VERTEX"
  | .direction => "DIRECTION"
  | .sortValues => "SORT_VALUES"
  | .otherVertex => "OTHER_VERTEX"
  | .fieldValues => "FIELD_VALUES"
  | .indexLabelName => "INDEX_LABEL_NAME"
  | .elementIds => "ELEMENT_IDS"
  | .idStrategy => "ID_STRATEGY"
  | .primaryKeys => "PRIMARY_KEYS"
  | .nullableKeys => "NULLABLE_KEYS"
  | .indexNames => "INDEX_NAMES"
  | .sourceLabel => "SOURCE_LABEL"
  | .targetLabel => "TARGET_LABEL"
  | .frequency => "FREQUENCY"
  | .sortKeys => "SORT_KEYS"
  | .dataType => "DATA_TYPE"
  | .cardinality => "CARDINALITY"
  | .baseType => "BASE_TYPE"
  | .baseValue => "BASE_VALUE"
  | .indexType => "INDEX_TYPE"
  | .fields => "FIELDS"

/-- The name of a column in tagged form. -/
def tag (column : Column) : String :=
  Text.camelCase column.nativeName

/-- The place of a column in the list of all. -/
def rank (column : Column) : Nat :=
  all.idxOf column

/-- The column with the given name, in any letter case. -/
def ofName? (name : String) : Option Column :=
  all.find? fun column => column.nativeName == Text.upper name

/-- What is said about a name that is no column's. -/
def unknownName (name : String) : String :=
  "unknown column key '" ++ name ++ "'"

instance : Ord Column := ⟨compareOn rank⟩

instance : Std.TransOrd Column := inferInstanceAs (Std.TransCmp (compareOn rank))

/-- Two columns at the same place are the same column. -/
theorem eq_of_compare {a b : Column} (h : compare a b = .eq) : a = b := by
  revert h; cases a <;> cases b <;> decide

instance : Std.LawfulEqOrd Column where
  eq_of_compare := eq_of_compare

/-- A column is found under its own name. -/
theorem ofName?_nativeName (column : Column) : ofName? column.nativeName = some column := by
  cases column <;> decide

end Column

/-- The types of columns. -/
inductive ColumnType where
  | text
  | decimal
  | textSet
  | textMap
deriving DecidableEq, Repr

/-- The name of a type in a statement. -/
def ColumnType.nativeName : ColumnType → String
  | .text => "text"
  | .decimal => "decimal"
  | .textSet => "set<text>"
  | .textMap => "map<text, text>"

end WideGraph
