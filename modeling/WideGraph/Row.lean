import WideGraph.Value.Identity
import WideGraph.Text.LetterCase

/-!
# Rows

A row as a store returns it: values under their column names, in the order of the answer. A column
is looked up in any letter case, and the first one with the name counts.
-/

namespace WideGraph

/-- Named values in the order of the answer. -/
structure Row where
  columns : List (String × Value)
deriving DecidableEq

namespace Row

/-- The value of the first column with the name. -/
def find? (row : Row) (name : String) : Option Value :=
  (row.columns.find? fun column => Text.sameIgnoringCase column.1 name).map (·.2)

/-- The text of the first column with the name, if that is a text. -/
def text? (row : Row) (name : String) : Option String :=
  (row.find? name).bind Value.text?

end Row

end WideGraph
