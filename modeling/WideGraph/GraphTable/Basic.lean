import WideGraph.Configuration
import WideGraph.Decimal.Literal
import WideGraph.Entry
import WideGraph.Schema.Layout

/-!
# The tables of a graph

A graph table is the table of one kind of element under some configuration. It knows how an
identifier of its kind decodes into the values of its key, and how the rows of one answer are
gathered into entries.
-/

namespace WideGraph

/-- The table of one kind of element. -/
structure GraphTable where
  kind : ElementKind
  configuration : Configuration := {}
deriving DecidableEq, Repr

namespace GraphTable

/-- The definition of the table. -/
def definition (table : GraphTable) : TableDefinition :=
  table.kind.layout

/-- The name of the table. -/
def name (table : GraphTable) : String :=
  table.definition.name

/-- The columns into which an identifier decodes. -/
def idColumns (table : GraphTable) : List Column :=
  table.kind.idColumns

/-- The table as it is shown in messages. -/
def shown (table : GraphTable) : String :=
  table.name ++ "(" ++ table.kind.name ++ ")"

/-- Every table of a graph, those of the schema first. -/
def all (configuration : Configuration) : List GraphTable :=
  ElementKind.all.map fun kind => ⟨kind, configuration⟩

/-- The value of one part of an identifier in its column; a decimal column takes a literal with
blanks around it, and any other the text itself. -/
def idPartValue? (table : GraphTable) (column : Column) (part : String) : Option Value :=
  match table.definition.typeOf? column with
  | some .decimal => (Decimal.literal? (Text.trim part.toList)).map .decimal
  | _ => some (.text part)

/-- The values of the parts of an identifier in their columns, if there are as many parts as
columns and each has a value. -/
def idPartValues? (table : GraphTable) : List Column → List String → Option (List (Column × Value))
  | [], [] => some []
  | column :: columns, part :: parts =>
    match table.idPartValue? column part, table.idPartValues? columns parts with
    | some value, some rest => some ((column, value) :: rest)
    | _, _ => none
  | _, _ => none

end GraphTable

/-- The parts of an identifier of a kind. An edge is read as outgoing unless it says otherwise, an
index row is split, and any other identifier is one part as it stands. -/
def ElementKind.idParts (kind : ElementKind) (id : Identifier) : List String :=
  match kind with
  | .edge => id.edgeParts .outgoing
  | .secondaryIndex | .searchIndex => id.split
  | _ => [id.text]

namespace GraphTable

/-- The key values that an identifier decodes into, one for each id column. -/
def idKeyValues (table : GraphTable) (id : Identifier) :
    Except BackendError (List (Column × Value)) :=
  match table.idPartValues? table.idColumns (table.kind.idParts id) with
  | some values => .ok values
  | none => .error (.malformedId id table.idColumns)

end GraphTable

end WideGraph
