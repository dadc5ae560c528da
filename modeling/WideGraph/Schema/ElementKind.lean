import WideGraph.Text.LetterCase

/-!
# Kinds of graph elements

A graph is kept in eight tables, one for each kind of element: four for its schema, one each for
vertices and edges, and two for the indexes on them.
-/

namespace WideGraph

/-- What a table keeps. -/
inductive ElementKind where
  | vertexLabel
  | edgeLabel
  | propertyKey
  | indexLabel
  | vertex
  | edge
  | secondaryIndex
  | searchIndex
deriving DecidableEq, Repr

namespace ElementKind

/-- Every kind, those of the schema first. -/
def all : List ElementKind :=
  [.vertexLabel, .edgeLabel, .propertyKey, .indexLabel, .vertex, .edge, .secondaryIndex,
    .searchIndex]

/-- The name of a kind. -/
def name : ElementKind → String
  | .vertexLabel => "vertex_label"
  | .edgeLabel => "edge_label"
  | .propertyKey => "property_key"
  | .indexLabel => "index_label"
  | .vertex => "vertex"
  | .edge => "edge"
  | .secondaryIndex => "secondary_index"
  | .searchIndex => "search_index"

/-- The name of a kind in tagged form. -/
def tag (kind : ElementKind) : String :=
  Text.camelCase kind.name

/-- The kind with the given name. -/
def ofName? (name : String) : Option ElementKind :=
  all.find? fun kind => kind.name == name

/-- Whether a kind is one of the indexes. -/
def isIndex : ElementKind → Bool
  | .secondaryIndex | .searchIndex => true
  | _ => false

/-- A kind is found under its own name. -/
theorem ofName?_name (kind : ElementKind) : ofName? kind.name = some kind := by
  cases kind <;> decide

end ElementKind

end WideGraph
