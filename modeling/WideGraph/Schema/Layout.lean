import WideGraph.Schema.Definition
import WideGraph.Schema.ElementKind

/-!
# The layout of a graph

The definition of the table that keeps each kind of element, and the columns into which an
identifier of that kind decodes.
-/

namespace WideGraph.ElementKind

/-- The table of a kind. Schema elements are rows of text under their names; a vertex is a row
under its id; an edge is clustered under its owner by all that tells it from the owner's other
edges; an index row keeps the ids of the elements found under a field value and an index label. -/
def layout : ElementKind → TableDefinition
  | .vertexLabel => (TableDefinition.named "vertex_labels")
    |>.partitionKey .name .text
    |>.column .idStrategy .text
    |>.column .primaryKeys .text
    |>.column .nullableKeys .text
    |>.column .indexNames .text
    |>.column .properties .text
  | .edgeLabel => (TableDefinition.named "edge_labels")
    |>.partitionKey .name .text
    |>.column .sourceLabel .text
    |>.column .targetLabel .text
    |>.column .frequency .text
    |>.column .sortKeys .text
    |>.column .nullableKeys .text
    |>.column .indexNames .text
    |>.column .properties .text
  | .propertyKey => (TableDefinition.named "property_keys")
    |>.partitionKey .name .text
    |>.column .dataType .text
    |>.column .cardinality .text
    |>.column .properties .text
  | .indexLabel => (TableDefinition.named "index_labels")
    |>.partitionKey .name .text
    |>.clusteringKey .baseType .text
    |>.clusteringKey .baseValue .text
    |>.column .indexType .text
    |>.column .fields .text
  | .vertex => (TableDefinition.named "vertices")
    |>.partitionKey .id .text
    |>.column .label .text
    |>.column .properties .textMap
    |>.index "vertex_label_index" .label
  | .edge => (TableDefinition.named "edges")
    |>.partitionKey .ownerVertex .text
    |>.clusteringKey .direction .text
    |>.clusteringKey .label .text
    |>.clusteringKey .sortValues .text
    |>.clusteringKey .otherVertex .text
    |>.column .properties .textMap
    |>.index "edge_label_index" .label
  | .secondaryIndex => (TableDefinition.named "secondary_indexes")
    |>.partitionKey .fieldValues .text
    |>.clusteringKey .indexLabelName .text
    |>.column .elementIds .textSet
  | .searchIndex => (TableDefinition.named "search_indexes")
    |>.partitionKey .indexLabelName .text
    |>.clusteringKey .fieldValues .decimal
    |>.column .elementIds .textSet

/-- The columns into which an identifier decodes, in the order of its parts. -/
def idColumns : ElementKind → List Column
  | .vertex => [.id]
  | .edge => [.ownerVertex, .direction, .label, .sortValues, .otherVertex]
  | .secondaryIndex => [.fieldValues, .indexLabelName]
  | .searchIndex => [.indexLabelName, .fieldValues]
  | _ => [.name]

/-- No built-in layout has a fault. -/
theorem fault?_layout (kind : ElementKind) : kind.layout.fault? = none := by
  cases kind <;> decide

end WideGraph.ElementKind
