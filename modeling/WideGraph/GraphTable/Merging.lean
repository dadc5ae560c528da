import WideGraph.GraphTable.Basic

/-!
# Gathering rows into entries

The rows of one answer are gathered by the kind of their table: a vertex takes its identifier from
its id column, the rows of edges are put below a vertex for each owner, and other rows are entries
as they are.
-/

namespace WideGraph

/-- The entry of a vertex row under the identifier in its id column. -/
def Entry.withVertexId (entry : Entry) : Entry :=
  match entry.row.text? .id with
  | some text => { entry with row := { entry.row with id := some ⟨text⟩ } }
  | none => entry

/-- The vertex that owns edges, with a first edge below it. -/
def Entry.owner (value : Value) (edge : EntryRow) : Entry where
  row := {
    kind := .vertex
    id := some ⟨value.plain⟩
    columns := (ColumnValues.empty.set .id value).set .properties (.map .empty) }
  subRows := [edge]

/-- Put an edge below the vertex of its owner, or below a new vertex behind the others. -/
def addEdge (value : Value) (edge : EntryRow) : List Entry → List Entry
  | [] => [Entry.owner value edge]
  | vertex :: rest =>
    if vertex.row.id = some ⟨value.plain⟩ then
      { vertex with subRows := vertex.subRows ++ [edge] } :: rest
    else vertex :: addEdge value edge rest

/-- Put the rows of edges below the given vertices, one after the other. -/
def mergeEdges (vertices : List Entry) : List Entry → Except BackendError (List Entry)
  | [] => .ok vertices
  | entry :: rest =>
    match entry.row.find? .ownerVertex with
    | none => .error (.contractViolation .mergeWithoutOwner)
    | some value => mergeEdges (addEdge value entry.row vertices) rest

/-- The entries of one answer gathered by their kind. -/
def ElementKind.merge (kind : ElementKind) (entries : List Entry) :
    Except BackendError (List Entry) :=
  match kind with
  | .vertex => .ok (entries.map Entry.withVertexId)
  | .edge => mergeEdges [] entries
  | _ => .ok entries

end WideGraph
