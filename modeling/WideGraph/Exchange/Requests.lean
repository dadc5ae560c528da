import WideGraph.Configuration
import WideGraph.Exchange.Values
import WideGraph.Query.Condition
import WideGraph.Schema.ElementKind
import WideGraph.TokenRange

/-!
# Conditions, definitions and settings as JSON

Names of columns, kinds, types and directions are alternatives without content. Records are written
with all their fields in order. Settings that are left out keep their defaults; every other field
has to be there.
-/

namespace WideGraph

/-- The name of a column type in tagged form. -/
def ColumnType.tag : ColumnType → String
  | .text => "Text"
  | .decimal => "Decimal"
  | .textSet => "TextSet"
  | .textMap => "TextMap"

namespace Exchange

/-- An identifier as JSON. -/
def ofIdentifier (id : Identifier) : Json :=
  .ofText id.text

/-- The identifier that a JSON value stands for. -/
def identifier? (json : Json) : Option Identifier :=
  json.text?.map Identifier.mk

/-- A direction as JSON. -/
def ofDirection (direction : Direction) : Json :=
  .ofText direction.tag

/-- The direction that a JSON value stands for. -/
def direction? (levels : Nat) (json : Json) : Option Direction :=
  Json.oneOf? Direction.tag [.outgoing, .incoming, .both] levels json

/-- A column as JSON. -/
def ofColumn (column : Column) : Json :=
  .ofText column.tag

/-- The column that a JSON value stands for. -/
def column? (levels : Nat) (json : Json) : Option Column :=
  Json.oneOf? Column.tag Column.all levels json

/-- A column type as JSON. -/
def ofColumnType (type : ColumnType) : Json :=
  .ofText type.tag

/-- The column type that a JSON value stands for. -/
def columnType? (levels : Nat) (json : Json) : Option ColumnType :=
  Json.oneOf? ColumnType.tag [.text, .decimal, .textSet, .textMap] levels json

/-- A kind of element as JSON. -/
def ofElementKind (kind : ElementKind) : Json :=
  .ofText kind.tag

/-- The kind of element that a JSON value stands for. -/
def elementKind? (levels : Nat) (json : Json) : Option ElementKind :=
  Json.oneOf? ElementKind.tag ElementKind.all levels json

mutual

/-- An operand as JSON. -/
def ofOperand : Operand → Json
  | .value v => .tagged "Value" (ofValue v)
  | .identifier id => .tagged "Id" (ofIdentifier id)
  | .direction d => .tagged "Direction" (ofDirection d)
  | .list items => .tagged "List" (.array (ofOperands items))

/-- Several operands as JSON. -/
def ofOperands : List Operand → List Json
  | [] => []
  | item :: rest => ofOperand item :: ofOperands rest

end

/-- The operand that a JSON value stands for. -/
def operand? : Nat → Json → Option Operand
  | 0, _ => none
  | levels + 1, json =>
    match Json.alternative? (levels + 1) json with
    | some ("Value", some (levels, content)) => (value? levels content).map .value
    | some ("Id", some (_, content)) => (identifier? content).map .identifier
    | some ("Direction", some (levels, content)) => (direction? levels content).map .direction
    | some ("List", some (_, .array items)) =>
      match levels with
      | 0 => none
      | levels + 1 => (Json.mapOption (operand? levels) items).map .list
    | _ => none

/-- A relation as JSON. -/
def ofRelation (relation : Relation) : Json :=
  .record [("key", .ofText relation.key), ("relation", .ofText relation.kind.tag),
    ("value", ofOperand relation.operand)]

/-- The relation that a JSON value stands for. -/
def relation? (levels : Nat) (json : Json) : Option Relation :=
  match Json.fields? ["key", "relation", "value"] levels json with
  | some (levels, [some key, some kind, some operand]) => do
    return ⟨← key.text?, ← Json.oneOf? RelationKind.tag RelationKind.all levels kind,
      ← operand? levels operand⟩
  | _ => none

/-- A condition as JSON. -/
def ofCondition : Condition → Json
  | .and left right => .tagged "And" (.array [ofCondition left, ofCondition right])
  | .or left right => .tagged "Or" (.array [ofCondition left, ofCondition right])
  | .relation r => .tagged "Relation" (ofRelation r)

/-- The condition that a JSON value stands for. -/
def condition? : Nat → Json → Option Condition
  | 0, _ => none
  | levels + 1, json =>
    match Json.alternative? (levels + 1) json with
    | some ("Relation", some (levels, content)) => (relation? levels content).map .relation
    | some (name, some (_, .array [left, right])) =>
      match levels with
      | 0 => none
      | levels + 1 =>
        match name, condition? levels left, condition? levels right with
        | "And", some left, some right => some (.and left right)
        | "Or", some left, some right => some (.or left right)
        | _, _, _ => none
    | _ => none

/-- A column declaration as JSON. -/
def ofColumnDeclaration (declared : ColumnDeclaration) : Json :=
  .record [("key", ofColumn declared.column), ("col_type", ofColumnType declared.type)]

/-- The column declaration that a JSON value stands for. -/
def columnDeclaration? (levels : Nat) (json : Json) : Option ColumnDeclaration :=
  match Json.fields? ["key", "col_type"] levels json with
  | some (levels, [some column, some type]) => do
    return ⟨← column? levels column, ← columnType? levels type⟩
  | _ => none

/-- An index declaration as JSON. -/
def ofIndexDeclaration (index : IndexDeclaration) : Json :=
  .record [("index_name", .ofText index.name), ("column", ofColumn index.column)]

/-- The index declaration that a JSON value stands for. -/
def indexDeclaration? (levels : Nat) (json : Json) : Option IndexDeclaration :=
  match Json.fields? ["index_name", "column"] levels json with
  | some (levels, [some name, some column]) => do
    return ⟨← name.text?, ← column? levels column⟩
  | _ => none

/-- A table definition as JSON. -/
def ofDefinition (d : TableDefinition) : Json :=
  .record [("name", .ofText d.name),
    ("partition_keys", .array (d.partitionKeys.map ofColumnDeclaration)),
    ("clustering_keys", .array (d.clusteringKeys.map ofColumnDeclaration)),
    ("columns", .array (d.regularColumns.map ofColumnDeclaration)),
    ("indexes", .array (d.indexes.map ofIndexDeclaration))]

/-- The table definition that a JSON value stands for, whether or not it has a fault. -/
def definition? (levels : Nat) (json : Json) : Option TableDefinition :=
  match Json.fields? ["name", "partition_keys", "clustering_keys", "columns", "indexes"] levels
      json with
  | some (levels, [some name, some partition, some clustering, some regular, some indexes]) => do
    return ⟨← name.text?, ← Json.listOf? columnDeclaration? levels partition,
      ← Json.listOf? columnDeclaration? levels clustering,
      ← Json.listOf? columnDeclaration? levels regular,
      ← Json.listOf? indexDeclaration? levels indexes⟩
  | _ => none

/-- A token range as JSON. -/
def ofTokenRange (range : TokenRange) : Json :=
  .record [("start", .ofText range.start), ("end", .ofText range.stop),
    ("length", .ofInt range.length)]

/-- The token range that a JSON value stands for. -/
def tokenRange? (levels : Nat) (json : Json) : Option TokenRange :=
  match Json.fields? ["start", "end", "length"] levels json with
  | some (_, [some start, some stop, some length]) => do
    return ⟨← start.text?, ← stop.text?, (← length.unsigned?).toNat⟩
  | _ => none

/-- Settings as JSON. -/
def ofConfiguration (c : Configuration) : Json :=
  .record [("keyspace", .ofText c.keyspace), ("default_split_size", .ofInt c.defaultSplitSize),
    ("max_query_statements", .ofInt c.maxQueryStatements)]

/-- The content of a field, or a default for a missing one. -/
def orDefault {α : Type} (default : α) (read : Json → Option α) : Option Json → Option α
  | none => some default
  | some json => read json

/-- The settings that a JSON value stands for, whether or not they have a fault. -/
def configuration? (levels : Nat) (json : Json) : Option Configuration :=
  let defaults : Configuration := {}
  match Json.fields? ["keyspace", "default_split_size", "max_query_statements"] levels json with
  | some (_, [keyspace, splitSize, maxStatements]) => do
    return ⟨← orDefault defaults.keyspace Json.text? keyspace,
      ← orDefault defaults.defaultSplitSize (fun j => j.unsigned?.map UInt64.toNat) splitSize,
      ← orDefault defaults.maxQueryStatements (fun j => j.unsigned?.map UInt64.toNat)
        maxStatements⟩
  | _ => none

/-- The settings that a JSON text describes, if nothing is wrong with them. -/
def readConfiguration (text : String) : Except BackendError Configuration :=
  match (Json.read? text).bind (configuration? Json.maxLevels) with
  | some configuration => configuration.validate
  | none => .error (.invalidConfig .malformedText)

end Exchange

end WideGraph
