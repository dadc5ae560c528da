import WideGraph.Schema.Column
import WideGraph.Sorting

/-!
# Table definitions

A table is declared by its partition keys, which decide where a row lives, its clustering keys,
which order the rows of one partition, its regular columns, and the indexes on any of these. A
definition is grown from a bare name one declaration at a time.
-/

namespace WideGraph

/-- A column of a table with its type. -/
structure ColumnDeclaration where
  column : Column
  type : ColumnType
deriving DecidableEq, Repr

/-- A named index on one column. -/
structure IndexDeclaration where
  name : String
  column : Column
deriving DecidableEq, Repr

/-- What a table consists of. -/
structure TableDefinition where
  name : String
  partitionKeys : List ColumnDeclaration
  clusteringKeys : List ColumnDeclaration
  regularColumns : List ColumnDeclaration
  indexes : List IndexDeclaration
deriving DecidableEq, Repr

namespace TableDefinition

/-- The definition of a table without columns. -/
def named (name : String) : TableDefinition :=
  ⟨name, [], [], [], []⟩

/-- Add a partition key behind the ones there are. -/
def partitionKey (d : TableDefinition) (column : Column) (type : ColumnType) : TableDefinition :=
  { d with partitionKeys := d.partitionKeys ++ [⟨column, type⟩] }

/-- Add a clustering key behind the ones there are. -/
def clusteringKey (d : TableDefinition) (column : Column) (type : ColumnType) : TableDefinition :=
  { d with clusteringKeys := d.clusteringKeys ++ [⟨column, type⟩] }

/-- Add a regular column. -/
def column (d : TableDefinition) (column : Column) (type : ColumnType) : TableDefinition :=
  { d with regularColumns := d.regularColumns ++ [⟨column, type⟩] }

/-- Add an index. -/
def index (d : TableDefinition) (name : String) (column : Column) : TableDefinition :=
  { d with indexes := d.indexes ++ [⟨name, column⟩] }

/-- All declarations in the order in which they are written. -/
def declarations (d : TableDefinition) : List ColumnDeclaration :=
  d.partitionKeys ++ d.clusteringKeys ++ d.regularColumns

/-- All declarations in the order in which rows list them: keys first, then the regular columns by
their names. -/
def rowOrder (d : TableDefinition) : List ColumnDeclaration :=
  d.partitionKeys ++ d.clusteringKeys ++
    sortStable (fun a b => compare a.column.nativeName b.column.nativeName) d.regularColumns

/-- The partition key columns. -/
def partitionColumns (d : TableDefinition) : List Column :=
  d.partitionKeys.map (·.column)

/-- The clustering key columns. -/
def clusteringColumns (d : TableDefinition) : List Column :=
  d.clusteringKeys.map (·.column)

/-- The native names of the partition key columns. -/
def partitionNames (d : TableDefinition) : List String :=
  d.partitionColumns.map Column.nativeName

/-- The type of a declared column. -/
def typeOf? (d : TableDefinition) (column : Column) : Option ColumnType :=
  (d.declarations.find? fun declared => declared.column == column).map (·.type)

/-- Whether a column is part of the partition key. -/
def isPartitionKey (d : TableDefinition) (column : Column) : Bool :=
  d.partitionColumns.contains column

/-- Whether a column is a clustering key. -/
def isClusteringKey (d : TableDefinition) (column : Column) : Bool :=
  d.clusteringColumns.contains column

/-- Whether a column is part of the primary key. -/
def isPrimaryKey (d : TableDefinition) (column : Column) : Bool :=
  d.isPartitionKey column || d.isClusteringKey column

/-- Whether an index is declared on a column. -/
def isIndexed (d : TableDefinition) (column : Column) : Bool :=
  d.indexes.any fun index => index.column == column

end TableDefinition

/-- What keeps a definition from being used. -/
inductive DefinitionFault where
  | noPartitionKey (table : String)
  | declaredTwice (column : Column) (table : String)
  | undeclaredIndexColumn (index : String) (column : Column)
deriving DecidableEq, Repr

namespace DefinitionFault

/-- The wording of a fault. -/
def message : DefinitionFault → String
  | .noPartitionKey table => "table '" ++ table ++ "' must declare at least one partition key"
  | .declaredTwice column table =>
    "column " ++ column.nativeName ++ " declared twice in table '" ++ table ++ "'"
  | .undeclaredIndexColumn index column =>
    "index '" ++ index ++ "' references undeclared column " ++ column.nativeName

end DefinitionFault

/-- The first column that occurs again further on the left. -/
def firstRepeated? (seen : List Column) : List Column → Option Column
  | [] => none
  | column :: rest =>
    if seen.contains column then some column else firstRepeated? (column :: seen) rest

/-- The first thing wrong with a definition: no partition key, else a column declared twice, else
an index on a column that is not declared. -/
def TableDefinition.fault? (d : TableDefinition) : Option DefinitionFault :=
  let columns := d.declarations.map (·.column)
  if d.partitionKeys = [] then some (.noPartitionKey d.name)
  else
    match firstRepeated? [] columns with
    | some column => some (.declaredTwice column d.name)
    | none =>
      (d.indexes.find? fun index => !columns.contains index.column).map fun index =>
        .undeclaredIndexColumn index.name index.column

/-- One declaration of a table. -/
inductive Declaration where
  | partitionKey (column : Column) (type : ColumnType)
  | clusteringKey (column : Column) (type : ColumnType)
  | column (column : Column) (type : ColumnType)
  | index (name : String) (column : Column)
deriving DecidableEq, Repr

namespace TableDefinition

/-- The definition grown by one declaration. -/
def declare (d : TableDefinition) : Declaration → TableDefinition
  | .partitionKey column type => d.partitionKey column type
  | .clusteringKey column type => d.clusteringKey column type
  | .column column type => d.column column type
  | .index name column => d.index name column

/-- The definition that declarations grow from a bare name, if nothing is wrong with it. -/
def build (name : String) (declarations : List Declaration) :
    Except DefinitionFault TableDefinition :=
  let d := declarations.foldl declare (named name)
  match d.fault? with
  | some fault => .error fault
  | none => .ok d

end TableDefinition

/-- A change of the schema. -/
inductive SchemaStatement where
  | createTable (definition : TableDefinition)
  | dropTable (table : String)
  | createIndex (index : String) (table : String) (column : Column)
deriving DecidableEq, Repr

namespace TableDefinition

/-- The statement that creates the table. -/
def createTable (d : TableDefinition) : SchemaStatement :=
  .createTable d

/-- The statement that drops the table. -/
def dropTable (d : TableDefinition) : SchemaStatement :=
  .dropTable d.name

/-- The statements that create the declared indexes. -/
def createIndexes (d : TableDefinition) : List SchemaStatement :=
  d.indexes.map fun index => .createIndex index.name d.name index.column

/-- The text of the statement that creates the table. -/
def createText (d : TableDefinition) : String :=
  let columns := d.declarations.map fun declared =>
    declared.column.nativeName ++ " " ++ declared.type.nativeName ++ ", "
  let clustering := d.clusteringColumns.map fun column => ", " ++ column.nativeName
  "CREATE TABLE IF NOT EXISTS " ++ d.name ++ " (" ++ String.join columns ++ "PRIMARY KEY ((" ++
    ", ".intercalate d.partitionNames ++ ")" ++ String.join clustering ++ "));"

end TableDefinition

/-- The text of a schema statement. -/
def SchemaStatement.text : SchemaStatement → String
  | .createTable definition => definition.createText
  | .dropTable table => "DROP TABLE IF EXISTS " ++ table ++ ";"
  | .createIndex index table column =>
    "CREATE INDEX IF NOT EXISTS " ++ index ++ " ON " ++ table ++ "(" ++ column.nativeName ++ ");"

end WideGraph
