import WideGraph.Schema.Column

/-!
# Failures of the store

What a store reports when it cannot answer a statement. A session over some other store passes on
that store's own words.
-/

namespace WideGraph

/-- Why a store refused a statement. -/
inductive StoreError where
  | unconfiguredTable (table : String)
  | undefinedColumn (name : String) (table : String)
  | invalidValue (kindName : String) (type : ColumnType)
  | missingKeyPart (column : Column)
  | tokenArguments (table : String)
  | containsKeyOnNonMap (column : String)
  | filteringRequired
  | invalidToken (token : String)
  | orderOutsideClustering (column : String)
  | updateNotByEquality
  | keyPartAssigned (column : Column)
  | notACollection (type : ColumnType)
  | invalidAssignment (column : String) (type : ColumnType)
  | deleteNotByEquality
  | deleteUnrestricted
  | missingKeyColumn
  | reported (message : String)
deriving DecidableEq, Repr

namespace StoreError

/-- The wording of a failure. -/
def message : StoreError → String
  | .unconfiguredTable table => "unconfigured table " ++ table
  | .undefinedColumn name table => "Undefined column name " ++ name ++ " in table " ++ table
  | .invalidValue kindName type =>
    "Invalid " ++ kindName ++ " value for column of type " ++ type.nativeName
  | .missingKeyPart column => "Missing mandatory PRIMARY KEY part " ++ column.nativeName
  | .tokenArguments table =>
    "The token function arguments must be the partition key of " ++ table
  | .containsKeyOnNonMap column => "Cannot use CONTAINS KEY on non-map column " ++ column
  | .filteringRequired =>
    "Cannot execute this query as it might involve data filtering and thus may have " ++
      "unpredictable performance. If you want to execute this query despite the performance " ++
      "unpredictability, use ALLOW FILTERING"
  | .invalidToken token => "Invalid token literal " ++ token
  | .orderOutsideClustering column =>
    "Order by is currently only supported on the clustered columns, got " ++ column
  | .updateNotByEquality => "UPDATE only accepts equality on primary key columns"
  | .keyPartAssigned column => "PRIMARY KEY part " ++ column.nativeName ++ " found in SET part"
  | .notACollection type =>
    "Invalid operation for non-collection column of type " ++ type.nativeName
  | .invalidAssignment column type =>
    "Invalid assignment for column " ++ column ++ " of type " ++ type.nativeName
  | .deleteNotByEquality => "DELETE only accepts equality restrictions"
  | .deleteUnrestricted => "DELETE needs a WHERE clause"
  | .missingKeyColumn => "missing key column"
  | .reported message => message

end StoreError

end WideGraph
