import WideGraph.StoreError
import WideGraph.Identifier
import WideGraph.Schema.Definition
import WideGraph.Query.Condition

/-!
# Failures of graph operations

Every way in which an operation on the graph can fail, with the code that callers branch on and
the text that people read. A text is the phrase of its code followed by what went wrong.
-/

namespace WideGraph

/-- The kinds of failure that callers tell apart. -/
inductive ErrorCode where
  | invalidMetadataName
  | invalidArgument
  | malformedId
  | unknownColumn
  | unsupported
  | contractViolation
  | invalidIndexMutation
  | invalidConfig
  | store
deriving DecidableEq, Repr

/-- The name of a code. -/
def ErrorCode.name : ErrorCode → String
  | .invalidMetadataName => "invalid_metadata_name"
  | .invalidArgument => "invalid_argument"
  | .malformedId => "malformed_id"
  | .unknownColumn => "unknown_column"
  | .unsupported => "unsupported"
  | .contractViolation => "contract_violation"
  | .invalidIndexMutation => "invalid_index_mutation"
  | .invalidConfig => "invalid_config"
  | .store => "store"

/-- An argument that an operation refuses. -/
inductive ArgumentFault where
  | conditionTooDeep (depth max : Nat)
  | limitTooLarge (limit : UInt64) (table : String) (max : Nat)
  | tooManySelects (table : String) (count max : Nat)
  | splitSizeZero
  | tooManySplits (size bytes count max : Nat)
  | wrongArgumentCount (name : String) (expected got : Nat)
  | splitSizeNotNatural (kindName : String)
deriving DecidableEq, Repr

/-- A request that the store has no way to express. -/
inductive UnsupportedRequest where
  | disjunction
  | deleteByIdWithColumns (table : String)
deriving DecidableEq, Repr

/-- A use of an operation against its rules. -/
inductive ContractFault where
  | definition (fault : DefinitionFault)
  | inequality (relation : Relation)
  | listExpected (relation : Relation)
  | scanEnd (kindName : String)
  | insertWithoutColumns (table : String)
  | nothingToModify (operation table : String)
  | missingKey (table : String) (column : Column)
  | mergeWithoutOwner

/-- A change that an index table does not take. -/
inductive IndexFault where
  | insertion
  | unmodifiableColumn (column : Column)
  | fieldValuesGiven (plain : String)
  | labelMissing
deriving DecidableEq, Repr

/-- A configuration that cannot be used. -/
inductive ConfigFault where
  | keyspaceName (keyspace : String)
  | splitSizeZero
  | unreadableFile (path reason : String)
  | malformedText
deriving DecidableEq, Repr

/-- A failure of an operation on the graph. -/
inductive BackendError where
  | invalidMetadataName (name : String)
  | invalidArgument (fault : ArgumentFault)
  | malformedId (id : Identifier) (expected : List Column)
  | unknownColumn (table column : String)
  | unsupported (request : UnsupportedRequest)
  | contractViolation (fault : ContractFault)
  | invalidIndexMutation (table : String) (fault : IndexFault)
  | invalidConfig (fault : ConfigFault)
  | store (context : String) (source : StoreError)

/-- What is wrong with an argument. -/
def ArgumentFault.message : ArgumentFault → String
  | .conditionTooDeep depth max =>
    "condition depth " ++ toString depth ++ " exceeds maximum allowed depth of " ++ toString max
  | .limitTooLarge limit table max =>
    "query limit " ++ toString limit.toNat ++ " on table '" ++ table ++ "' exceeds " ++ toString max
  | .tooManySelects table count max =>
    "query against '" ++ table ++ "' fans out into " ++ toString count ++ " statements (max " ++
      toString max ++ ")"
  | .splitSizeZero => "split size must be greater than zero"
  | .tooManySplits size bytes count max =>
    "split size " ++ toString size ++ " over " ++ toString bytes ++ " bytes yields " ++
      toString count ++ " splits (max " ++ toString max ++ ")"
  | .wrongArgumentCount name expected got =>
    "the args count of " ++ name ++ " must be " ++ toString expected ++ ", got " ++ toString got
  | .splitSizeNotNatural kindName =>
    "split size must be a non-negative integer, got " ++ kindName

/-- What the store cannot express. -/
def UnsupportedRequest.message : UnsupportedRequest → String
  | .disjunction => "OR conditions are not supported by the column-family store"
  | .deleteByIdWithColumns table => "delete from '" ++ table ++ "' by id together with columns"

/-- Which rule was broken. -/
def ContractFault.message : ContractFault → String
  | .definition fault => fault.message
  | .inequality relation => "unsupported relation: " ++ relation.shown
  | .listExpected relation => "relation '" ++ relation.shown ++ "' expects a list operand"
  | .scanEnd kindName => "scan end token must be text or bigint, got " ++ kindName
  | .insertWithoutColumns table => "insert into '" ++ table ++ "' needs at least one column"
  | .nothingToModify operation table =>
    operation ++ " on '" ++ table ++ "' has no collection column to modify"
  | .missingKey table column =>
    "mutation on '" ++ table ++ "' needs an id or the " ++ column.nativeName ++ " column"
  | .mergeWithoutOwner =>
    "edge row without " ++ Column.ownerVertex.nativeName ++ " cannot be merged"

/-- Why an index table refuses a change. -/
def IndexFault.message : IndexFault → String
  | .insertion => "insertion is not supported, use append"
  | .unmodifiableColumn column => "column " ++ column.nativeName ++ " is not modifiable"
  | .fieldValuesGiven plain =>
    "deletion should just have " ++ Column.indexLabelName.nativeName ++ ", but " ++
      Column.fieldValues.nativeName ++ " (" ++ plain ++ ") is provided"
  | .labelMissing =>
    "deletion needs " ++ Column.indexLabelName.nativeName ++ ", but not provided"

/-- What is wrong with a configuration. -/
def ConfigFault.message : ConfigFault → String
  | .keyspaceName keyspace => "invalid keyspace name '" ++ keyspace ++ "'"
  | .splitSizeZero => "default_split_size must be greater than zero"
  | .unreadableFile path reason => "read " ++ path ++ ": " ++ reason
  | .malformedText => "the text does not describe a configuration"

namespace BackendError

/-- The code of a failure. -/
def code : BackendError → ErrorCode
  | .invalidMetadataName _ => .invalidMetadataName
  | .invalidArgument _ => .invalidArgument
  | .malformedId _ _ => .malformedId
  | .unknownColumn _ _ => .unknownColumn
  | .unsupported _ => .unsupported
  | .contractViolation _ => .contractViolation
  | .invalidIndexMutation _ _ => .invalidIndexMutation
  | .invalidConfig _ => .invalidConfig
  | .store _ _ => .store

/-- The text of a failure. -/
def message : BackendError → String
  | .invalidMetadataName name => "invalid metadata name '" ++ name ++ "'"
  | .invalidArgument fault => "invalid argument: " ++ fault.message
  | .malformedId id expected =>
    "unsupported id format: '" ++ id.text ++ "' (should contain [" ++
      ", ".intercalate (expected.map fun column => Text.quoted column.nativeName) ++ "])"
  | .unknownColumn table column => "unknown column '" ++ column ++ "' in table '" ++ table ++ "'"
  | .unsupported request => "not supported: " ++ request.message
  | .contractViolation fault => "contract violation: " ++ fault.message
  | .invalidIndexMutation table fault =>
    "invalid index mutation on '" ++ table ++ "': " ++ fault.message
  | .invalidConfig fault => "invalid config: " ++ fault.message
  | .store context source =>
    "store failure while executing [" ++ context ++ "]: " ++ source.message

end BackendError

end WideGraph
