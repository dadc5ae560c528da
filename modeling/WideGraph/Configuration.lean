import WideGraph.BackendError

/-!
# Configuration

The settings under which tables are used: the keyspace they live in, the size of a split when none
is asked for, and how many statements one query may become.
-/

namespace WideGraph

/-- The settings of a graph store. -/
structure Configuration where
  keyspace : String := "hugegraph"
  defaultSplitSize : Nat := 64 * 1024 * 1024
  /-- The most selects that one query may become; zero allows any number. -/
  maxQueryStatements : Nat := 0
deriving DecidableEq, Repr

namespace Configuration

/-- The settings for development. -/
def development : Configuration :=
  { defaultSplitSize := 1024 * 1024, maxQueryStatements := 1000 }

/-- The settings for production on a keyspace. -/
def production (keyspace : String) : Configuration :=
  { keyspace, maxQueryStatements := 10000 }

/-- The most bytes in the name of a keyspace. -/
def maxKeyspaceBytes : Nat :=
  48

/-- Whether a text names a keyspace: ASCII letters, digits and underscores, the first of them no
underscore. -/
def isKeyspaceName (name : String) : Bool :=
  !name.isEmpty && name.utf8ByteSize ≤ maxKeyspaceBytes &&
    name.toList.all (fun c => c.isAlphanum || c == '_') && name.toList.head? != some '_'

/-- The first thing wrong with the settings. -/
def fault? (configuration : Configuration) : Option ConfigFault :=
  if !isKeyspaceName configuration.keyspace then some (.keyspaceName configuration.keyspace)
  else if configuration.defaultSplitSize = 0 then some .splitSizeZero
  else none

/-- The settings, if nothing is wrong with them. -/
def validate (configuration : Configuration) : Except BackendError Configuration :=
  match configuration.fault? with
  | some fault => .error (.invalidConfig fault)
  | none => .ok configuration

end Configuration

end WideGraph
