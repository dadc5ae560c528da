import WideGraph.Exchange.Requests
import WideGraph.GraphTable.Selects

/-!
# The command line

Two commands: one prints the statements that create a graph's tables, the other the selects that a
query becomes. Both take their settings from a file, if one is named, and then from flags. A flag's
value is the argument behind its first occurrence, whatever that argument is.
-/

namespace WideGraph.CommandLine

/-- Why a file could not be read. -/
inductive FileFault where
  | missing
  | denied
  | notADirectory
  | isADirectory
  | nameTooLong
  | notText
  | other (reason : String)
deriving DecidableEq, Repr

/-- The wording of a file fault. -/
def FileFault.message : FileFault → String
  | .missing => "No such file or directory (os error 2)"
  | .denied => "Permission denied (os error 13)"
  | .notADirectory => "Not a directory (os error 20)"
  | .isADirectory => "Is a directory (os error 21)"
  | .nameTooLong => "File name too long (os error 36)"
  | .notText => "stream did not contain valid UTF-8"
  | .other reason => reason

/-- Why a command failed. -/
inductive Fault where
  | missingCommand
  | unknownCommand (name : String)
  | settings (error : BackendError)
  | unknownKind (name : String)
  | limit (fault : Text.NumeralFault)
  | query (error : BackendError)

namespace Fault

/-- The wording of a fault. -/
def message : Fault → String
  | .missingCommand => "missing command"
  | .unknownCommand name => "unknown top-level command: " ++ name
  | .settings error => error.message
  | .unknownKind name => "unknown table kind: " ++ name
  | .limit fault => "invalid --limit: " ++ fault.message
  | .query error => error.code.name ++ ": " ++ error.message

/-- Whether the usage is shown before the fault. -/
def showsUsage : Fault → Bool
  | .missingCommand | .unknownCommand _ => true
  | _ => false

end Fault

/-- What a run of the program leaves behind. -/
structure Outcome where
  code : UInt32
  stdout : String
  stderr : String
deriving DecidableEq

/-- How the program is called. -/
def usage : String :=
  "usage:\n" ++
  "  cqlgraph schema [--keyspace <name>] [--config <config.json>]\n" ++
  "  cqlgraph translate [--table <kind>] [--id <id>]... [--label <label>] [--limit <n>] " ++
  "[--config <config.json>]\n"

/-- The argument behind the first occurrence of a flag. -/
def flagValue? (flag : String) : List String → Option String
  | [] => none
  | arg :: rest => if arg = flag then rest.head? else flagValue? flag rest

/-- The arguments behind every occurrence of a flag, also where they are flags themselves. -/
def flagValues (flag : String) : List String → List String
  | [] => []
  | [_] => []
  | arg :: value :: rest =>
    if arg = flag then value :: flagValues flag (value :: rest) else flagValues flag (value :: rest)

/-- The file that the arguments name for the settings. -/
def settingsFile? (args : List String) : Option String :=
  flagValue? "--config" args

/-- The settings in a file. -/
def fileSettings (contentOf : String → Except FileFault String) (path : String) :
    Except BackendError Configuration :=
  match contentOf path with
  | .error fault => .error (.invalidConfig (.unreadableFile path fault.message))
  | .ok text => Exchange.readConfiguration text

/-- The settings that the arguments ask for. Those of a file have to be right before the keyspace of
a flag takes the place of theirs. -/
def settings (contentOf : String → Except FileFault String) (args : List String) :
    Except BackendError Configuration := do
  let base ← match settingsFile? args with
    | some path => fileSettings contentOf path
    | none => .ok {}
  let chosen : Configuration := match flagValue? "--keyspace" args with
    | some keyspace => { base with keyspace }
    | none => base
  chosen.validate

/-- Lines with their ends. -/
def unlines (lines : List String) : String :=
  String.join (lines.map (· ++ "\n"))

/-- The lines of the schema command. -/
def schemaLines (configuration : Configuration) : List String :=
  ("-- keyspace " ++ configuration.keyspace) ::
    (GraphTable.all configuration).flatMap fun table =>
      (table.definition.createTable :: table.definition.createIndexes).map SchemaStatement.text

/-- The query that the arguments ask for. -/
def queryOf (kind : ElementKind) (args : List String) : Except Fault Query := do
  let byId := (Query.all kind).withIds ((flagValues "--id" args).map Identifier.mk)
  let byLabel := match flagValue? "--label" args with
    | some label => byId.withCondition (.compare .eq .label (.value (.text label)))
    | none => byId
  match flagValue? "--limit" args with
  | none => .ok byLabel
  | some numeral =>
    match Text.unsigned numeral with
    | .ok limit => .ok (byLabel.withLimit limit)
    | .error fault => .error (.limit fault)

/-- The line for a select: its text and the values bound to it. -/
def selectLine (select : Select) : String :=
  select.bound.text ++ "\t" ++ Value.taggedList select.bound.values

/-- The lines of the translate command. -/
def translateLines (configuration : Configuration) (args : List String) :
    Except Fault (List String) := do
  let name := (flagValue? "--table" args).getD "vertex"
  match ElementKind.ofName? name with
  | none => .error (.unknownKind name)
  | some kind =>
    let query ← queryOf kind args
    match GraphTable.selects ⟨kind, configuration⟩ query with
    | .ok selects => .ok (selects.map selectLine)
    | .error error => .error (.query error)

/-- The lines that a command prints. -/
def lines (contentOf : String → Except FileFault String) :
    List String → Except Fault (List String)
  | [] => .error .missingCommand
  | command :: args =>
    if command = "schema" ∨ command = "translate" then
      match settings contentOf args with
      | .error error => .error (.settings error)
      | .ok configuration =>
        if command = "schema" then .ok (schemaLines configuration)
        else translateLines configuration args
    else .error (.unknownCommand command)

/-- Run the program on its arguments. -/
def run (contentOf : String → Except FileFault String) (args : List String) : Outcome :=
  match lines contentOf args with
  | .ok lines => ⟨0, unlines lines, ""⟩
  | .error fault =>
    ⟨1, "", (if fault.showsUsage then usage else "") ++ "error: " ++ fault.message ++ "\n"⟩

end WideGraph.CommandLine
