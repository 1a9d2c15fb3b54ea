import SchemaDelta.Build.Schema
import SchemaDelta.Config
import SchemaDelta.Diff.Schema
import SchemaDelta.Pattern.Matching
import SchemaDelta.Pattern.Parser

/-!
# Comparing the groups of a configuration

The groups are compared one after the other, the old side of each first, and the
first error ends it all.
-/

namespace SchemaDelta

/-- A compared group, with the descriptions of its sides. -/
structure Comparison where
  group : String
  old : String
  new : String
  diff : SchemaDiff
  deriving Repr, DecidableEq

inductive ComparisonError
  | configNotFound (path : String)
  | configMalformed (path : String)
  | file (path : String) (error : FileError)
  | pattern (text : String)
  | dump (group : String) (connection : Connection) (error : BuildError)
  /-- A server that would have to be asked for its schema. -/
  | server (group : String) (connection : Connection)
  deriving Repr, DecidableEq

namespace ComparisonError

def message : ComparisonError → String
  | configNotFound path => "Configuration file not found: " ++ path
  | configMalformed path => "Invalid configuration file '" ++ path ++ "'"
  | file path error => "IO error on '" ++ path ++ "': " ++ error.message
  | pattern text => "Invalid ignore-table pattern: " ++ text
  | dump group connection error =>
      "Group '" ++ group ++ "': failed to load " ++ connection.description ++ ": "
        ++ error.message
  | server group connection =>
      "Group '" ++ group ++ "': failed to read " ++ connection.description
        ++ ": no connection to servers"

end ComparisonError

/-- The tables whose names the pattern occurs in; none if there is no pattern. -/
def ignoredTables? (pattern : Option String) : Option (Table → Bool) :=
  match pattern with
  | none => some fun _ => false
  | some text =>
      (Pattern.ofText? text).map fun pattern table => pattern.occursIn table.name

structure ComparisonSettings where
  /-- The pattern of tables that are left out of both sides. -/
  ignore : Option String := none
  /-- Whether a malformed statement ends the comparison. -/
  strict : Bool := false

namespace Config

def load (path : String) (text : Except FileError String) : Except ComparisonError Config :=
  match text with
  | .error .notFound | .error .notDirectory | .error .isDirectory =>
      .error (.configNotFound path)
  | .error error => .error (.file path error)
  | .ok text =>
      match ofText? (Path.parent path) text with
      | some config => .ok config
      | none => .error (.configMalformed path)

def dumpPaths (config : Config) : List String :=
  config.groups.flatMap fun group =>
    [group.old, group.new].filterMap fun
      | .dump file => some (config.resolve file)
      | .server _ => none

variable (config : Config) (settings : ComparisonSettings)
  (read : String → Except FileError String)

def loadSchema (group : String) (connection : Connection) : Except ComparisonError Schema := do
  match connection with
  | .server _ => throw (.server group connection)
  | .dump file =>
      let path := config.resolve file
      let script ← (read path).mapError (.file path)
      let build : BuildSettings := { database := file.database, strict := settings.strict }
      let output ← (build.build script).mapError (.dump group connection)
      return output.schema

def compareGroup (ignored : Table → Bool) (group : Group) :
    Except ComparisonError Comparison := do
  let old ← config.loadSchema settings read group.name group.old
  let new ← config.loadSchema settings read group.name group.new
  let diff := (old.withoutTables ignored).diff (new.withoutTables ignored)
  return ⟨group.name, group.old.description, group.new.description, diff⟩

/-- Compares all groups, with the dumps that `read` gives for their paths. -/
def compare : Except ComparisonError (List Comparison) :=
  match ignoredTables? settings.ignore with
  | none => .error (.pattern (settings.ignore.getD ""))
  | some ignored => config.groups.mapM (config.compareGroup settings read ignored)

end Config

end SchemaDelta
