import SchemaDelta.Files
import SchemaDelta.Json.Reader

/-!
# Configurations

A configuration lists groups, each of two schemas to compare.  A schema comes
from a dump or from a database server.
-/

namespace SchemaDelta

structure DumpFile where
  path : String
  /-- Tables of other databases are left out. -/
  database : Option String
  deriving Repr, DecidableEq

structure Server where
  host : Option String
  tcpPort : Nat
  user : String
  password : Option String
  database : String
  deriving Repr, DecidableEq

namespace Server

def defaultTcpPort : Nat := 3306

def hostName (server : Server) : String :=
  server.host.getD "localhost"

end Server

inductive Connection
  | dump (file : DumpFile)
  | server (settings : Server)
  deriving Repr, DecidableEq

def Connection.description : Connection → String
  | dump file => "File: " ++ file.path
  | server settings => "Database: " ++ settings.database ++ "@" ++ settings.hostName

structure Group where
  name : String
  old : Connection
  new : Connection
  deriving Repr, DecidableEq

structure Config where
  groups : List Group
  /-- Where relative paths start. -/
  directory : String
  deriving Repr, DecidableEq

def Config.resolve (config : Config) (file : DumpFile) : String :=
  Path.join config.directory file.path

/-! ## Reading -/

namespace Config

def text? (value : Option JsonSource) : Option String :=
  value.bind JsonSource.string?

def optionalText? : Option JsonSource → Option (Option String)
  | none | some .null => some none
  | some value => value.string?.map some

/-- A number of 16 bits, which has a default but is never null. -/
def tcpPort? : Option JsonSource → Option Nat
  | none => some Server.defaultTcpPort
  | some (.number numeral) => numeral.digits?.bind Text.word16?
  | some _ => none

def dumpFile? (json : JsonSource) : Option DumpFile := do
  match json.record? ["path", "dbname"] with
  | some [path, database] => return ⟨← text? path, ← optionalText? database⟩
  | _ => none

def server? (json : JsonSource) : Option Server := do
  match json.record? ["host", "port", "user", "password", "dbname"] with
  | some [host, tcpPort, user, password, database] =>
      return ⟨← optionalText? host, ← tcpPort? tcpPort, ← text? user, ← optionalText? password,
        ← text? database⟩
  | _ => none

/-- How many arrays and objects may be inside each other. -/
def nestingLimit : Nat := 127

/-- The arrays and objects around a connection: the configuration, the list of
groups, and the group. -/
def nestingOfConnections : Nat := 3

/-- A connection has to be sound as a whole, with the fields that do not
matter. -/
def connection? (json : JsonSource) : Option Connection :=
  if json.isSound (nestingLimit - nestingOfConnections) then
    match json.tagged? "driver" with
    | some ("file", record) => (dumpFile? record).map .dump
    | some ("mysql", record) | some ("pdo_mysql", record) => (server? record).map .server
    | _ => none
  else
    none

def group? (json : JsonSource) : Option Group := do
  match json.record? ["name", "from", "to"] with
  | some [name, some old, some new] => return ⟨← text? name, ← connection? old, ← connection? new⟩
  | _ => none

/-- Reads a configuration whose relative paths start at `directory`. -/
def ofText? (directory text : String) : Option Config := do
  let json ← JsonSource.ofText? text
  match json.record? ["groups"] with
  | some [some (.array groups)] => return ⟨← groups.mapM group?, directory⟩
  | _ => none

end Config

end SchemaDelta
