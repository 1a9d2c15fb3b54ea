import SchemaDelta.Build.Table
import SchemaDelta.Schema.Basic

/-!
# Building schemas from scripts

A script that contradicts itself gives no schema.  A statement that cannot be
read is passed over with a diagnostic, or stops a strict build.
-/

namespace SchemaDelta

/-- A schema and the diagnostics in the order of the script. -/
structure BuildOutput where
  schema : Schema
  diagnostics : List Diagnostic
  deriving DecidableEq

inductive BuildError
  | statement (error : Sql.StatementError)
  | schema (error : SchemaError)
  deriving Repr, DecidableEq

def BuildError.message : BuildError → String
  | statement error => error.message
  | schema error => "schema error: " ++ error.message

structure BuildSettings where
  mapping : TypeMapping := .mysql
  /-- The inspected database.  It names the schema, and tables of other
  databases are left out. -/
  database : Option String := none
  strict : Bool := false

namespace Build

def addStatement (settings : BuildSettings) (output : BuildOutput) :
    Except Sql.StatementError Sql.Statement → Except BuildError BuildOutput
  | .ok (.createTable written) => do
      let table ← (table settings.mapping written).mapError .schema
      let schema ← (output.schema.addTable table).mapError .schema
      return ⟨schema, output.diagnostics ++ tableDiagnostics settings.mapping written⟩
  | .ok (.other _) => .ok output
  | .error error =>
      if settings.strict then .error (.statement error)
      else .ok { output with diagnostics := output.diagnostics ++ [.rejected error] }

end Build

def BuildSettings.build (settings : BuildSettings) (script : String) :
    Except BuildError BuildOutput :=
  (Sql.Script.statements script settings.database).foldlM (Build.addStatement settings)
    ⟨{ name := settings.database }, []⟩

theorem BuildSettings.build_of_toList (settings : BuildSettings) {script : String}
    {chars : List Char} (h : script.toList = chars) :
    settings.build script
      = ((Sql.Reader.start chars).statements chars settings.database 0).foldlM
          (Build.addStatement settings) ⟨{ name := settings.database }, []⟩ := by
  rw [BuildSettings.build, Sql.Script.statements_of_toList h]

end SchemaDelta
