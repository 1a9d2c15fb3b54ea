import SchemaDelta.Sql.Script
import SchemaDelta.Text.Number
import SchemaDelta.TypeMapping

/-!
# Building columns

A column definition becomes a column of the model: its raw type is mapped, the
type arguments go where the kind of the column wants them, and the options are
applied in order, so that the last one of a sort counts.
-/

namespace SchemaDelta

/-- A problem that does not keep a schema from being built. -/
inductive Diagnostic
  /-- A statement that could not be read and was passed over. -/
  | rejected (error : Sql.StatementError)
  /-- A column whose type the mapping does not know. -/
  | unmappableType (table column typeName : String)
  deriving Repr, DecidableEq

def Diagnostic.message : Diagnostic → String
  | rejected error => "statement skipped: " ++ error.message
  | unmappableType table column typeName =>
      "unmappable type \x60" ++ typeName ++ "\x60 for column \x60" ++ table
        ++ "\x60.\x60" ++ column ++ "\x60"

namespace Build

def hasPart (part : List Char) : List Char → Bool
  | [] => part.isEmpty
  | c :: cs => part.isPrefixOf (c :: cs) || hasPart part cs

def defaultPrecision : Nat := 10

/-- Types are of varying width when their raw name says so. -/
def isVarying (raw : String) : Bool :=
  hasPart "var".toList raw.toList

def lengthArg? : Sql.TypeArgs → Option Nat
  | .length n => some n
  | _ => none

/-- Strings and binaries with a canonical name of that sort are fixed unless
they vary; a fixed one has length one when it gives none. -/
def withWidth (raw : String) (args : Sql.TypeArgs) (column : Column) : Column :=
  let length := lengthArg? args
  if column.typeName ∈ ["string", "binary"] then
    let fixed := !isVarying raw
    { column with fixed, length := if fixed then length.or (some 1) else length }
  else
    { column with length }

/-- Applies the arguments of a type.  Display widths, lengths of texts and
fractional seconds are not modelled. -/
def withTypeArgs (raw : String) (args : Sql.TypeArgs) (column : Column) : Column :=
  match column.kind with
  | .string | .binary => withWidth raw args column
  | .decimal =>
      match args with
      | .length p => { column with precision := some p, scale := some 0 }
      | .precisionScale p s => { column with precision := some p, scale := some s }
      | _ => { column with precision := some defaultPrecision, scale := some 0 }
  | .enumeration =>
      match args with
      | .values values => { column with enumValues := values }
      | _ => column
  | .other =>
      match args with
      | .length n => { column with length := some n }
      | .precisionScale p s => { column with precision := some p, scale := some s }
      | .values values => { column with enumValues := values }
      | .none => column
  | _ => column

/-- The default that a literal stands for.  Numbers beyond 64 bits and fractions
are expressions. -/
def defaultOf? : Sql.Literal → Option DefaultValue
  | .null => none
  | .number text =>
      match Text.int64? text.toList with
      | some value => some (.integer value)
      | none => some (.expression text)
  | .string value => some (.string value)
  | .expression text => some (.ofExpression text)

/-- A zero-filled column is unsigned. -/
def withOption (column : Column) : Sql.ColumnOption → Column
  | .null => { column with nullable := true }
  | .notNull => { column with nullable := false }
  | .unsigned | .zerofill => { column with unsigned := true }
  | .default value => { column with default := defaultOf? value }
  | .autoIncrement => { column with autoIncrement := true }
  | .comment text => { column with comment := Column.commentOf text }
  | .collate _ | .characterSet _ | .onUpdate _ | .primaryKey | .unique
  | .generated _ => column

/-- The kind and canonical name of a raw type; an unknown type keeps its name. -/
def mappedType (mapping : TypeMapping) (raw : String) : MappedType :=
  (mapping.resolve? raw).getD ⟨.other, raw⟩

def column (mapping : TypeMapping) (written : Sql.ColumnDef) : Column :=
  let raw := lowerCase written.dataType.name
  let mapped := mappedType mapping raw
  written.options.foldl withOption
    (withTypeArgs raw written.dataType.args
      { name := written.name, kind := mapped.kind, typeName := mapped.name })

def columnDiagnostics (mapping : TypeMapping) (table : String) (written : Sql.ColumnDef) :
    List Diagnostic :=
  let raw := lowerCase written.dataType.name
  if (mapping.resolve? raw).isSome then [] else [.unmappableType table written.name raw]

end Build

end SchemaDelta
