import SchemaDelta.Schema.Column

/-!
# Properties of columns

The attributes in which two versions of a column can differ, and the texts that
reports show for them.
-/

namespace SchemaDelta

inductive ColumnProperty
  | type
  | length
  | precision
  | scale
  | nullable
  | unsigned
  | autoIncrement
  | default
  | comment
  | fixed
  | values
  deriving Repr, DecidableEq, Inhabited

namespace ColumnProperty

/-- All properties in the order of reports. -/
def all : List ColumnProperty :=
  [type, length, precision, scale, nullable, unsigned, autoIncrement, default,
    comment, fixed, values]

theorem mem_all (property : ColumnProperty) : property ∈ all := by
  cases property <;> decide

def label : ColumnProperty → String
  | type => "type"
  | length => "length"
  | precision => "precision"
  | scale => "scale"
  | nullable => "nullable"
  | unsigned => "unsigned"
  | autoIncrement => "autoincrement"
  | default => "default"
  | comment => "comment"
  | fixed => "fixed"
  | values => "enum"

/-- Whether the property tells two columns apart.  Defaults are compared as
texts. -/
def differs : ColumnProperty → Column → Column → Bool
  | type, a, b => a.kind != b.kind || a.typeName != b.typeName
  | length, a, b => a.length != b.length
  | precision, a, b => a.precision != b.precision
  | scale, a, b => a.scale != b.scale
  | nullable, a, b => a.nullable != b.nullable
  | unsigned, a, b => a.unsigned != b.unsigned
  | autoIncrement, a, b => a.autoIncrement != b.autoIncrement
  | default, a, b => a.default.map (·.text) != b.default.map (·.text)
  | comment, a, b => a.comment != b.comment
  | fixed, a, b => a.fixed != b.fixed
  | values, a, b => a.enumValues != b.enumValues

section

variable (property : ColumnProperty)

theorem differs_self (column : Column) : property.differs column column = false := by
  cases property <;> simp [differs]

theorem differs_comm (a b : Column) : property.differs a b = property.differs b a := by
  cases property <;> simp [differs, bne_comm]

theorem differs_trans {a b c : Column} (hab : property.differs a b = false)
    (hbc : property.differs b c = false) : property.differs a c = false := by
  cases property with
  | type =>
      simp only [differs, Bool.or_eq_false_iff, bne_eq_false_iff_eq] at hab hbc ⊢
      exact ⟨hab.1.trans hbc.1, hab.2.trans hbc.2⟩
  | _ =>
      simp only [differs, bne_eq_false_iff_eq] at hab hbc ⊢
      exact hab.trans hbc

end

def numberText (number : Option Nat) : String :=
  (number.map toString).getD ""

def flagText (flag : Bool) : String :=
  if flag then "true" else "false"

def enumText (values : List String) : String :=
  ",".intercalate (values.map fun value => "\x27" ++ value ++ "\x27")

/-- The value of the property, as a text; empty when there is none. -/
def valueOf : ColumnProperty → Column → String
  | type, column => column.typeName
  | length, column => numberText column.length
  | precision, column => numberText column.precision
  | scale, column => numberText column.scale
  | nullable, column => flagText column.nullable
  | unsigned, column => flagText column.unsigned
  | autoIncrement, column => flagText column.autoIncrement
  | default, column => (column.default.map (·.text)).getD ""
  | comment, column => column.comment.getD ""
  | fixed, column => flagText column.fixed
  | values, column => enumText column.enumValues

def isFlag : ColumnProperty → Bool
  | nullable | unsigned | autoIncrement | fixed => true
  | _ => false

end ColumnProperty

/-- The properties in which two columns differ; their names do not matter. -/
def Column.differences (a b : Column) : List ColumnProperty :=
  ColumnProperty.all.filter fun property => property.differs a b

end SchemaDelta
