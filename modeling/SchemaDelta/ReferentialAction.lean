import SchemaDelta.Name
import SchemaDelta.Text.Blank

/-!
# Referential actions

What a foreign key asks for when a row that it references is updated or deleted.
A clause that is left out means `NO ACTION`.
-/

namespace SchemaDelta

inductive ReferentialAction
  | noAction
  | restrict
  | cascade
  | setNull
  | setDefault
  deriving Repr, DecidableEq

namespace ReferentialAction

instance : Inhabited ReferentialAction := ⟨noAction⟩

def all : List ReferentialAction :=
  [noAction, restrict, cascade, setNull, setDefault]

def sql : ReferentialAction → String
  | noAction => "NO ACTION"
  | restrict => "RESTRICT"
  | cascade => "CASCADE"
  | setNull => "SET NULL"
  | setDefault => "SET DEFAULT"

def label : ReferentialAction → String
  | noAction => "NO_ACTION"
  | restrict => "RESTRICT"
  | cascade => "CASCADE"
  | setNull => "SET_NULL"
  | setDefault => "SET_DEFAULT"

/-- Reads an action as a catalog spells it, ignoring ASCII case and the blanks
around it. -/
def ofSql? (text : String) : Option ReferentialAction :=
  let word := upperCase (String.ofList (Text.trim text.toList))
  all.find? (·.sql == word)

end ReferentialAction

end SchemaDelta
