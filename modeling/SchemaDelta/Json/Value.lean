/-!
# JSON values

Objects keep the order of their fields, and numbers the text they are written
with.
-/

namespace SchemaDelta

inductive JsonValue
  | null
  | bool (value : Bool)
  | number (text : String)
  | string (value : String)
  | array (items : List JsonValue)
  | object (fields : List (String × JsonValue))
  deriving Inhabited

namespace JsonValue

def ofNat (n : Nat) : JsonValue :=
  .number (toString n)

def ofInt (i : Int) : JsonValue :=
  .number (toString i)

def ofOption {α : Type} (encode : α → JsonValue) : Option α → JsonValue
  | some a => encode a
  | none => .null

def ofList {α : Type} (encode : α → JsonValue) (items : List α) : JsonValue :=
  .array (items.map encode)

def ofStrings (items : List String) : JsonValue :=
  ofList .string items

/-- A field that is left out when there is no value. -/
def optionalField {α : Type} (name : String) (encode : α → JsonValue) :
    Option α → List (String × JsonValue)
  | some a => [(name, encode a)]
  | none => []

/-- A field that is left out when the list is empty. -/
def listField {α : Type} (name : String) (encode : α → JsonValue) (items : List α) :
    List (String × JsonValue) :=
  if items.isEmpty then [] else [(name, ofList encode items)]

end JsonValue

end SchemaDelta
