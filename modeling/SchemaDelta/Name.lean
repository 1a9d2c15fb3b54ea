/-!
# Names

Tables, columns, indexes and foreign keys are told apart by their names ignoring
ASCII case, and ordered by their folded names, code point by code point.  The
key of a named thing is its folded name.
-/

namespace SchemaDelta

def lowerCase (text : String) : String :=
  String.ofList (text.toList.map Char.toLower)

def upperCase (text : String) : String :=
  String.ofList (text.toList.map Char.toUpper)

def sameName (a b : String) : Bool :=
  lowerCase a == lowerCase b

theorem sameName_iff {a b : String} :
    sameName a b = true ↔ lowerCase a = lowerCase b := by
  simp [sameName]

def sameNames (as bs : List String) : Bool :=
  as.map lowerCase == bs.map lowerCase

class Named (α : Type) where
  name : α → String

namespace Named

variable {α : Type} [Named α]

def key (item : α) : String :=
  lowerCase (name item)

def find? (wanted : String) (items : List α) : Option α :=
  items.find? fun item => sameName (name item) wanted

def findIdx? (wanted : String) (items : List α) : Option Nat :=
  items.findIdx? fun item => sameName (name item) wanted

def contains (wanted : String) (items : List α) : Bool :=
  items.any fun item => sameName (name item) wanted

/-- Removes the first item of the name. -/
def erase (unwanted : String) (items : List α) : List α :=
  items.eraseP fun item => sameName (name item) unwanted

/-- Inserts in front of the first item whose key is not smaller. -/
def insert (item : α) (items : List α) : List α :=
  items.takeWhile (fun other => key other < key item)
    ++ item :: items.dropWhile (fun other => key other < key item)

def sort (items : List α) : List α :=
  items.mergeSort fun a b => key a ≤ key b

end Named

end SchemaDelta
