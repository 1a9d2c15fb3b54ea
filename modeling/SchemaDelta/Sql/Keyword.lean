import SchemaDelta.Name

/-!
# Keywords

The words that the grammar of table definitions gives a meaning of their own.
All other words, type names and table options included, are identifiers.
-/

namespace SchemaDelta.Sql

inductive Keyword
  | CREATE | TABLE | TEMPORARY | IF | NOT | EXISTS | LIKE | AS
  | NULL | DEFAULT | AUTO_INCREMENT | UNSIGNED | SIGNED | ZEROFILL | COMMENT
  | COLLATE | CHARACTER | CHARSET | GENERATED | ALWAYS
  | PRIMARY | KEY | INDEX | UNIQUE | FULLTEXT | SPATIAL | CONSTRAINT | FOREIGN
  | REFERENCES | CHECK | MATCH | USING
  | ON | UPDATE | DELETE | CASCADE | RESTRICT | SET | NO | ACTION
  | ASC | DESC
  deriving Repr, DecidableEq, Inhabited

namespace Keyword

def all : List Keyword :=
  [CREATE, TABLE, TEMPORARY, IF, NOT, EXISTS, LIKE, AS,
    NULL, DEFAULT, AUTO_INCREMENT, UNSIGNED, SIGNED, ZEROFILL, COMMENT,
    COLLATE, CHARACTER, CHARSET, GENERATED, ALWAYS,
    PRIMARY, KEY, INDEX, UNIQUE, FULLTEXT, SPATIAL, CONSTRAINT, FOREIGN,
    REFERENCES, CHECK, MATCH, USING,
    ON, UPDATE, DELETE, CASCADE, RESTRICT, SET, NO, ACTION,
    ASC, DESC]

theorem mem_all (keyword : Keyword) : keyword ∈ all := by
  cases keyword <;> decide

def spelling : Keyword → String
  | CREATE => "CREATE"
  | TABLE => "TABLE"
  | TEMPORARY => "TEMPORARY"
  | IF => "IF"
  | NOT => "NOT"
  | EXISTS => "EXISTS"
  | LIKE => "LIKE"
  | AS => "AS"
  | NULL => "NULL"
  | DEFAULT => "DEFAULT"
  | AUTO_INCREMENT => "AUTO_INCREMENT"
  | UNSIGNED => "UNSIGNED"
  | SIGNED => "SIGNED"
  | ZEROFILL => "ZEROFILL"
  | COMMENT => "COMMENT"
  | COLLATE => "COLLATE"
  | CHARACTER => "CHARACTER"
  | CHARSET => "CHARSET"
  | GENERATED => "GENERATED"
  | ALWAYS => "ALWAYS"
  | PRIMARY => "PRIMARY"
  | KEY => "KEY"
  | INDEX => "INDEX"
  | UNIQUE => "UNIQUE"
  | FULLTEXT => "FULLTEXT"
  | SPATIAL => "SPATIAL"
  | CONSTRAINT => "CONSTRAINT"
  | FOREIGN => "FOREIGN"
  | REFERENCES => "REFERENCES"
  | CHECK => "CHECK"
  | MATCH => "MATCH"
  | USING => "USING"
  | ON => "ON"
  | UPDATE => "UPDATE"
  | DELETE => "DELETE"
  | CASCADE => "CASCADE"
  | RESTRICT => "RESTRICT"
  | SET => "SET"
  | NO => "NO"
  | ACTION => "ACTION"
  | ASC => "ASC"
  | DESC => "DESC"

/-- A word that is written for the keyword, in capitals.  Only
`AUTO_INCREMENT` has a second one. -/
def spelledBy (keyword : Keyword) (word : String) : Bool :=
  word == keyword.spelling || keyword == AUTO_INCREMENT && word == "AUTOINCREMENT"

/-- The keyword that a word spells, ignoring ASCII case. -/
def ofWord? (word : String) : Option Keyword :=
  all.find? (·.spelledBy (upperCase word))

/-- The spelling in camel case, by which messages name the keyword. -/
def label (keyword : Keyword) : String :=
  String.ofList (go true keyword.spelling.toList)
where
  /-- `first` says whether a word begins here. -/
  go (first : Bool) : List Char → List Char
    | [] => []
    | '_' :: cs => go true cs
    | c :: cs => (if first then c else c.toLower) :: go false cs

/-- Whether the keyword opens a constraint or an index clause in a definition
list, where it is then never a column name. -/
def startsConstraint : Keyword → Bool
  | PRIMARY | KEY | INDEX | UNIQUE | FULLTEXT | SPATIAL | CONSTRAINT
  | FOREIGN | CHECK => true
  | _ => false

end Keyword

end SchemaDelta.Sql
