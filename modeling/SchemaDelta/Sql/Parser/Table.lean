import SchemaDelta.Sql.Parser.Column

/-!
# Parsing statements

Only `CREATE TABLE` is looked into; any other statement is passed over as a
whole.  An error inside a definition list quotes the definition that it is in.
-/

namespace SchemaDelta.Sql.Parser

/-- A column of a key; its prefix length and its order are dropped. -/
def keyColumn : Parser String := do
  let column ← name
  if ← eatKind .leftParen then
    let _ ← number
    expectKind .rightParen
  unless ← eatKeyword .ASC do
    let _ ← eatKeyword .DESC
  return column

def keyColumns : Parser (List String) := do
  expectKind .leftParen
  let columns ← commaSeparated keyColumn
  expectKind .rightParen
  return columns

def skipIndexType : Parser Unit := do
  if ← eatKeyword .USING then
    let _ ← name

/-- Reads one index option and answers whether there was one. -/
def skipIndexOption : Parser Bool := do
  if ← eatKeyword .USING then
    let _ ← name
    return true
  else if ← eatKeyword .COMMENT then
    let _ ← string
    return true
  else if ← eatWord "KEY_BLOCK_SIZE" then
    let _ ← eatKind .equals
    let _ ← number
    return true
  else if ← eat fun kind => isWord "VISIBLE" kind || isWord "INVISIBLE" kind then
    return true
  else if ← eatWord "WITH" then
    unless ← eatWord "PARSER" do
      unexpected "PARSER"
    let _ ← name
    return true
  else
    return false

def skipIndexOptions : Parser Unit := do
  let _ ← repeatWhile do
    return ((), ← skipIndexOption)

/-- The columns of a key with what may stand around them. -/
def keyBody : Parser (List String) := do
  skipIndexType
  let columns ← keyColumns
  skipIndexOptions
  return columns

/-- The name of an index, unless its columns or its type follow at once. -/
def indexName? : Parser (Option String) := do
  if (← atKind .leftParen) || (← atKeyword .USING) then
    return none
  else
    return some (← name)

/-- `name` or `qualifier.name`. -/
def qualifiedName : Parser (Option String × String) := do
  let first ← name
  if ← eatKind .dot then
    return (some first, ← name)
  else
    return (none, first)

def referentialAction : Parser ReferentialAction := do
  if ← eatKeyword .CASCADE then
    return .cascade
  else if ← eatKeyword .RESTRICT then
    return .restrict
  else if ← eatKeyword .SET then
    if ← eatKeyword .NULL then
      return .setNull
    else
      expectKeyword .DEFAULT
      return .setDefault
  else if ← eatKeyword .NO then
    expectKeyword .ACTION
    return .noAction
  else
    unexpected "referential action"

/-- One `ON` clause: whether it is about updates, and its action. -/
def referentialClause : Parser (Bool × ReferentialAction) := do
  if ← eatKeyword .UPDATE then
    return (true, ← referentialAction)
  else if ← eatKeyword .DELETE then
    return (false, ← referentialAction)
  else
    unexpected "UPDATE or DELETE"

/-- The `ON` clauses of a foreign key, in order. -/
def referentialClauses : Parser (List (Bool × ReferentialAction)) := do
  let clauses ← repeatWhile do
    if ← eatKeyword .ON then
      return (some (← referentialClause), true)
    else
      return (none, false)
  return clauses.filterMap id

/-- The last action that the clauses give for updates, or for deletions. -/
def actionFor? (updates : Bool) (clauses : List (Bool × ReferentialAction)) :
    Option ReferentialAction :=
  (clauses.reverse.find? (·.1 == updates)).map (·.2)

def foreignKey (constraint : Option String) : Parser ForeignKeyDef := do
  expectKeyword .FOREIGN
  expectKeyword .KEY
  let index ← indexName?
  let columns ← keyColumns
  expectKeyword .REFERENCES
  let (_, referencedTable) ← qualifiedName
  let referencedColumns ← keyColumns
  if ← eatKeyword .MATCH then
    let _ ← name
  let clauses ← referentialClauses
  return {
    name := constraint.or index
    columns, referencedTable, referencedColumns
    onUpdate := actionFor? true clauses
    onDelete := actionFor? false clauses }

/-- The kind that a keyword gives to an index. -/
def indexKind? : Keyword → Option IndexKind
  | .UNIQUE => some .unique
  | .FULLTEXT => some .fulltext
  | .SPATIAL => some .spatial
  | _ => none

/-- The name behind `CONSTRAINT`, if both are there. -/
def constraintName? : Parser (Option String) := do
  if ← eatKeyword .CONSTRAINT then
    if (nameOf? (← current)).isSome then
      return some (← name)
  return none

def skipCheck : Parser Unit := do
  advance
  let _ ← group
  let _ ← eatKeyword .NOT
  let _ ← eatWord "ENFORCED"

/-- The definition behind the optional name of a constraint; checks are
dropped. -/
def definitionBody (constraint : Option String) : Parser (Option Definition) := do
  match (← current).kind with
  | .keyword .PRIMARY =>
      advance
      expectKeyword .KEY
      return some (.primaryKey (← keyBody))
  | .keyword .FOREIGN => return some (.foreignKey (← foreignKey constraint))
  | .keyword .CHECK =>
      skipCheck
      return none
  | kind =>
      match uniqueKind? kind with
      | some indexKind =>
          advance
          unless ← eatKeyword .INDEX do
            let _ ← eatKeyword .KEY
          let indexName ← indexName?
          return some (.index ⟨indexName.or constraint, indexKind, ← keyBody⟩)
      | none =>
          if constraint.isSome then
            unexpected "PRIMARY KEY, UNIQUE, FOREIGN KEY or CHECK"
          else if kind = .keyword .INDEX ∨ kind = .keyword .KEY then
            advance
            let indexName ← indexName?
            return some (.index ⟨indexName, .plain, ← keyBody⟩)
          else
            return some (.column (← columnDef))
where
  uniqueKind? : TokenKind → Option IndexKind
    | .keyword keyword => indexKind? keyword
    | _ => none

def definition : Parser (Option Definition) := do
  definitionBody (← constraintName?)

/-- Where the definition ends that begins with the tokens: in front of a comma
or a closing parenthesis outside its groups. -/
def definitionStop : (depth stop : Nat) → List Token → Nat
  | _, stop, [] => stop
  | depth, stop, token :: tokens =>
      match token.kind with
      | .comma =>
          if depth = 0 then stop else definitionStop depth token.span.stop tokens
      | .leftParen => definitionStop (depth + 1) token.span.stop tokens
      | .rightParen =>
          match depth with
          | 0 => stop
          | depth + 1 => definitionStop depth token.span.stop tokens
      | _ => definitionStop depth token.span.stop tokens

/-- The source text of the definition that begins at the input. -/
def definitionText (input : Input) : String :=
  let start := input.current.span.start
  Span.text ⟨start, definitionStop 0 start input.tokens⟩ input.source

/-- Gives the errors of `parser` the text of the definition that it starts at. -/
def quotingDefinition {α : Type} (parser : Parser α) : Parser α := do
  let input ← get
  tryCatch parser fun error => throw (error.withFragment (definitionText input))

/-- A definition and whether a comma stands behind it; otherwise the list ends
there. -/
def listedDefinition : Parser (Option Definition × Bool) := do
  let parsed ← definition
  if ← eatKind .comma then
    return (parsed, true)
  else
    expectKind .rightParen
    return (parsed, false)

def definitions : Parser (List Definition) := do
  let parsed ← repeatWhile (quotingDefinition listedDefinition)
  return parsed.filterMap id

/-- Whether a table of the database `qualifier` is inspected: all are when no
database is given. -/
def inspects (database : Option String) (qualifier : String) : Bool :=
  database.all (sameName · qualifier)

def ifNotExists : Parser Bool := do
  if ← eatKeyword .IF then
    expectKeyword .NOT
    expectKeyword .EXISTS
    return true
  else
    return false

/-- Passes over the rest of a statement that began at `start`. -/
def otherStatement (start : Nat) : Parser Statement := do
  skipRest
  return .other ⟨start, (← get).lastStop⟩

/-- The statement behind `CREATE TABLE`.  Table options are passed over. -/
def createTable (database : Option String) (start : Nat) (temporary : Bool) :
    Parser Statement := do
  let ifNotExists ← ifNotExists
  let (qualifier, name) ← qualifiedName
  if qualifier.all (inspects database) then
    let token ← current
    if token.kind = .keyword .LIKE ∨ token.kind = .keyword .AS then
      fail token.span (.tableSource name token.text)
    expectKind .leftParen
    let definitions ← definitions
    let span := ⟨start, (← get).lastStop⟩
    skipRest
    return .createTable { name, temporary, ifNotExists, definitions, span }
  else
    otherStatement start

def statement (database : Option String) : Parser Statement := do
  let start := (← current).span.start
  if ← eatKeyword .CREATE then
    let temporary ← eatKeyword .TEMPORARY
    if ← eatKeyword .TABLE then
      createTable database start temporary
    else
      otherStatement start
  else
    otherStatement start

end SchemaDelta.Sql.Parser
