import SqliteSchema.Definition.Column
import SqliteSchema.Lexeme.Stream

/-!
`CREATE TABLE` statements. A table is known under its name in its own body; a statement that fails
leaves nothing behind.
-/
namespace SqliteSchema.Definition

open SqliteSchema.Parser

/-- The table constraint that `token` opens, which is read already. -/
def tableConstraint (earlier : Registry) (table : Table) (token : Token) : Parser Table := do
  match token.keyword with
  | some .PRIMARY =>
    let _ ← expectKeyword .KEY
    let indices ← columnList table true
    conflictClause
    primaryKey table indices token
  | some .UNIQUE =>
    let indices ← columnList table true
    conflictClause
    uniqueKey table indices token
  | some .CHECK =>
    let _ ← skipBalanced
    return table
  | some .FOREIGN =>
    let _ ← expectKeyword .KEY
    let indices ← columnList table false
    let _ ← expectKeyword .REFERENCES
    references earlier table indices
  | _ => fail (.unexpected "PRIMARY KEY, UNIQUE, CHECK or FOREIGN KEY" token)

/-- A table whose body is being read. After the first table constraint there are no more columns. -/
structure Body where
  table : Table
  constrained : Bool := false
  deriving DecidableEq, Repr

def startsConstraint (t : Token) : Bool := Keyword.tableConstraints.any t.isKeyword

/-- A column definition or a table constraint. -/
def bodyItem (earlier : Registry) (body : Body) : Parser Body := do
  let first ← current "a column definition or table constraint"
  if startsConstraint first then
    constraintName
    let token ← advance "a table constraint"
    return ⟨← tableConstraint earlier body.table token, true⟩
  else if body.constrained then fail (.atToken .columnAfterConstraint first)
  else return { body with table := ← columnDefinition earlier body.table }

/-- The items up to the closing parenthesis. -/
def tableBody (earlier : Registry) (table : Table) : Parser Table := do
  let first ← bodyItem earlier { table := table }
  let body ← loop (fun body => do
    let separator ← require "',' or ')'" fun t => t.is "," || t.is ")"
    if separator.is ")" then return none else return some (← bodyItem earlier body)) first
  return body.table

/-- The tokens that open the options behind a table body. -/
structure Options where
  withoutRowid : Option Token := none
  strict : Option Token := none
  deriving DecidableEq, Repr

def repeatedOption (token : Token) : ParseError :=
  .atToken (.repeatedTableOption (String.ofList (Text.uppercase token.value.toList))) token

/-- `WITHOUT ROWID` or `STRICT` -/
def tableOption (options : Options) : Parser Options := do
  let token ← advance "WITHOUT ROWID or STRICT"
  match token.keyword with
  | some .WITHOUT =>
    let _ ← expectKeyword .ROWID
    if options.withoutRowid.isSome then fail (repeatedOption token)
    else return { options with withoutRowid := some token }
  | some .STRICT =>
    if options.strict.isSome then fail (repeatedOption token)
    else return { options with strict := some token }
  | _ => fail (.unexpected "WITHOUT ROWID or STRICT" token)

def tableOptions : Parser Options := do
  if ← look (·.head?.any fun t => t.isKeyword .WITHOUT || t.isKeyword .STRICT) then
    let first ← tableOption {}
    loop (fun options => do
      if ← eat "," then return some (← tableOption options) else return none) first
  else return {}

/-- The declared types that a strict table accepts. -/
def strictTypes : List String := ["INT", "INTEGER", "REAL", "TEXT", "BLOB", "ANY"]

def isStrictType (type : String) : Bool := strictTypes.any (sameName · type)

/-- A table without row numbers needs a primary key. -/
def applyWithoutRowid (table : Table) : Option Token → Except ParseError Table
  | none => .ok table
  | some token =>
    if table.hasPrimaryKey then .ok { table with withoutRowid := true }
    else .error (.atToken (.withoutPrimaryKey table.sqlName) token)

/-- All columns of a strict table have strict types. -/
def applyStrict (table : Table) : Option Token → Except ParseError Table
  | none => .ok table
  | some token =>
    match table.columns.find? fun c => !isStrictType c.sqlType with
    | none => .ok { table with strict := true }
    | some c => .error (.atToken (.notStrict c.sqlName table.sqlName c.sqlType) token)

def applyOptions (table : Table) (options : Options) : Except ParseError Table := do
  applyStrict (← applyWithoutRowid table options.withoutRowid) options.strict

/-- A new table must not share its name or its output name with another one. -/
def checkTableName (registry : Registry) (name : String) : Except Fault Unit :=
  if (registry.find? name).isSome then .error (.tableExists name)
  else
    match registry.findOutput? (Name.output name) with
    | some other => .error (.tableOutputTaken name (Name.output name) other.sqlName)
    | none => .ok ()

/-- The name behind `TABLE`, as a table without columns. -/
def tableName (registry : Registry) : Parser Table := do
  let token ← expectIdentifier "a table name"
  if ← check "." then fail (.atToken .schemaQualifiedTable token)
  else
    ofExcept ((checkTableName registry token.unquoted).mapError (.atToken · token))
    return registry.newTable token.unquoted

/-- A keyword without which the statement is no `CREATE TABLE`. -/
def statementKeyword (k : Keyword) (expected : String) : Parser Token := do
  let token ← current expected
  if token.isKeyword k then advance expected
  else fail (.atToken (.notCreateTable token.value) token)

/-- `[IF NOT EXISTS]` -/
def ifNotExists : Parser Unit := do
  if ← eatKeyword .IF then
    let _ ← expectKeyword .NOT
    let _ ← expectKeyword .EXISTS
  else pure ()

/-- Tables that are defined by a query are not supported. -/
def refuseAs : Parser Unit := do
  match ← peek with
  | some token =>
    if token.isKeyword .AS then fail (.atToken .createTableAs token) else pure ()
  | none => pure ()

/-- The part of a text from the start of one token to the end of another. -/
def slice (source : List Char) (first last : Token) : String :=
  String.ofList ((source.drop first.position.absolute).take (last.stop - first.position.absolute))

/-- `CREATE [TEMP | TEMPORARY] TABLE [IF NOT EXISTS] name ( body ) [options] ;` -/
def createTable (source : List Char) (earlier : Registry) : Parser Table := do
  let create ← statementKeyword .CREATE "CREATE TABLE"
  let temporary ← eatAnyKeyword [.TEMP, .TEMPORARY]
  let _ ← statementKeyword .TABLE "TABLE"
  ifNotExists
  let table ← tableName earlier
  refuseAs
  let _ ← expect "("
  let table ← tableBody earlier { table with isTemporary := temporary.isSome }
  let options ← tableOptions
  let table ← ofExcept (applyOptions table options)
  let semicolon ← expect ";"
  return { table with createTableText := slice source create semicolon }

/-- Statements and stray semicolons up to the end. `source` is the text of the tokens. -/
def schema (source : List Char) (registry : Registry) : Parser Registry :=
  loop (fun registry => do
    if ← look List.isEmpty then return none
    else if ← eat ";" then return some registry
    else return some (registry.add (← createTable source registry))) registry

end SqliteSchema.Definition

namespace SqliteSchema.Registry

/-- The registry with the tables of a schema text added to it, and the warnings. -/
def extend (registry : Registry) (text : String) : Except Failure (Registry × List Warning) :=
  match Token.tokenize text with
  | .error e => .error ⟨e, []⟩
  | .ok tokens => (Definition.schema text.toList registry).run tokens

/-- The tables of a schema text. -/
def ofText (text : String) : Except Failure (Registry × List Warning) := extend {} text

end SqliteSchema.Registry
