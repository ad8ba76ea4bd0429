import SqliteSchema.Definition.Reference
import SqliteSchema.Expr.Parse

/-!
Column definitions: `name [type] [constraint ...]`. Constraints change the table that is being
defined, whose last column is the one that they belong to.
-/
namespace SqliteSchema.Definition

open SqliteSchema.Parser

/-- `[CONSTRAINT name]` -/
def constraintName : Parser Unit := do
  if ← eatKeyword .CONSTRAINT then
    let _ ← expectIdentifier "a constraint name"
  else pure ()

/-- A group in parentheses that is checked for balance only. -/
def generatedColumn : Parser Unit := do
  let _ ← skipBalanced
  let _ ← eatAnyKeyword [.STORED, .VIRTUAL]

/-- An expression in parentheses that may refer to the columns declared so far. -/
def defaultExpression (earlier : Registry) (table : Table) : Parser Unit := do
  let _ ← expect "("
  let _ ← Expr.parse ⟨earlier.add table, .table table⟩ .all
  let _ ← expect ")"

/-- A number, a literal or an expression in parentheses. -/
def defaultValue (earlier : Registry) (table : Table) : Parser Unit := do
  match ← signedNumber with
  | some _ => pure ()
  | none =>
    match ← literalValue with
    | some _ => pure ()
    | none =>
      let token ← current "a default value"
      if token.is "(" then defaultExpression earlier table
      else fail (.unexpected "a default value" token)

def autoIncrement (table : Table) (index : Nat) : Parser Table := do
  match ← accept (·.isKeyword .AUTOINCREMENT) with
  | none => return table
  | some token =>
    match (table.columns[index]?).filter fun c => !sameName c.sqlType "INTEGER" with
    | some column => fail (.atToken (.autoIncrement column.sqlName column.sqlType) token)
    | none => return table.updateColumn index ({ · with autoIncrement := true })

/-- Behind `PRIMARY`: `KEY [ASC | DESC] [conflict] [AUTOINCREMENT]` -/
def columnPrimaryKey (table : Table) (index : Nat) (token : Token) : Parser Table := do
  let _ ← expectKeyword .KEY
  let _ ← eatAnyKeyword [.ASC, .DESC]
  conflictClause
  let table ← primaryKey table [index] token
  autoIncrement table index

def columnName (table : Table) (index : Nat) : String :=
  ((table.columns[index]?).map (·.sqlName)).getD ""

/-- The constraint that `token` opens, which is read already. -/
def columnConstraint (earlier : Registry) (table : Table) (index : Nat) (token : Token) :
    Parser Table := do
  match token.keyword with
  | some .NOT =>
    let _ ← expectKeyword .NULL
    conflictClause
    return table.updateColumn index ({ · with notNull := true })
  | some .NULL =>
    conflictClause
    return table
  | some .PRIMARY => columnPrimaryKey table index token
  | some .UNIQUE =>
    conflictClause
    uniqueKey table [index] token
  | some .CHECK =>
    let _ ← skipBalanced
    return table
  | some .DEFAULT =>
    defaultValue earlier table
    return table
  | some .COLLATE =>
    let name ← collation ((table.columns[index]?).map (·.affinity))
    return table.updateColumn index ({ · with collation := some name })
  | some .REFERENCES => references earlier table [index]
  | some .GENERATED =>
    let _ ← expectKeyword .ALWAYS
    let _ ← expectKeyword .AS
    generatedColumn
    return table
  | some .AS =>
    generatedColumn
    return table
  | _ => fail (.atToken (.notAConstraint token.value (columnName table index)) token)

/-- Constraints go on until a comma or a closing parenthesis. -/
def columnConstraints (earlier : Registry) (index : Nat) (table : Table) : Parser Table :=
  loop (fun table => do
    if ← look (·.head?.any fun t => !t.is "," && !t.is ")") then
      constraintName
      let token ← advance "a column constraint"
      return some (← columnConstraint earlier table index token)
    else return none) table

/-- A new column must not share its name or its output name with another one. -/
def checkColumnName (table : Table) (name : String) : Except Fault Unit :=
  if (table.column? name).isSome then .error (.columnExists name table.sqlName)
  else
    match table.columns.find? (·.outputName == Name.output name) with
    | some other => .error (.columnOutputTaken name (Name.output name) other.sqlName)
    | none => .ok ()

def columnDefinition (earlier : Registry) (table : Table) : Parser Table := do
  let token ← expectIdentifier "a column name"
  ofExcept ((checkColumnName table token.unquoted).mapError (.atToken · token))
  let type ← typeName
  columnConstraints earlier table.columns.length (table.addColumn token.unquoted (type.getD ""))

end SqliteSchema.Definition
