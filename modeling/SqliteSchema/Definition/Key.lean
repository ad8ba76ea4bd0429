import SqliteSchema.Parser.Value

/-!
Keys in a `CREATE TABLE` statement: lists of columns, and what happens where a key is refused.
-/
namespace SqliteSchema.Definition

open SqliteSchema.Parser

/-- `ON CONFLICT resolution`, which leaves no trace in the model. -/
def conflictClause : Parser Unit := do
  if ← look fun ts => ts[0]?.any (·.isKeyword .ON) && ts[1]?.any (·.isKeyword .CONFLICT) then
    let _ ← advance "ON"
    let _ ← advance "CONFLICT"
    let _ ← expectAnyKeyword [.ROLLBACK, .ABORT, .FAIL, .IGNORE, .REPLACE]
  else pure ()

def keyError (table : Table) (indices : List Nat) (token : Token) (conflict : KeyConflict) :
    ParseError :=
  .atToken (.keyConflict conflict (table.columnNames indices)
    (table.columnNames table.primaryKey)) token

/-- A refused key is an error at the token that opens it. -/
def acceptKey (table : Table) (indices : List Nat) (token : Token)
    (result : Except KeyConflict Table) : Parser Table :=
  ofExcept (result.mapError (keyError table indices token))

def primaryKey (table : Table) (indices : List Nat) (token : Token) : Parser Table :=
  acceptKey table indices token (table.setPrimaryKey indices)

def uniqueKey (table : Table) (indices : List Nat) (token : Token) : Parser Table :=
  acceptKey table indices token (table.addUnique indices)

def columnCollation (column : Option Column) : Parser Unit := do
  if ← eatKeyword .COLLATE then
    let _ ← collation (column.map (·.affinity))
  else pure ()

/-- What may stand behind a column of an index: a collation and an order. -/
def indexOptions (column : Option Column) : Parser Unit := do
  columnCollation column
  let _ ← eatAnyKeyword [.ASC, .DESC]

/-- The index of a named column that is not listed yet. -/
def listedColumn (table : Table) (listed : List Nat) : Parser Nat := do
  let token ← expectIdentifier "a column name"
  match table.columnIndex? token.unquoted with
  | none => fail (.atToken (.unknownColumn token.unquoted table.sqlName) token)
  | some index =>
    if listed.contains index then fail (.atToken (.columnListedTwice token.unquoted) token)
    else return index

/-- One more column of a list. -/
def extendList (table : Table) (indexed : Bool) (listed : List Nat) : Parser (List Nat) := do
  let index ← listedColumn table listed
  if indexed then
    indexOptions table.columns[index]?
    return listed ++ [index]
  else return listed ++ [index]

/-- Columns of a table in parentheses, as indices; those of an index may have options. -/
def columnList (table : Table) (indexed : Bool) : Parser (List Nat) := do
  let _ ← expect "("
  let first ← extendList table indexed []
  let indices ← loop (fun listed => do
    if ← eat "," then return some (← extendList table indexed listed) else return none) first
  let _ ← expect ")"
  return indices

end SqliteSchema.Definition
