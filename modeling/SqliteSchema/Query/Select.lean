import SqliteSchema.Expr.Parse
import SqliteSchema.Lexeme.Stream
import SqliteSchema.Query.Basic

/-!
`SELECT [DISTINCT | ALL] columns [FROM tables] [WHERE expr] [ORDER BY terms]
[LIMIT expr [OFFSET expr | , expr]] [;]`
-/
namespace SqliteSchema.Query

open SqliteSchema.Parser

/-- `AS name`, or a name that is no keyword. -/
def givenName? : Parser (Option String) := do
  if ← eatKeyword .AS then return some (← expectIdentifier "an alias").unquoted
  else return (← accept fun t => t.isIdentifier && t.keyword.isNone).map (·.unquoted)

def startsAllColumnsOf : List Token → Bool
  | table :: point :: star :: _ => table.isIdentifier && point.is "." && star.is "*"
  | _ => false

/-- `table.*` -/
def allColumnsOf : Parser SelectItem := do
  let table ← advance "'*'"
  let _ ← advance "'*'"
  let _ ← advance "'*'"
  return .allColumnsOf table

/-- A column and its alias. It is looked up when the `FROM` list is known. -/
def namedColumn (registry : Registry) : Parser SelectItem := do
  let first ← current "a result column"
  match ← Expr.parse ⟨registry, .deferred⟩ .all with
  | .column reference => return .column reference.table reference.column (← givenName?)
  | _ => fail (.atToken .notAColumn first)

def selectItem (registry : Registry) : Parser SelectItem := do
  let _ ← current "a result column"
  if ← eat "*" then return .allColumns
  else if ← look startsAllColumnsOf then allColumnsOf
  else namedColumn registry

/-- `INDEXED BY name` or `NOT INDEXED` -/
def indexHint : Parser Unit := do
  if ← eatKeyword .INDEXED then
    let _ ← expectKeyword .BY
    let _ ← expectIdentifier "an index name"
  else if ← look fun ts => ts[0]?.any (·.isKeyword .NOT) && ts[1]?.any (·.isKeyword .INDEXED) then
    let _ ← advance "NOT"
    let _ ← advance "INDEXED"
  else pure ()

def joinKeywords : List Keyword := [.JOIN, .INNER, .LEFT, .RIGHT, .FULL, .CROSS, .NATURAL, .OUTER]

def refuseJoin : Parser Unit := do
  match ← peek with
  | some token =>
    if joinKeywords.any token.isKeyword then fail (.atToken .join token) else pure ()
  | none => pure ()

def refuseSubquery : Parser Unit := do
  let token ← current "a table name"
  if token.is "(" then fail (.atToken .subqueryInFrom token) else pure ()

/-- The name of a table in the registry. -/
def knownTable (registry : Registry) : Parser (Token × Table) := do
  let name ← expectIdentifier "a table name"
  if ← check "." then fail (.atToken .schemaQualifiedTable name)
  else
    match registry.find? name.unquoted with
    | some table => return (name, table)
    | none => fail (.atToken (.unknownTable name.unquoted) name)

/-- One more entry of a `FROM` list. Every entry has an alias of its own. -/
def extendFrom (registry : Registry) (sources : List Source) : Parser (List Source) := do
  refuseSubquery
  let (name, table) ← knownTable registry
  let given := (← givenName?).getD name.unquoted
  if sources.any (sameName ·.name given) then fail (.atToken (.aliasTaken given) name)
  else
    indexHint
    refuseJoin
    return sources ++ [⟨given, table⟩]

def fromClause (registry : Registry) : Parser (List Source) := do
  if ← eatKeyword .FROM then
    let first ← extendFrom registry []
    loop (fun sources => do
      if ← eat "," then return some (← extendFrom registry sources) else return none) first
  else return []

def whereClause (context : Context) : Parser Unit := do
  if ← eatKeyword .WHERE then
    let _ ← Expr.parse context .all
  else pure ()

def orderClause (context : Context) : Parser Unit := do
  if ← eatKeyword .ORDER then
    let _ ← expectKeyword .BY
    Expr.orderingTerms (Expr.parse context)
  else pure ()

/-- `OFFSET expr`, or a comma and the expression. -/
def offset (context : Context) : Parser Unit := do
  if ← eatKeyword .OFFSET then
    let _ ← Expr.parse context .all
  else if ← eat "," then
    let _ ← Expr.parse context .all
  else pure ()

def limitClause (context : Context) : Parser Unit := do
  if ← eatKeyword .LIMIT then
    let _ ← Expr.parse context .all
    offset context
  else pure ()

def openSelect : Parser Unit := do
  let first ← current "SELECT"
  if first.isKeyword .SELECT then
    let _ ← advance "SELECT"
  else fail (.atToken (.notSelect first.value) first)

/-- `[DISTINCT | ALL]` -/
def distinctness : Parser Bool := do
  if ← eatKeyword .DISTINCT then return true
  else
    let _ ← eatKeyword .ALL
    return false

/-- Nothing may follow the query but one semicolon. -/
def finish : Parser Unit := do
  let _ ← eat ";"
  match ← peek with
  | some token => fail (.unexpected "end of query" token)
  | none => pure ()

def boundParameters : Parser Parameters := fun s => .ok s.parameters s

def select (registry : Registry) : Parser Query := do
  openSelect
  let distinct ← distinctness
  let items ← separated (selectItem registry)
  let sources ← fromClause registry
  let context : Context := ⟨registry, .sources sources⟩
  whereClause context
  orderClause context
  limitClause context
  finish
  let parameters ← boundParameters
  ofExcept (Query.process { distinct, sources, items, parameters })

/-- The query of a text on the tables of a registry, and the warnings. -/
def ofText (registry : Registry) (text : String) : Except Failure (Query × List Warning) :=
  match Token.tokenize text with
  | .error e => .error ⟨e, []⟩
  | .ok tokens => (select registry).run tokens

end SqliteSchema.Query
