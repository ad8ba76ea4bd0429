import SqliteSchema.Expr.Window

/-!
Expressions. After an operand and its trailing clauses a binary operator takes the whole rest as
its right-hand side; there is no precedence.
-/
namespace SqliteSchema.Expr

open SqliteSchema.Parser

/-- The first word of an expression, where an argument may also be missing. -/
def startsExpression (t : Token) : Bool :=
  t.isLiteral || t.is "(" || t.isUnary || t.isParameter ||
    match t.keyword with
    | some k =>
      [Keyword.CAST, .EXISTS, .CASE, .RAISE, .NOT, .NULL].contains k || !k.isReserved
    | none => t.isIdentifier

def mayStart : List Token → Bool
  | [] => false
  | t :: rest => startsExpression t || startsFunction (t :: rest)

/-- An expression, if the next token can start one. -/
def probe (operand : Operand) : Parser (Option Expr) := do
  if ← look mayStart then return some (← operand .all) else return none

/-- The arguments of a function behind its opening parenthesis. -/
def functionArguments (operand : Operand) : Parser Unit := do
  if ← eat "*" then pure ()
  else
    let distinct ← eatKeyword .DISTINCT
    match ← probe operand with
    | some _ =>
      loop (fun _ => do
        if ← eat "," then
          let _ ← operand .all
          return some ()
        else return none) ()
    | none =>
      if distinct then fail (.unexpected "an expression" (← current "an expression"))
      else pure ()

def filterClause (operand : Operand) : Parser Unit := do
  if ← eatKeyword .FILTER then
    let _ ← expect "("
    let _ ← expectKeyword .WHERE
    let _ ← operand .all
    let _ ← expect ")"
  else pure ()

def windowOf (operand : Operand) : Parser Unit := do
  if ← eatKeyword .OVER then overClause operand else pure ()

/-- `name ( arguments ) [FILTER ( WHERE expr )] [OVER window]` -/
def functionCall (operand : Operand) : Parser Expr := do
  let name ← advance "a function name"
  let _ ← expect "("
  functionArguments operand
  let _ ← expect ")"
  filterClause operand
  windowOf operand
  return .function name.unquoted

/-- Operands that start with a keyword, a parenthesis or a sign, and columns. -/
def simpleOperand (context : Context) (operand : Operand) (token : Token) : Parser Expr := do
  match token.keyword with
  | some .CAST => cast operand
  | some .EXISTS =>
    let _ ← advance "EXISTS"
    let _ ← skipBalanced
    return .compound
  | some .CASE => caseExpression operand
  | some .RAISE => raise
  | some .NOT =>
    let _ ← advance "NOT"
    let _ ← operand .none
    return .compound
  | _ =>
    if token.is "(" then parenthesized operand
    else if token.isUnary then
      let _ ← advance "an operator"
      let _ ← operand .none
      return .compound
    else columnOperand context

def boundParameter (token : Token) : Parser Expr := do
  let _ ← advance "a parameter"
  return .parameter (← register token)

def primary (context : Context) (operand : Operand) : Parser Expr := do
  match ← literalValue with
  | some token => return .literal token
  | none =>
    let token ← current "an expression"
    if token.isParameter then boundParameter token
    else if ← look startsFunction then functionCall operand
    else simpleOperand context operand token

/-- Behind `IN`: a sub-query, a list, a table function or a table. -/
def inTarget (context : Context) (operand : Operand) : Parser Unit := do
  if ← look startsSubquery then
    let _ ← skipBalanced
  else if ← check "(" then arguments operand
  else
    let name ← expectIdentifier "'(' or a table name"
    if ← check "(" then arguments operand
    else if (context.registry.find? name.unquoted).isSome then pure ()
    else fail (.atToken (.unknownTable name.unquoted) name)

/-- Keywords that may follow a `NOT` behind an operand. -/
def negatable : List Keyword := [.LIKE, .GLOB, .REGEXP, .MATCH, .NULL, .BETWEEN, .IN]

def escapeClause (operand : Operand) : Parser Unit := do
  if ← eatKeyword .ESCAPE then
    let _ ← operand .none
  else pure ()

def distinctFrom : Parser Unit := do
  if ← eatKeyword .DISTINCT then
    let _ ← expectKeyword .FROM
  else pure ()

/-- Reads one clause behind an operand, if there is one. -/
def trailingClause (context : Context) (operand : Operand) : Parser Bool := do
  match (← peek).bind Token.keyword with
  | some .COLLATE =>
    let _ ← advance "COLLATE"
    let _ ← collation none
    return true
  | some .NOT =>
    if ← look (·[1]?.any fun t => negatable.any t.isKeyword) then
      let _ ← advance "NOT"
      let _ ← eatKeyword .NULL
      return true
    else return false
  | some .LIKE =>
    let _ ← advance "LIKE"
    let _ ← operand .none
    escapeClause operand
    return true
  | some .GLOB | some .REGEXP | some .MATCH =>
    let _ ← advance "an operator"
    let _ ← operand .none
    return true
  | some .ISNULL | some .NOTNULL =>
    let _ ← advance "an operator"
    return true
  | some .IS =>
    let _ ← advance "IS"
    let _ ← eatKeyword .NOT
    distinctFrom
    let _ ← operand .none
    return true
  | some .BETWEEN =>
    let _ ← advance "BETWEEN"
    let _ ← operand .exceptAnd
    let _ ← expectKeyword .AND
    let _ ← operand .exceptAnd
    return true
  | some .IN =>
    let _ ← advance "IN"
    inTarget context operand
    return true
  | _ => return false

/-- Reads the clauses behind an operand; there was one if the result is true. -/
def trailingClauses (context : Context) (operand : Operand) : Parser Bool :=
  loop (fun _ => do
    if ← trailingClause context operand then return some true else return none) false

/-- Reads a binary operator within reach and all that follows it. -/
def chained (operand : Operand) (chain : Chain) : Parser Bool := do
  if ← look (·.head?.any fun t => t.isBinary && chain.admits t) then
    let _ ← advance "an operator"
    let _ ← operand chain
    return true
  else return false

/-- An expression whose operands are read by `operand`. -/
def layer (context : Context) (operand : Operand) (chain : Chain) : Parser Expr := do
  let first ← primary context operand
  let clauses ← trailingClauses context operand
  let more ← chained operand chain
  return if clauses || more then .compound else first

/-- Expressions that nest at most `depth` deep. Where no token is left there is no expression. -/
def within (context : Context) : Nat → Operand
  | 0, _ => fail (.endOfInput "an expression")
  | depth + 1, chain => layer context (within context depth) chain

/-- An expression. An operand inside it starts behind its first token, so the number of tokens
ahead bounds the nesting. -/
def parse (context : Context) : Operand := fun chain s =>
  within context s.rest.length chain s

end SqliteSchema.Expr
