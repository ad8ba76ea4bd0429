import SqliteSchema.Expr.Operand

/-!
Window definitions behind `OVER`. The clauses come in any order and each of them at most once.
-/
namespace SqliteSchema.Expr

open SqliteSchema.Parser

def frameUnits : List Keyword := [.RANGE, .ROWS, .GROUPS]

/-- `UNBOUNDED PRECEDING`, `CURRENT ROW` or `expr PRECEDING`, with `FOLLOWING` where it is
allowed. -/
def frameBound (operand : Operand) (directions : List Keyword) : Parser Unit := do
  if ← eatKeyword .CURRENT then
    let _ ← expectKeyword .ROW
  else if ← eatKeyword .UNBOUNDED then
    let _ ← expectAnyKeyword directions
  else
    let _ ← operand .exceptAnd
    let _ ← expectAnyKeyword directions

def frameExtent (operand : Operand) : Parser Unit := do
  if ← eatKeyword .BETWEEN then
    frameBound operand [.PRECEDING, .FOLLOWING]
    let _ ← expectKeyword .AND
    frameBound operand [.PRECEDING, .FOLLOWING]
  else frameBound operand [.PRECEDING]

def frameExclusion : Parser Unit := do
  if ← eatKeyword .EXCLUDE then
    match ← expectAnyKeyword [.NO, .CURRENT, .GROUP, .TIES] with
    | .NO =>
      let _ ← expectKeyword .OTHERS
    | .CURRENT =>
      let _ ← expectKeyword .ROW
    | _ => pure ()
  else pure ()

/-- The clauses of a window definition that were read already. -/
structure WindowClauses where
  partition : Bool := false
  order : Bool := false
  frame : Bool := false
  deriving DecidableEq, Repr

/-- A keyword that opens a clause, which must not have been read before. -/
def openClause (name : String) (seen : Bool) (token : Token) : Parser Unit := do
  if seen then fail (.atToken (.repeatedWindowClause name) token)
  else
    let _ ← advance name

def windowClause (operand : Operand) (seen : WindowClauses) : Parser (Option WindowClauses) := do
  let token ← current "')'"
  match token.keyword with
  | some .PARTITION =>
    openClause "PARTITION BY" seen.partition token
    let _ ← expectKeyword .BY
    let _ ← list operand
    return some { seen with partition := true }
  | some .ORDER =>
    openClause "ORDER BY" seen.order token
    let _ ← expectKeyword .BY
    orderingTerms operand
    return some { seen with order := true }
  | some .RANGE | some .ROWS | some .GROUPS =>
    openClause "A frame specification" seen.frame token
    frameExtent operand
    frameExclusion
    return some { seen with frame := true }
  | _ => return none

/-- A name in front of the clauses is that of a base window, unless it opens a clause. -/
def isBaseWindow (t : Token) : Bool :=
  t.isIdentifier && !(t.isKeyword .PARTITION || t.isKeyword .ORDER || frameUnits.any t.isKeyword)

def windowDefinition (operand : Operand) : Parser Unit := do
  let _ ← expect "("
  let _ ← accept isBaseWindow
  let _ ← loop (windowClause operand) {}
  let _ ← expect ")"

/-- Behind `OVER`: the name of a window or a definition. -/
def overClause (operand : Operand) : Parser Unit := do
  if ← check "(" then windowDefinition operand
  else
    let _ ← expectIdentifier "a window name or '('"

end SqliteSchema.Expr
