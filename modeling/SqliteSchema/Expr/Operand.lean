import SqliteSchema.Expr.Basic
import SqliteSchema.Parser.Value

/-!
The parts of an expression. Each parser here takes the parser of whole expressions as `operand`
and uses it behind at least one token of its own.
-/
namespace SqliteSchema

/-- How far binary operators reach: over all of them, over all but the `AND` that belongs to a
`BETWEEN`, or over none. -/
inductive Chain
  | all | exceptAnd | none
  deriving DecidableEq, Repr

def Chain.admits (chain : Chain) (operator : Token) : Bool :=
  match chain with
  | .all => true
  | .exceptAnd => !operator.isKeyword .AND
  | .none => false

/-- What expressions refer to. -/
structure Context where
  registry : Registry
  scope : Scope
  deriving DecidableEq, Repr

namespace Expr

open SqliteSchema.Parser

/-- The parser of whole expressions. -/
abbrev Operand := Chain → Parser Expr

/-- Reserved words that are also the names of functions. -/
def callableKeywords : List Keyword := [.LIKE, .GLOB, .REGEXP]

def isFunctionName (t : Token) : Bool :=
  t.isIdentifier &&
    t.keyword.all fun k => callableKeywords.contains k || (!k.isReserved && k != .RAISE)

def startsFunction : List Token → Bool
  | name :: paren :: _ => paren.is "(" && isFunctionName name
  | _ => false

/-- Sub-queries are not read; they are told by their first word. -/
def startsSubquery : List Token → Bool
  | paren :: word :: _ => paren.is "(" && (word.isKeyword .SELECT || word.isKeyword .WITH)
  | _ => false

def list (operand : Operand) : Parser (List Expr) := separated (operand .all)

/-- Expressions in parentheses, perhaps none. -/
def arguments (operand : Operand) : Parser Unit := do
  let _ ← expect "("
  if ← check ")" then
    let _ ← expect ")"
  else
    let _ ← list operand
    let _ ← expect ")"

def nullsOrder : Parser Unit := do
  if ← eatKeyword .NULLS then
    let _ ← expectAnyKeyword [.FIRST, .LAST]
  else pure ()

def orderingTerm (operand : Operand) : Parser Unit := do
  let _ ← operand .all
  let _ ← eatAnyKeyword [.ASC, .DESC]
  nullsOrder

def orderingTerms (operand : Operand) : Parser Unit := do
  let _ ← separated (orderingTerm operand)

/-- `CAST ( expr AS type )` -/
def cast (operand : Operand) : Parser Expr := do
  let _ ← expectKeyword .CAST
  let _ ← expect "("
  let _ ← operand .all
  let _ ← expectKeyword .AS
  match ← typeName with
  | some _ =>
    let _ ← expect ")"
    return .compound
  | none => fail (.unexpected "a type name" (← current "a type name"))

/-- The base expression of a `CASE`, if there is one. -/
def caseBase (operand : Operand) : Parser Unit := do
  if ← checkKeyword .WHEN then pure ()
  else
    let _ ← operand .all

/-- Behind a `WHEN`. -/
def caseArm (operand : Operand) : Parser Unit := do
  let _ ← operand .all
  let _ ← expectKeyword .THEN
  let _ ← operand .all

def caseElse (operand : Operand) : Parser Unit := do
  if ← eatKeyword .ELSE then
    let _ ← operand .all
  else pure ()

/-- `CASE [base] WHEN expr THEN expr [WHEN ...] [ELSE expr] END` -/
def caseExpression (operand : Operand) : Parser Expr := do
  let _ ← expectKeyword .CASE
  caseBase operand
  let _ ← expectKeyword .WHEN
  caseArm operand
  loop (fun _ => do
    if ← eatKeyword .WHEN then return some (← caseArm operand) else return none) ()
  caseElse operand
  let _ ← expectKeyword .END
  return .compound

/-- `IGNORE`, or another way to fail and its message. -/
def raiseAction : Parser Unit := do
  if ← eatKeyword .IGNORE then pure ()
  else
    let _ ← expectAnyKeyword [.ROLLBACK, .ABORT, .FAIL]
    let _ ← expect ","
    let _ ← require "an error message" (·.kind == .string)

/-- `RAISE ( action )` -/
def raise : Parser Expr := do
  let _ ← expectKeyword .RAISE
  let _ ← expect "("
  raiseAction
  let _ ← expect ")"
  return .compound

/-- A single expression in parentheses stands for itself. -/
def parenthesized (operand : Operand) : Parser Expr := do
  if ← look startsSubquery then
    let _ ← skipBalanced
    return .compound
  else
    let _ ← expect "("
    let items ← list operand
    let _ ← expect ")"
    match items with
    | [single] => return single
    | _ => return .compound

def isColumnName (t : Token) : Bool := t.isIdentifier && !t.keyword.any Keyword.isReserved

/-- The column behind a point. A second point would make `first` the name of a schema. -/
def qualifiedColumn (first : Token) : Parser ColumnReference := do
  let name ← expectIdentifier "a column name"
  if ← check "." then fail (.atToken .schemaQualifiedColumn first)
  else return ⟨some first, name⟩

def columnReference : Parser ColumnReference := do
  let first ← require "an expression" isColumnName
  if ← eat "." then qualifiedColumn first
  else return ⟨none, first⟩

def columnOperand (context : Context) : Parser Expr := do
  let reference ← columnReference
  ofExcept (context.scope.check context.registry reference)
  return .column reference

end Expr

end SqliteSchema
