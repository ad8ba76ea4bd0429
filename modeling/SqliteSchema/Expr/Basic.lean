import SqliteSchema.Diagnostic.ParseError
import SqliteSchema.Query.Source

namespace SqliteSchema

/-- `[table.]column` as it is written. -/
structure ColumnReference where
  table : Option Token
  column : Token
  deriving DecidableEq, Repr

namespace ColumnReference

def name (r : ColumnReference) : String := r.column.unquoted

def qualifier (r : ColumnReference) : Option String := r.table.map Token.unquoted

end ColumnReference

/-- What an expression turned out to be. All but a single operand in any number of parentheses is
`compound`: expressions are checked, and no tree is built. -/
inductive Expr
  | literal (token : Token)
  | parameter (number : Nat)
  | column (reference : ColumnReference)
  | function (name : String)
  | compound
  deriving DecidableEq, Repr

/-- Where column references are looked up. `deferred` accepts all of them. -/
inductive Scope
  | table (table : Table)
  | sources (sources : List Source)
  | deferred
  deriving DecidableEq, Repr

namespace Scope

def requireColumn (table : Table) (r : ColumnReference) : Except ParseError Unit :=
  if table.hasColumn r.name then .ok ()
  else .error (.atToken (.unknownColumn r.name table.sqlName) r.column)

/-- A name without a table has to belong to exactly one entry. -/
def requireOneOwner (sources : List Source) (r : ColumnReference) : Except ParseError Unit :=
  match sources.countP (·.table.hasColumn r.name) with
  | 0 => .error (.atToken (.unknownInFrom r.name) r.column)
  | 1 => .ok ()
  | _ => .error (.atToken (.ambiguousColumn r.name) r.column)

/-- Checks a reference. Qualifiers of a table's own expressions are names in the registry. -/
def check (registry : Registry) (scope : Scope) (r : ColumnReference) : Except ParseError Unit :=
  match scope, r.table with
  | .deferred, _ => .ok ()
  | .table owner, none => requireColumn owner r
  | .table _, some qualifier =>
    match registry.find? qualifier.unquoted with
    | some owner => requireColumn owner r
    | none => .error (.atToken (.unknownTable qualifier.unquoted) qualifier)
  | .sources entries, none => requireOneOwner entries r
  | .sources entries, some qualifier =>
    match Source.find? entries qualifier.unquoted with
    | some source => requireColumn source.table r
    | none => .error (.atToken (.notInFrom qualifier.unquoted) qualifier)

end Scope

end SqliteSchema
