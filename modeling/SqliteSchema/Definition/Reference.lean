import SqliteSchema.Definition.Key
import SqliteSchema.Model.Registry
import SqliteSchema.Text.CaseMapping

/-!
Foreign keys. The referenced table is one that was declared before or the table itself, and the
referenced columns have to be unique in it as far as it is known.
-/
namespace SqliteSchema.Definition

open SqliteSchema.Parser

/-- The actions of a foreign key, which default to none. -/
structure ReferentialActions where
  onDelete : ReferentialAction := .noAction
  onUpdate : ReferentialAction := .noAction
  deriving DecidableEq, Repr

def referentialAction : Parser ReferentialAction := do
  match ← expectAnyKeyword [.SET, .CASCADE, .RESTRICT, .NO] with
  | .SET =>
    match ← expectAnyKeyword [.NULL, .DEFAULT] with
    | .NULL => return .setNull
    | _ => return .setDefault
  | .CASCADE => return .cascade
  | .RESTRICT => return .restrict
  | _ =>
    let _ ← expectKeyword .ACTION
    return .noAction

/-- Behind `ON`. -/
def onClause (actions : ReferentialActions) : Parser ReferentialActions := do
  match ← expectAnyKeyword [.DELETE, .UPDATE] with
  | .DELETE => return { actions with onDelete := ← referentialAction }
  | _ => return { actions with onUpdate := ← referentialAction }

/-- Behind `MATCH`, which has no effect. -/
def matchClause (token : Token) : Parser Unit := do
  let kind ← expectIdentifier "SIMPLE, PARTIAL or FULL"
  let name := String.ofList (Text.uppercase kind.value.toList)
  warn .matchNotEnforced s!"MATCH {name} is parsed but not enforced" token

def startsDeferrable (ts : List Token) : Bool :=
  ts[0]?.any (·.isKeyword .DEFERRABLE) ||
    (ts[0]?.any (·.isKeyword .NOT) && ts[1]?.any (·.isKeyword .DEFERRABLE))

/-- `[NOT] DEFERRABLE [INITIALLY DEFERRED | IMMEDIATE]` -/
def deferrableClause : Parser Unit := do
  let _ ← eatKeyword .NOT
  let _ ← advance "DEFERRABLE"
  if ← eatKeyword .INITIALLY then
    let _ ← expectAnyKeyword [.DEFERRED, .IMMEDIATE]
  else pure ()

/-- Clauses behind the referenced columns come in any order and number; the last one counts. -/
def referenceClause (actions : ReferentialActions) : Parser (Option ReferentialActions) := do
  if ← eatKeyword .ON then return some (← onClause actions)
  else
    match ← accept (·.isKeyword .MATCH) with
    | some token =>
      matchClause token
      return some actions
    | none =>
      if ← look startsDeferrable then
        deferrableClause
        return some actions
      else return none

/-- The referenced columns for `count` own ones: those listed, or the primary key of the table. -/
def referencedColumns (foreign : Table) (count : Nat) :
    Option (List Nat) → Except Fault (List Nat)
  | some listed =>
    if listed.length = count then .ok listed
    else .error (.foreignKeyLength count listed.length foreign.sqlName)
  | none =>
    if foreign.primaryKey.length = count then .ok foreign.primaryKey
    else .error (.foreignPrimaryKeyLength foreign.sqlName foreign.primaryKey.length count)

/-- The referenced columns, which have to be unique. -/
def referencedKey (foreign : Table) (count : Nat) (listed : Option (List Nat)) :
    Except Fault (List Nat) := do
  let indices ← referencedColumns foreign count listed
  if foreign.isUniqueBy indices then return indices
  else .error (.foreignNotUnique (foreign.columnNames indices) foreign.sqlName)

def listedColumns (foreign : Table) : Parser (Option (List Nat)) := do
  if ← check "(" then return some (← columnList foreign false) else return none

/-- Behind `REFERENCES`: adds a foreign key on these columns of the table. -/
def references (earlier : Registry) (table : Table) (columns : List Nat) : Parser Table := do
  let name ← expectIdentifier "a table name"
  match (earlier.add table).find? name.unquoted with
  | none => fail (.atToken (.unknownReferencedTable name.unquoted) name)
  | some foreign =>
    let listed ← listedColumns foreign
    let actions ← loop referenceClause {}
    let key := referencedKey foreign columns.length listed
    let indices ← ofExcept (key.mapError (.atToken · name))
    return { table with
      foreignKeys := table.foreignKeys ++
        [⟨columns, foreign.id, indices, actions.onDelete, actions.onUpdate⟩] }

end SqliteSchema.Definition
