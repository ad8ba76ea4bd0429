import SqliteSchema.Model.Column
import SqliteSchema.Model.ForeignKey

namespace SqliteSchema

/-- Why a primary key or a unique constraint cannot be added to a table. -/
inductive KeyConflict
  | primaryKeyExists
  | alreadyUnique (column : String)
  | matchesPrimaryKey
  | inPrimaryKey (column : String)
  | matchesUnique
  deriving DecidableEq, Repr

/-- A table. Columns stand in the order of their declaration and keys refer to them by index. A
unique constraint on one column is a flag of that column, one on several is a unique set. -/
structure Table where
  id : Nat
  sqlName : String
  outputName : String
  columns : List Column := []
  createTableText : String := ""
  isTemporary : Bool := false
  primaryKey : List Nat := []
  uniqueSets : List (List Nat) := []
  foreignKeys : List ForeignKey := []
  withoutRowid : Bool := false
  strict : Bool := false
  deriving DecidableEq, Repr

namespace Table

/-- A table without columns. -/
def named (id : Nat) (name : String) : Table where
  id := id
  sqlName := name
  outputName := Name.output name

def isNamed (t : Table) (name : String) : Bool := sameName t.sqlName name

def column? (t : Table) (name : String) : Option Column := t.columns.find? (·.isNamed name)

def columnIndex? (t : Table) (name : String) : Option Nat := t.columns.findIdx? (·.isNamed name)

/-- The names of the row number, where no column has taken them. -/
def rowidNames : List String := ["rowid", "oid", "_rowid_"]

def hasColumn (t : Table) (name : String) : Bool :=
  (t.column? name).isSome || (!t.withoutRowid && rowidNames.any (sameName · name))

/-- The row number as a column that is called `name`. -/
def rowid (t : Table) (name : String) : Column :=
  { Column.declare t.id name "INTEGER" with notNull := true }

/-- The column that a query means by `name`. -/
def columnOrRowid? (t : Table) (name : String) : Option Column :=
  match t.column? name with
  | some c => some c
  | none => if t.hasColumn name then some (t.rowid name) else none

def addColumn (t : Table) (name type : String) : Table :=
  { t with columns := t.columns ++ [.declare t.id name type] }

def updateColumn (t : Table) (index : Nat) (f : Column → Column) : Table :=
  { t with columns := t.columns.modify index f }

def hasPrimaryKey (t : Table) : Bool := !t.primaryKey.isEmpty || t.columns.any (·.primaryKey)

def primaryKeyColumns (t : Table) : List Column := t.primaryKey.filterMap (t.columns[·]?)

/-- The names of the columns with these indices, as messages list them. -/
def columnNames (t : Table) (indices : List Nat) : String :=
  ", ".intercalate ((indices.filterMap (t.columns[·]?)).map (·.sqlName))

/-- The lists have the same members and are not empty. -/
def sameMembers (a b : List Nat) : Bool := !a.isEmpty && a.isPerm b

def hasUniqueSet (t : Table) (indices : List Nat) : Bool :=
  t.uniqueSets.any (sameMembers · indices)

def isKeyColumn (t : Table) (index : Nat) : Bool :=
  (t.columns[index]?).any fun c => c.unique || c.primaryKey

/-- Values of exactly these columns are unique: they are the primary key, a unique column or a
unique set. -/
def isUniqueBy (t : Table) (indices : List Nat) : Bool :=
  match indices with
  | [] => false
  | [index] => t.isKeyColumn index || sameMembers t.primaryKey indices || t.hasUniqueSet indices
  | _ => sameMembers t.primaryKey indices || t.hasUniqueSet indices

/-- A key of one column also marks the column. -/
def setPrimaryKey (t : Table) (indices : List Nat) : Except KeyConflict Table :=
  if t.hasPrimaryKey then .error .primaryKeyExists else
  match indices with
  | [index] =>
    match (t.columns[index]?).filter (·.unique) with
    | some c => .error (.alreadyUnique c.sqlName)
    | none =>
      .ok { t.updateColumn index ({ · with primaryKey := true }) with primaryKey := indices }
  | _ =>
    if t.hasUniqueSet indices then .error .matchesUnique
    else .ok { t with primaryKey := indices }

def addUniqueColumn (t : Table) (index : Nat) : Except KeyConflict Table :=
  match t.columns[index]? with
  | none => .ok t
  | some c =>
    if c.primaryKey then .error .matchesPrimaryKey
    else if t.primaryKey.contains index then .error (.inPrimaryKey c.sqlName)
    else if c.unique then .error (.alreadyUnique c.sqlName)
    else .ok (t.updateColumn index ({ · with unique := true }))

def addUnique (t : Table) (indices : List Nat) : Except KeyConflict Table :=
  if sameMembers t.primaryKey indices then .error .matchesPrimaryKey else
  match indices with
  | [index] => t.addUniqueColumn index
  | _ =>
    if t.hasUniqueSet indices then .error .matchesUnique
    else .ok { t with uniqueSets := t.uniqueSets ++ [indices] }

end Table

end SqliteSchema
