import SqliteSchema.Model.Affinity
import SqliteSchema.Name
import SqliteSchema.Token

namespace SqliteSchema

/-- A column of the table whose index is `table`. The declared type is empty where none is
given. -/
structure Column where
  sqlName : String
  sqlType : String
  outputName : String
  affinity : Affinity
  notNull : Bool := false
  primaryKey : Bool := false
  autoIncrement : Bool := false
  unique : Bool := false
  collation : Option String := none
  table : Nat
  deriving DecidableEq, Repr

namespace Column

/-- A column without constraints. -/
def declare (table : Nat) (name type : String) : Column where
  sqlName := name
  sqlType := type
  outputName := Name.output name
  affinity := .ofDeclaredType type
  table := table

def isNamed (c : Column) (name : String) : Bool := sameName c.sqlName name

/-- An `INTEGER PRIMARY KEY` column is another name of the row number. -/
def isRowidAlias (c : Column) : Bool := c.primaryKey && sameName c.sqlType "INTEGER"

/-- The type of the column's values in generated code. -/
def outputType (c : Column) : String :=
  if c.notNull || c.isRowidAlias then c.affinity.outputType
  else s!"Option<{c.affinity.outputType}>"

end Column

end SqliteSchema
