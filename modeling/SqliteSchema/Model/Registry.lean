import SqliteSchema.Model.Table

namespace SqliteSchema

/-- The tables of a schema in the order of their declaration. -/
structure Registry where
  tables : List Table := []
  deriving DecidableEq, Repr

namespace Registry

def find? (r : Registry) (name : String) : Option Table := r.tables.find? (·.isNamed name)

def findOutput? (r : Registry) (outputName : String) : Option Table :=
  r.tables.find? (·.outputName == outputName)

def add (r : Registry) (t : Table) : Registry := ⟨r.tables ++ [t]⟩

def table? (r : Registry) (id : Nat) : Option Table := r.tables[id]?

/-- The table that a column belongs to. -/
def owner? (r : Registry) (c : Column) : Option Table := r.table? c.table

def updateTable (r : Registry) (id : Nat) (f : Table → Table) : Registry :=
  ⟨r.tables.modify id f⟩

/-- A table without columns under the next free index. -/
def newTable (r : Registry) (name : String) : Table := .named r.tables.length name

end Registry

end SqliteSchema
