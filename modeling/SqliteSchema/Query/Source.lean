import SqliteSchema.Model.Registry

namespace SqliteSchema

/-- An entry of a `FROM` list: a table and the name it goes by. -/
structure Source where
  name : String
  table : Table
  deriving DecidableEq, Repr

namespace Source

/-- Which entry a qualifier means: aliases are tried first, then the names of the tables. -/
def position? (sources : List Source) (qualifier : String) : Option Nat :=
  (sources.findIdx? fun s => sameName s.name qualifier).or
    (sources.findIdx? fun s => s.table.isNamed qualifier)

def find? (sources : List Source) (qualifier : String) : Option Source :=
  (position? sources qualifier).bind (sources[·]?)

end Source

end SqliteSchema
