import SqliteSchema.Model.Column

/-!
Distinct names for the columns of a query. A column without an alias that shares its name with a
column of another `FROM` entry gets the name of its table in front; names that are shared even
then are numbered in the order of the columns.
-/
namespace SqliteSchema

/-- A column of a query: the `FROM` entry that it comes from, the output name of that entry's
table, and whether an alias names the column. -/
structure Projected where
  entry : Nat
  owner : String
  aliased : Bool
  column : Column
  deriving DecidableEq, Repr

namespace Projected

def name (p : Projected) : String := p.column.outputName

def rename (p : Projected) (name : String) : Projected :=
  { p with column := { p.column with outputName := name } }

/-- The column shares its name with one of another entry, and no alias settles it. -/
def clashes (ps : List Projected) (p : Projected) : Bool :=
  !p.aliased && ps.any fun q => q.entry != p.entry && q.name == p.name

def qualify (ps : List Projected) (p : Projected) : Projected :=
  if p.clashes ps then p.rename (p.owner ++ p.name) else p

/-- The least number from `n` on that makes an untaken name. A taken name is tried only once. -/
def freeNumber (taken : List String) (base : String) (n : Nat) : Nat :=
  if h : s!"{base}{n}" ∈ taken then freeNumber (taken.erase s!"{base}{n}") base (n + 1) else n
termination_by taken.length
decreasing_by
  have h₁ := List.length_erase_of_mem h
  have h₂ := List.length_pos_of_mem h
  omega

/-- Numbers the columns that are called `base`, beginning with `n`. A pair holds the name before
and the name after. -/
def numberGroup (base : String) (taken : List String) (n : Nat) :
    List (String × String) → List String × List (String × String)
  | [] => (taken, [])
  | (old, new) :: rest =>
    if old = base then
      let k := freeNumber taken base n
      let name := s!"{base}{k}"
      let (taken, rest) := numberGroup base (name :: taken) (k + 1) rest
      (taken, (old, name) :: rest)
    else
      let (taken, rest) := numberGroup base taken n rest
      (taken, (old, new) :: rest)

/-- The names that occur more than once, in the order in which they occur first. -/
def sharedNames (names : List String) : List String :=
  (names.filter fun name => names.count name > 1).eraseDups

/-- Numbers shared names, one name after the other. Names that occur once are taken. -/
def numberNames (names : List String) : List String :=
  let taken := names.filter fun name => names.count name == 1
  let start := (taken, names.map fun name => (name, name))
  let (_, pairs) := (sharedNames names).foldl
    (fun (taken, pairs) base => numberGroup base taken 1 pairs) start
  pairs.map (·.2)

/-- The columns under their distinct names. -/
def distinct (ps : List Projected) : List Column :=
  let qualified := ps.map (qualify ps)
  List.zipWith (fun p name => (p.rename name).column) qualified
    (numberNames (qualified.map name))

end Projected

end SqliteSchema
