import SqliteSchema.Diagnostic.ParseError
import SqliteSchema.Query.Renaming
import SqliteSchema.Query.Source

/-!
Queries and the columns that they return.
-/
namespace SqliteSchema

/-- An entry of a select list. -/
inductive SelectItem
  | allColumns
  | allColumnsOf (table : Token)
  | column (table : Option Token) (column : Token) (newName : Option String)
  deriving DecidableEq, Repr

/-- A `SELECT`. Its columns are known once its select list is resolved, which happens only
once. -/
structure Query where
  distinct : Bool := false
  sources : List Source := []
  items : List SelectItem := []
  parameters : Parameters := {}
  projection : Option (List Column) := none
  deriving DecidableEq, Repr

namespace Query

def addSource (q : Query) (source : Source) : Query := { q with sources := q.sources ++ [source] }

def addItem (q : Query) (item : SelectItem) : Query := { q with items := q.items ++ [item] }

def columns (q : Query) : List Column := q.projection.getD []

/-- A column of the entry with this index, under its own name or that of an alias. -/
def project (entry : Nat) (source : Source) (newName : Option String) (column : Column) :
    Projected where
  entry := entry
  owner := source.table.outputName
  aliased := newName.isSome
  column :=
    match newName with
    | some name => { column with outputName := Name.output name }
    | none => column

def allOf (entry : Nat) (source : Source) : List Projected :=
  source.table.columns.map (project entry source none)

/-- The entry that a qualifier means, and its index. -/
def entry (sources : List Source) (qualifier : Token) : Except ParseError (Nat × Source) :=
  match (Source.position? sources qualifier.unquoted).bind fun i =>
      (sources[i]?).map fun s => (i, s) with
  | some found => .ok found
  | none => .error (.atToken (.notInFrom qualifier.unquoted) qualifier)

/-- The entries that have a column of this name, with the column. -/
def candidates (sources : List Source) (name : String) : List ((Nat × Source) × Column) :=
  sources.zipIdx.filterMap fun (s, i) => (s.table.columnOrRowid? name).map fun c => ((i, s), c)

/-- The column that is meant by a name, which belongs to one entry only unless it is qualified. -/
def resolveColumn (sources : List Source) (qualifier : Option Token) (column : Token) :
    Except ParseError ((Nat × Source) × Column) :=
  match qualifier with
  | some token =>
    match entry sources token with
    | .error e => .error e
    | .ok (i, s) =>
      match s.table.columnOrRowid? column.unquoted with
      | some c => .ok ((i, s), c)
      | none => .error (.atToken (.unknownColumn column.unquoted s.table.sqlName) column)
  | none =>
    match candidates sources column.unquoted with
    | [] => .error (.atToken (.unknownInFrom column.unquoted) column)
    | [single] => .ok single
    | _ => .error (.atToken (.ambiguousColumn column.unquoted) column)

/-- The columns of an entry of a select list. -/
def resolve (sources : List Source) : SelectItem → Except ParseError (List Projected)
  | .allColumns => .ok (sources.zipIdx.flatMap fun (s, i) => allOf i s)
  | .allColumnsOf table => (entry sources table).map fun (i, s) => allOf i s
  | .column table column newName =>
    (resolveColumn sources table column).map fun ((i, s), c) => [project i s newName c]

/-- The columns of a select list, in its order. -/
def resolveAll (sources : List Source) (items : List SelectItem) :
    Except ParseError (List Projected) :=
  match items with
  | [] => .ok []
  | item :: rest => do
    let first ← resolve sources item
    return first ++ (← resolveAll sources rest)

/-- The query with its columns. A query that has them already is not changed. -/
def process (q : Query) : Except ParseError Query :=
  match q.projection with
  | some _ => .ok q
  | none =>
    (resolveAll q.sources q.items).map fun ps =>
      { q with projection := some (Projected.distinct ps) }

section Results

variable {sources : List Source} {item : SelectItem} {items : List SelectItem} {table : Token}
  {qualifier : Option Token} {column : Token} {newName : Option String} {ps : List Projected}
  {e : ParseError} {q q' : Query}

theorem resolve_allColumnsOf_eq_ok :
    resolve sources (.allColumnsOf table) = .ok ps ↔
      ∃ i s, entry sources table = .ok (i, s) ∧ allOf i s = ps := by
  rw [resolve]
  cases entry sources table with
  | error e => exact ⟨nofun, nofun⟩
  | ok found =>
    obtain ⟨i, s⟩ := found
    refine ⟨fun h => ⟨i, s, rfl, Except.ok.inj h⟩, ?_⟩
    rintro ⟨_, _, ⟨⟩, rfl⟩
    rfl

theorem resolve_column_eq_ok :
    resolve sources (.column qualifier column newName) = .ok ps ↔
      ∃ i s c, resolveColumn sources qualifier column = .ok ((i, s), c) ∧
        [project i s newName c] = ps := by
  rw [resolve]
  cases resolveColumn sources qualifier column with
  | error e => exact ⟨nofun, fun ⟨_, _, _, h, _⟩ => nomatch h⟩
  | ok found =>
    obtain ⟨⟨i, s⟩, c⟩ := found
    refine ⟨fun h => ⟨i, s, c, rfl, Except.ok.inj h⟩, ?_⟩
    rintro ⟨_, _, _, ⟨⟩, rfl⟩
    rfl

theorem resolve_eq_error (h : resolve sources item = .error e) :
    (∃ table, item = .allColumnsOf table ∧ entry sources table = .error e) ∨
      ∃ qualifier column newName, item = .column qualifier column newName ∧
        resolveColumn sources qualifier column = .error e := by
  cases item with
  | allColumns => cases h
  | allColumnsOf table =>
    cases hentry : entry sources table with
    | error e' =>
      rw [resolve, hentry] at h
      cases h
      exact .inl ⟨table, rfl, hentry⟩
    | ok found =>
      rw [resolve, hentry] at h
      cases h
  | column qualifier column newName =>
    cases hcolumn : resolveColumn sources qualifier column with
    | error e' =>
      rw [resolve, hcolumn] at h
      cases h
      exact .inr ⟨qualifier, column, newName, rfl, hcolumn⟩
    | ok found =>
      rw [resolve, hcolumn] at h
      cases h

theorem resolveAll_cons_eq_ok :
    resolveAll sources (item :: items) = .ok ps ↔
      ∃ first more, resolve sources item = .ok first ∧ resolveAll sources items = .ok more ∧
        first ++ more = ps := by
  rw [resolveAll]
  cases resolve sources item with
  | error e => exact ⟨nofun, nofun⟩
  | ok first =>
    cases resolveAll sources items with
    | error e => exact ⟨nofun, nofun⟩
    | ok more =>
      refine ⟨fun h => ⟨first, more, rfl, rfl, Except.ok.inj h⟩, ?_⟩
      rintro ⟨_, _, ⟨⟩, ⟨⟩, rfl⟩
      rfl

/-- The error is that of an entry. -/
theorem resolveAll_eq_error (h : resolveAll sources items = .error e) :
    ∃ item ∈ items, resolve sources item = .error e := by
  induction items with
  | nil => cases h
  | cons item items ih =>
    rw [resolveAll] at h
    cases hfirst : resolve sources item with
    | error e' =>
      rw [hfirst] at h
      cases h
      exact ⟨item, List.mem_cons_self, hfirst⟩
    | ok first =>
      cases hmore : resolveAll sources items with
      | error e' =>
        rw [hfirst, hmore] at h
        cases h
        obtain ⟨item', hmem, hitem'⟩ := ih hmore
        exact ⟨item', List.mem_cons_of_mem item hmem, hitem'⟩
      | ok more =>
        rw [hfirst, hmore] at h
        cases h

theorem process_eq_ok (h : q.process = .ok q') :
    (q.projection.isSome ∧ q' = q) ∨
      ∃ ps, q.projection = none ∧ resolveAll q.sources q.items = .ok ps ∧
        q' = { q with projection := some (Projected.distinct ps) } := by
  unfold process at h
  cases hprojection : q.projection with
  | some columns =>
    rw [hprojection] at h
    cases h
    exact .inl ⟨rfl, rfl⟩
  | none =>
    rw [hprojection] at h
    cases hresolve : resolveAll q.sources q.items with
    | error e =>
      rw [hresolve] at h
      cases h
    | ok ps =>
      rw [hresolve] at h
      cases h
      exact .inr ⟨ps, rfl, rfl, rfl⟩

theorem process_eq_error (h : q.process = .error e) :
    q.projection = none ∧ resolveAll q.sources q.items = .error e := by
  unfold process at h
  cases hprojection : q.projection with
  | some columns =>
    rw [hprojection] at h
    cases h
  | none =>
    rw [hprojection] at h
    cases hresolve : resolveAll q.sources q.items with
    | error e' =>
      rw [hresolve] at h
      cases h
      exact ⟨rfl, rfl⟩
    | ok ps =>
      rw [hresolve] at h
      cases h

end Results

end Query

end SqliteSchema
