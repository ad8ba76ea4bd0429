import SqliteSchema.Expr.Basic
import SqliteSchema.Query.Basic

/-!
Columns are looked up in two ways: an expression asks whether there is exactly one column of a name,
and a select list collects the columns of a name. The two agree.
-/
namespace SqliteSchema

/-- A table has the columns that can be selected from it, row numbers included. -/
theorem Table.isSome_columnOrRowid? (t : Table) (name : String) :
    (t.columnOrRowid? name).isSome = t.hasColumn name := by
  unfold columnOrRowid?
  cases h : t.column? name with
  | some c => simp [hasColumn, h]
  | none => cases hasColumn t name <;> rfl

namespace Query

/-- Every entry that has a column of the name contributes one candidate. -/
theorem length_candidates (sources : List Source) (name : String) :
    (candidates sources name).length = sources.countP (·.table.hasColumn name) := by
  have hfrom (n : Nat) : ((sources.zipIdx n).filterMap fun x =>
      (x.1.table.columnOrRowid? name).map fun c => ((x.2, x.1), c)).length =
        sources.countP (·.table.hasColumn name) := by
    induction sources generalizing n with
    | nil => rfl
    | cons s sources ih =>
      rw [List.zipIdx_cons, List.filterMap_cons, List.countP_cons, ← ih (n + 1),
        ← Table.isSome_columnOrRowid?]
      cases s.table.columnOrRowid? name <;> simp
  exact hfrom 0

/-- A qualifier means the same entry everywhere. -/
theorem entry_eq_find? (sources : List Source) (qualifier : Token) :
    (entry sources qualifier).map (·.2) =
      match Source.find? sources qualifier.unquoted with
      | some s => .ok s
      | none => .error (.atToken (.notInFrom qualifier.unquoted) qualifier) := by
  unfold entry Source.find?
  cases Source.position? sources qualifier.unquoted with
  | none => rfl
  | some i => cases h : sources[i]? <;> simp [h] <;> rfl

/-- In the table of a qualifier a column is found where the scope of an expression accepts it. -/
theorem resolveColumn_of_entry {sources : List Source} {qualifier : Token}
    {found : Nat × Source} (h : entry sources qualifier = .ok found) (column : Token) :
    (resolveColumn sources (some qualifier) column).map (fun _ => ()) =
      Scope.requireColumn found.2.table ⟨some qualifier, column⟩ := by
  have hhas := Table.isSome_columnOrRowid? found.2.table column.unquoted
  unfold resolveColumn Scope.requireColumn ColumnReference.name
  dsimp only
  rw [h, ← hhas]
  dsimp only
  cases found.2.table.columnOrRowid? column.unquoted <;> rfl

/-- Among all entries a column is found where the scope of an expression accepts it. -/
theorem resolveColumn_none (sources : List Source) (column : Token) :
    (resolveColumn sources none column).map (fun _ => ()) =
      Scope.requireOneOwner sources ⟨none, column⟩ := by
  have hlength := length_candidates sources column.unquoted
  unfold resolveColumn Scope.requireOneOwner ColumnReference.name
  rw [← hlength]
  dsimp only
  rcases candidates sources column.unquoted with _ | ⟨first, _ | ⟨second, more⟩⟩
  · rfl
  · rfl
  · rfl

/-- A column can be selected exactly where an expression of the query may name it. Where it is
refused, it is refused for the same reason at the same token. -/
theorem resolve_eq_check (registry : Registry) (sources : List Source) (qualifier : Option Token)
    (column : Token) (newName : Option String) :
    (resolve sources (.column qualifier column newName)).map (fun _ => ()) =
      Scope.check registry (.sources sources) ⟨qualifier, column⟩ := by
  have hresolve : (resolve sources (.column qualifier column newName)).map (fun _ => ()) =
      (resolveColumn sources qualifier column).map fun _ => () := by
    rw [resolve]
    cases resolveColumn sources qualifier column <;> rfl
  rw [hresolve]
  cases qualifier with
  | none => exact resolveColumn_none sources column
  | some qualifier =>
    have hentry := entry_eq_find? sources qualifier
    unfold Scope.check
    dsimp only
    cases hfind : Source.find? sources qualifier.unquoted with
    | some s =>
      rw [hfind] at hentry
      cases he : entry sources qualifier with
      | error e =>
        rw [he] at hentry
        cases hentry
      | ok found =>
        rw [he] at hentry
        obtain rfl : found.2 = s := Except.ok.inj hentry
        exact resolveColumn_of_entry he column
    | none =>
      rw [hfind] at hentry
      cases he : entry sources qualifier with
      | ok found =>
        rw [he] at hentry
        cases hentry
      | error e =>
        rw [he] at hentry
        cases hentry
        unfold resolveColumn
        dsimp only
        rw [he]
        rfl

/-- Two entries have the row number, and the one without it has a column of that name. -/
example :
    let t : Table := .named 0 "t"
    let u : Table := { Table.named 1 "u" with withoutRowid := true }
    let rowid : Token := ⟨"rowid", .other, .start⟩
    let sources (u : Table) : List Source := [⟨"a", t⟩, ⟨"b", u⟩]
    (resolve (sources u) (.column none rowid none)).toBool = true ∧
      (resolve (sources (u.addColumn "rowid" "")) (.column none rowid none)).toBool = false := by
  decide +kernel

end Query

end SqliteSchema
