import SqliteSchema.Proofs.Query.Distinct
import SqliteSchema.Proofs.Query.Resolve
import SqliteSchema.Proofs.Update

/-!
What the columns of a query are, their names aside: those that the entries of its select list stand
for, one entry after the other. The query gets them all at once or stays as it is, and it gets them
only once.
-/
namespace SqliteSchema

section

variable {α : Type} {p : α → Bool} {l : List α} {a : α}

/-- The member is the first of which this is true. -/
def IsFirst (p : α → Prop) (l : List α) (a : α) : Prop :=
  ∃ before after, l = before ++ a :: after ∧ p a ∧ ∀ b ∈ before, ¬ p b

/-- The member is the only one of which this is true. -/
def IsOnly (p : α → Prop) (l : List α) (a : α) : Prop :=
  ∃ before after, l = before ++ a :: after ∧ p a ∧ ∀ b ∈ before ++ after, ¬ p b

theorem isFirst_iff_find? : IsFirst (p · = true) l a ↔ l.find? p = some a := by
  simp only [List.find?_eq_some_iff_append, Bool.not_eq_true', ← Bool.not_eq_true]
  constructor
  · rintro ⟨before, after, hl, ha, hbefore⟩
    exact ⟨ha, before, after, hl, hbefore⟩
  · rintro ⟨ha, before, after, hl, hbefore⟩
    exact ⟨before, after, hl, ha, hbefore⟩

theorem filterMap_eq_singleton_iff {β : Type} {f : α → Option β} {b : β} :
    l.filterMap f = [b] ↔ ∃ before a after, l = before ++ a :: after ∧ f a = some b ∧
      ∀ x ∈ before ++ after, f x = none := by
  rw [List.filterMap_eq_cons_iff]
  constructor
  · rintro ⟨before, a, after, hl, hbefore, ha, hafter⟩
    rw [List.filterMap_eq_nil_iff] at hafter
    exact ⟨before, a, after, hl, ha, List.forall_mem_append.2 ⟨hbefore, hafter⟩⟩
  · rintro ⟨before, a, after, hl, ha, hnone⟩
    obtain ⟨hbefore, hafter⟩ := List.forall_mem_append.1 hnone
    exact ⟨before, a, after, hl, hbefore, ha, List.filterMap_eq_nil_iff.2 hafter⟩

end

/-- The column with its output name left out of account. -/
def Column.unnamed (c : Column) : Column := { c with outputName := "" }

namespace Table

variable {t : Table} {name : String} {c : Column}

/-- The column that a table has under a name: a declared one, or the row number under one of its
names that no declared column has taken. -/
inductive Has (t : Table) (name : String) : Column → Prop
  | declared {c : Column} :
    IsFirst (fun d : Column => sameName d.sqlName name = true) t.columns c → Has t name c
  | rowid :
    (∀ d ∈ t.columns, sameName d.sqlName name = false) → t.withoutRowid = false →
    (∃ r ∈ ["rowid", "oid", "_rowid_"], sameName r name = true) →
    Has t name {
      sqlName := name
      sqlType := "INTEGER"
      outputName := Name.output name
      affinity := .integer
      notNull := true
      table := t.id }

theorem rowid_eq (t : Table) (name : String) :
    t.rowid name = {
      sqlName := name
      sqlType := "INTEGER"
      outputName := Name.output name
      affinity := .integer
      notNull := true
      table := t.id } := by
  have haffinity : Affinity.ofDeclaredType "INTEGER" = .integer := by decide +kernel
  rw [rowid, Column.declare, haffinity]

theorem column?_eq_some_iff : t.column? name = some c ↔
    IsFirst (fun d : Column => sameName d.sqlName name = true) t.columns c :=
  isFirst_iff_find?.symm

theorem column?_eq_none_iff :
    t.column? name = none ↔ ∀ d ∈ t.columns, sameName d.sqlName name = false := by
  simp only [column?, Column.isNamed, List.find?_eq_none, Bool.not_eq_true]

theorem columnOrRowid?_eq_some_iff : t.columnOrRowid? name = some c ↔ t.Has name c := by
  unfold columnOrRowid?
  cases hcolumn : t.column? name with
  | some d =>
    constructor
    · rintro ⟨⟩
      exact .declared (column?_eq_some_iff.1 hcolumn)
    · rintro (hfirst | ⟨hnone, -, -⟩)
      · rw [← hcolumn, column?_eq_some_iff.2 hfirst]
      · rw [column?_eq_none_iff.2 hnone] at hcolumn
        cases hcolumn
  | none =>
    have hhas : t.hasColumn name = true ↔ t.withoutRowid = false ∧
        ∃ r ∈ ["rowid", "oid", "_rowid_"], sameName r name = true := by
      simp [hasColumn, hcolumn, rowidNames]
    dsimp only
    constructor
    · intro h
      split at h
      · next hname =>
        obtain ⟨hrowid, hname⟩ := hhas.1 hname
        rw [← Option.some.inj h, rowid_eq]
        exact .rowid (column?_eq_none_iff.1 hcolumn) hrowid hname
      · cases h
    · rintro (hfirst | ⟨-, hrowid, hname⟩)
      · rw [column?_eq_some_iff.2 hfirst] at hcolumn
        cases hcolumn
      · rw [if_pos (hhas.2 ⟨hrowid, hname⟩), rowid_eq]

theorem columnOrRowid?_eq_none_iff : t.columnOrRowid? name = none ↔ ¬ ∃ c, t.Has name c := by
  simp only [← columnOrRowid?_eq_some_iff, ← Option.isSome_iff_exists,
    Option.not_isSome_iff_eq_none]

end Table

namespace Projected

/-- The names are told apart without a change to anything else. -/
theorem map_unnamed_distinct (ps : List Projected) :
    (distinct ps).map (·.unnamed) = ps.map (·.column.unnamed) := by
  have hlength := (numberNames_spec ((ps.map (qualify ps)).map name)).1
  have hqualify (p : Projected) : (qualify ps p).column.unnamed = p.column.unnamed := by
    unfold qualify
    split <;> rfl
  have hfst : ((ps.map (qualify ps)).zip
      (numberNames ((ps.map (qualify ps)).map name))).map Prod.fst = ps.map (qualify ps) :=
    List.map_fst_zip (Nat.le_of_eq (by rw [hlength]; simp only [List.length_map]))
  rw [distinct, List.map_zipWith]
  refine (List.map_zip_eq_zipWith
    (f := fun x : Projected × String => x.1.column.unnamed)).symm.trans ?_
  rw [← Function.comp_def (fun p : Projected => p.column.unnamed), ← List.map_map, hfst,
    List.map_map]
  exact List.map_congr_left fun p _ => hqualify p

end Projected

namespace Query

open Update

variable {sources : List Source} {item : SelectItem} {qualifier column : Token} {s : Source}
  {c : Column}

/-- The entry that a qualifier means. An alias goes before the name of a table. -/
inductive Qualifies (sources : List Source) (qualifier : String) : Source → Prop
  | alias {s : Source} :
    IsFirst (fun s : Source => sameName s.name qualifier = true) sources s →
    Qualifies sources qualifier s
  | table {s : Source} :
    (∀ s ∈ sources, sameName s.name qualifier = false) →
    IsFirst (fun s : Source => sameName s.table.sqlName qualifier = true) sources s →
    Qualifies sources qualifier s

/-- The columns that an entry of a select list stands for. -/
inductive Selects (sources : List Source) : SelectItem → List Column → Prop
  | allColumns : Selects sources .allColumns (sources.flatMap fun s => s.table.columns)
  | allColumnsOf {qualifier : Token} {s : Source} :
    Qualifies sources qualifier.unquoted s →
    Selects sources (.allColumnsOf qualifier) s.table.columns
  | qualified {qualifier column : Token} {newName : Option String} {s : Source} {c : Column} :
    Qualifies sources qualifier.unquoted s → s.table.Has column.unquoted c →
    Selects sources (.column (some qualifier) column newName) [c]
  | unqualified {column : Token} {newName : Option String} {s : Source} {c : Column} :
    IsOnly (fun s : Source => ∃ c, s.table.Has column.unquoted c) sources s →
    s.table.Has column.unquoted c →
    Selects sources (.column none column newName) [c]

theorem find?_eq_some_iff {qualifier : String} :
    Source.find? sources qualifier = some s ↔ Qualifies sources qualifier s := by
  have hfind : Source.find? sources qualifier =
      (sources.find? fun s => sameName s.name qualifier).or
        (sources.find? fun s => s.table.isNamed qualifier) := by
    unfold Source.find? Source.position?
    rw [List.find?_eq_bind_findIdx?_getElem?, List.find?_eq_bind_findIdx?_getElem?]
    cases halias : sources.findIdx? fun s => sameName s.name qualifier with
    | none => rfl
    | some i =>
      have hi := List.of_findIdx?_eq_some halias
      cases hs : sources[i]? with
      | none =>
        rw [hs] at hi
        cases hi
      | some s => simp [hs]
  rw [hfind, Option.or_eq_some_iff, ← isFirst_iff_find?, ← isFirst_iff_find?]
  constructor
  · rintro (halias | ⟨hnone, htable⟩)
    · exact .alias halias
    · refine .table (fun s hs => ?_) htable
      exact Bool.eq_false_iff.2 (List.find?_eq_none.1 hnone s hs)
  · rintro (halias | ⟨hnone, htable⟩)
    · exact .inl halias
    · refine .inr ⟨List.find?_eq_none.2 fun s hs => ?_, htable⟩
      rw [hnone s hs]
      exact Bool.false_ne_true

theorem exists_entry_iff :
    (∃ i, entry sources qualifier = .ok (i, s)) ↔ Qualifies sources qualifier.unquoted s := by
  have hentry := entry_eq_find? sources qualifier
  rw [← find?_eq_some_iff]
  cases hfind : Source.find? sources qualifier.unquoted with
  | some s' =>
    rw [hfind] at hentry
    cases he : entry sources qualifier with
    | error e =>
      rw [he] at hentry
      cases hentry
    | ok found =>
      rw [he] at hentry
      obtain rfl : found.2 = s' := Except.ok.inj hentry
      constructor
      · rintro ⟨i, h⟩
        rw [Except.ok.inj h]
      · intro h
        exact ⟨found.1, by rw [← Option.some.inj h]⟩
  | none =>
    rw [hfind] at hentry
    cases he : entry sources qualifier with
    | ok found =>
      rw [he] at hentry
      cases hentry
    | error e =>
      constructor
      · rintro ⟨i, h⟩
        cases h
      · intro h
        cases h

/-- The candidates for a name, without the indices of their entries. -/
theorem map_candidates (sources : List Source) (name : String) :
    (candidates sources name).map (fun found => (found.1.2, found.2)) =
      sources.filterMap fun s => (s.table.columnOrRowid? name).map fun c => (s, c) := by
  have hfst : (fun x : Source × Nat => ((x.1.table.columnOrRowid? name).map fun c =>
      ((x.2, x.1), c)).map fun found => (found.1.2, found.2)) =
      (fun s : Source => (s.table.columnOrRowid? name).map fun c => (s, c)) ∘ Prod.fst := by
    funext x
    rw [Option.map_map]
    rfl
  rw [candidates, List.map_filterMap, hfst, ← List.filterMap_map, List.zipIdx_map_fst]

theorem exists_candidates_iff {name : String} :
    (∃ i, candidates sources name = [((i, s), c)]) ↔
      IsOnly (fun s : Source => ∃ c, s.table.Has name c) sources s ∧ s.table.Has name c := by
  have hcandidates : (∃ i, candidates sources name = [((i, s), c)]) ↔
      (candidates sources name).map (fun found => (found.1.2, found.2)) = [(s, c)] := by
    constructor
    · rintro ⟨i, h⟩
      rw [h]
      rfl
    · intro h
      obtain ⟨⟨⟨i, s'⟩, c'⟩, hsingle, he⟩ := List.map_eq_singleton_iff.1 h
      cases he
      exact ⟨i, hsingle⟩
  rw [hcandidates, map_candidates, filterMap_eq_singleton_iff]
  simp only [Option.map_eq_some_iff, Option.map_eq_none_iff, Table.columnOrRowid?_eq_some_iff,
    Table.columnOrRowid?_eq_none_iff]
  constructor
  · rintro ⟨before, s', after, hl, ⟨c', hc, he⟩, hothers⟩
    cases he
    exact ⟨⟨before, after, hl, ⟨c, hc⟩, hothers⟩, hc⟩
  · rintro ⟨⟨before, after, hl, -, hothers⟩, hc⟩
    exact ⟨before, s, after, hl, ⟨c, hc, rfl⟩, hothers⟩

/-- The columns without their names, however they are to be called. -/
theorem unnamed_project (i : Nat) (s : Source) (newName : Option String) (c : Column) :
    (project i s newName c).column.unnamed = c.unnamed := by
  cases newName <;> rfl

theorem map_unnamed_allOf (i : Nat) (s : Source) :
    (allOf i s).map (·.column.unnamed) = s.table.columns.map (·.unnamed) := by
  rw [allOf, List.map_map]
  rfl

theorem resolveColumn_qualified_iff :
    (∃ i, resolveColumn sources (some qualifier) column = .ok ((i, s), c)) ↔
      Qualifies sources qualifier.unquoted s ∧ s.table.Has column.unquoted c := by
  simp only [← exists_entry_iff, ← Table.columnOrRowid?_eq_some_iff, resolveColumn]
  constructor
  · rintro ⟨i, h⟩
    split at h
    · cases h
    · next hentry =>
      split at h
      · next hcolumn =>
        cases h
        exact ⟨⟨i, hentry⟩, hcolumn⟩
      · cases h
  · rintro ⟨⟨i, hentry⟩, hcolumn⟩
    refine ⟨i, ?_⟩
    rw [hentry]
    dsimp only
    rw [hcolumn]

theorem resolveColumn_unqualified_iff :
    (∃ i, resolveColumn sources none column = .ok ((i, s), c)) ↔
      IsOnly (fun s : Source => ∃ c, s.table.Has column.unquoted c) sources s ∧
        s.table.Has column.unquoted c := by
  rw [← exists_candidates_iff]
  refine exists_congr fun i => ?_
  unfold resolveColumn
  rcases candidates sources column.unquoted with _ | ⟨first, _ | ⟨second, more⟩⟩ <;> simp

/-- An entry of a select list is resolved to the columns that it stands for, in their order. -/
theorem selects_of_resolve {ps : List Projected} (h : resolve sources item = .ok ps) :
    ∃ cs, Selects sources item cs ∧ ps.map (·.column.unnamed) = cs.map (·.unnamed) := by
  cases item with
  | allColumns =>
    cases h
    refine ⟨_, .allColumns, ?_⟩
    rw [List.map_flatMap, List.map_flatMap]
    simp only [map_unnamed_allOf]
    rw [← List.flatMap_map Prod.fst fun s : Source => s.table.columns.map (·.unnamed),
      List.zipIdx_map_fst]
  | allColumnsOf qualifier =>
    obtain ⟨i, s, hentry, rfl⟩ := resolve_allColumnsOf_eq_ok.1 h
    exact ⟨_, .allColumnsOf (exists_entry_iff.1 ⟨i, hentry⟩), map_unnamed_allOf i s⟩
  | column qualifier column newName =>
    obtain ⟨i, s, c, hcolumn, rfl⟩ := resolve_column_eq_ok.1 h
    refine ⟨[c], ?_, congrArg (fun c => [c]) (unnamed_project i s newName c)⟩
    cases qualifier with
    | none =>
      obtain ⟨honly, hhas⟩ := resolveColumn_unqualified_iff.1 ⟨i, hcolumn⟩
      exact .unqualified honly hhas
    | some qualifier =>
      obtain ⟨hentry, hhas⟩ := resolveColumn_qualified_iff.1 ⟨i, hcolumn⟩
      exact .qualified hentry hhas

/-- What stands for columns is resolved. -/
theorem exists_resolve {cs : List Column} (h : Selects sources item cs) :
    ∃ ps, resolve sources item = .ok ps := by
  cases h with
  | allColumns => exact ⟨_, rfl⟩
  | allColumnsOf hentry =>
    obtain ⟨i, hentry⟩ := exists_entry_iff.2 hentry
    exact ⟨_, resolve_allColumnsOf_eq_ok.2 ⟨i, _, hentry, rfl⟩⟩
  | qualified hentry hhas =>
    obtain ⟨i, hcolumn⟩ := resolveColumn_qualified_iff.2 ⟨hentry, hhas⟩
    exact ⟨_, resolve_column_eq_ok.2 ⟨i, _, _, hcolumn, rfl⟩⟩
  | unqualified honly hhas =>
    obtain ⟨i, hcolumn⟩ := resolveColumn_unqualified_iff.2 ⟨honly, hhas⟩
    exact ⟨_, resolve_column_eq_ok.2 ⟨i, _, _, hcolumn, rfl⟩⟩

theorem selects_of_resolveAll {items : List SelectItem} {ps : List Projected}
    (h : resolveAll sources items = .ok ps) :
    ∃ groups, List.Forall₂ (Selects sources) items groups ∧
      ps.map (·.column.unnamed) = groups.flatten.map (·.unnamed) := by
  induction items generalizing ps with
  | nil =>
    cases h
    exact ⟨[], .nil, rfl⟩
  | cons item items ih =>
    obtain ⟨first, more, hfirst, hmore, rfl⟩ := resolveAll_cons_eq_ok.1 h
    obtain ⟨cs, hselects, hcs⟩ := selects_of_resolve hfirst
    obtain ⟨groups, hgroups, hflatten⟩ := ih hmore
    refine ⟨cs :: groups, .cons hselects hgroups, ?_⟩
    rw [List.map_append, hcs, hflatten, List.flatten_cons, List.map_append]

theorem exists_not_selects {items : List SelectItem} {e : ParseError}
    (h : resolveAll sources items = .error e) :
    ∃ item ∈ items, ∀ cs, ¬ Selects sources item cs := by
  obtain ⟨item, hitem, hfault⟩ := resolveAll_eq_error h
  refine ⟨item, hitem, fun cs hcs => ?_⟩
  obtain ⟨ps, hps⟩ := exists_resolve hcs
  cases hfault.symm.trans hps

/-! ### Resolving in place

A query is resolved while its columns are being collected. It is also given as this happens, one
entry after the other, to see that a failure halfway leaves no trace.
-/

/-- The columns of these entries behind those that have been collected. -/
def collect (projected : List Projected) :
    List SelectItem → Update ParseError Query (List Projected)
  | [] => return projected
  | item :: items => do
    match resolve (← get).sources item with
    | .ok ps => collect (projected ++ ps) items
    | .error e => throw e

def processInPlace : Update ParseError Query Unit := do
  if (← get).projection.isSome then return
  let projected ← collect [] (← get).items
  modify ({ · with projection := some (Projected.distinct projected) })

theorem collect_apply (projected : List Projected) (items : List SelectItem) (q : Query) :
    collect projected items q =
      match resolveAll q.sources items with
      | .ok ps => .ok (projected ++ ps) q
      | .error e => .error e q := by
  induction items generalizing projected with
  | nil =>
    simp only [resolveAll, List.append_nil]
    rfl
  | cons item items ih =>
    rw [collect, get_bind, resolveAll]
    cases hfirst : resolve q.sources item with
    | error e => rfl
    | ok first =>
      dsimp only
      rw [ih]
      cases hrest : resolveAll q.sources items with
      | error e => rfl
      | ok rest =>
        simp only [List.append_assoc]
        rfl

/-- Resolving in place fails where `process` does, with the same error, and changes nothing then. -/
theorem processInPlace_apply (q : Query) :
    processInPlace q = outcome q q.process := by
  unfold processInPlace process
  rw [get_bind]
  cases hprojection : q.projection with
  | some cs => rfl
  | none =>
    simp only [Option.isSome_none, Bool.false_eq_true, if_false]
    rw [get_bind, bind_apply, collect_apply]
    cases resolveAll q.sources q.items with
    | error e => rfl
    | ok ps => rfl

/-- What can be done to a query. -/
inductive Call
  | addSource (source : Source)
  | addItem (item : SelectItem)
  | process

def Call.run : Call → Update ParseError Query Unit
  | addSource source => modify (·.addSource source)
  | addItem item => modify (·.addItem item)
  | process => processInPlace

/-- A query that has its columns keeps them. -/
theorem run_call (call : Call) {q : Query} (h : q.projection.isSome) :
    ∃ q', call.run q = .ok () q' ∧ q'.projection = q.projection := by
  cases call with
  | addSource source => exact ⟨_, rfl, rfl⟩
  | addItem item => exact ⟨_, rfl, rfl⟩
  | process =>
    obtain ⟨cs, hcs⟩ := Option.isSome_iff_exists.1 h
    refine ⟨q, ?_, rfl⟩
    rw [Call.run, processInPlace_apply, process, hcs]
    rfl

theorem run_calls (calls : List Call) {q : Query} (h : q.projection.isSome) :
    ∃ q', calls.forM Call.run q = .ok () q' ∧ q'.projection = q.projection := by
  induction calls generalizing q with
  | nil => exact ⟨q, rfl, rfl⟩
  | cons call calls ih =>
    obtain ⟨q₁, hcall, h₁⟩ := run_call call h
    obtain ⟨q₂, hcalls, h₂⟩ := ih (h₁ ▸ h)
    refine ⟨q₂, ?_, h₂.trans h₁⟩
    change (call.run >>= fun _ => calls.forM Call.run) q = _
    rw [bind_apply, hcall]
    exact hcalls

/-- A query is given the columns that its select list stands for, in the order of the list, with
nothing changed but their names, and keeps them whatever is done to it afterwards. Where an entry
of the list stands for nothing the query stays as it was. -/
theorem columns_selected (q : Query) :
    match processInPlace q with
    | .ok () q' =>
      (q.projection = none →
        ∃ groups, List.Forall₂ (Selects q.sources) q.items groups ∧
          q'.columns.map (·.unnamed) = groups.flatten.map (·.unnamed)) ∧
      q' = { q with projection := some q'.columns } ∧
      ∀ calls : List Call,
        ∃ q'', calls.forM Call.run q' = .ok () q'' ∧ q''.projection = q'.projection
    | .error _ q' =>
      q' = q ∧ q.projection = none ∧ ∃ item ∈ q.items, ∀ cs, ¬ Selects q.sources item cs := by
  rw [processInPlace_apply]
  unfold process
  cases hprojection : q.projection with
  | some cs =>
    have hsome : q.projection.isSome := by rw [hprojection]; rfl
    refine ⟨nofun, ?_, fun calls => run_calls calls hsome⟩
    rw [columns, hprojection, Option.getD_some, ← hprojection]
  | none =>
    dsimp only
    cases hps : resolveAll q.sources q.items with
    | error e => exact ⟨rfl, rfl, exists_not_selects hps⟩
    | ok ps =>
      refine ⟨fun _ => ?_, rfl, fun calls => run_calls calls rfl⟩
      obtain ⟨groups, hgroups, hcolumns⟩ := selects_of_resolveAll hps
      exact ⟨groups, hgroups, (Projected.map_unnamed_distinct ps).trans hcolumns⟩

end Query
end SqliteSchema
