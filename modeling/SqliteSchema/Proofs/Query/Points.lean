import SqliteSchema.Proofs.Expr.Points
import SqliteSchema.Proofs.Query.Renaming
import SqliteSchema.Query.Select

/-!
Queries point into their tokens. Select items are looked up when the query is at its end, so that
they carry their tokens with them. The aliases of a query are names in its tokens, and its tables
are those of the registry.
-/
namespace SqliteSchema

/-- The tokens of the item are of the list. -/
def SelectItem.PointsInto (ts : List Token) : SelectItem → Prop
  | .allColumns => True
  | .allColumnsOf table => table ∈ ts
  | .column table name _ => ColumnReference.PointsInto ts ⟨table, name⟩

/-- The alias of the item, if there is one, is a name in a token of the list. -/
def SelectItem.NamedFrom (ts : List Token) (item : SelectItem) : Prop :=
  ∀ name, item.newName? = some name → ∃ t ∈ ts, name = t.unquoted

namespace Query

/-- What the query is made of comes from tokens of the list and tables of the registry, and its
columns are those of its select list. -/
structure ReadFrom (ts : List Token) (registry : Registry) (q : Query) : Prop where
  items : ∀ item ∈ q.items, item.PointsInto ts ∧ item.NamedFrom ts
  sources : ∀ s ∈ q.sources, s.table ∈ registry.tables
  projection : ∃ ps, resolveAll q.sources q.items = .ok ps ∧
    q.projection = some (Projected.distinct ps)

open SqliteSchema.Parser

variable {ts : List Token}

/-! ### Looking up columns -/

theorem pointsInto_entry {sources : List Source} {qualifier : Token} {e : ParseError}
    (ht : qualifier ∈ ts) (h : entry sources qualifier = .error e) : e.PointsInto ts := by
  unfold entry at h
  split at h
  · cases h
  · cases h
    exact .token _ ht nofun

theorem pointsInto_resolveColumn {sources : List Source} {qualifier : Option Token}
    {column : Token} {e : ParseError} (hr : ColumnReference.PointsInto ts ⟨qualifier, column⟩)
    (h : resolveColumn sources qualifier column = .error e) : e.PointsInto ts := by
  unfold resolveColumn at h
  split at h
  · split at h
    · next he =>
      cases h
      exact pointsInto_entry (hr.table _ rfl) he
    · split at h <;> cases h
      exact .token _ hr.column nofun
  · split at h
    · cases h
      exact .token _ hr.column nofun
    · cases h
    · cases h
      exact .token _ hr.column nofun

theorem pointsInto_resolveAll {sources : List Source} {items : List SelectItem} {e : ParseError}
    (hitems : ∀ item ∈ items, item.PointsInto ts) (h : resolveAll sources items = .error e) :
    e.PointsInto ts := by
  obtain ⟨item, hmem, hfault⟩ := resolveAll_eq_error h
  have hitem := hitems item hmem
  obtain ⟨table, rfl, hentry⟩ | ⟨qualifier, column, newName, rfl, hcolumn⟩ :=
    resolve_eq_error hfault
  · exact pointsInto_entry hitem hentry
  · exact pointsInto_resolveColumn hitem hcolumn

/-! ### Clauses -/

theorem points_givenName? :
    Points ts [] (fun name => ∀ n, name = some n → ∃ t ∈ ts, n = t.unquoted) givenName? := by
  refine Points.eatKeyword.seq fun _ => .ite
    (fun _ => Points.expectIdentifier.bind fun t ht => .pure ?_)
    (fun _ => Points.accept.bind fun token htoken => .pure ?_)
  · rintro _ ⟨⟩
    exact ⟨t, ht, rfl⟩
  · intro n hn
    obtain ⟨t, rfl, rfl⟩ := Option.map_eq_some_iff.1 hn
    exact ⟨t, (htoken t rfl).1, rfl⟩

theorem points_selectItem (registry : Registry) :
    Points ts [] (fun item => item.PointsInto ts ∧ item.NamedFrom ts) (selectItem registry) := by
  have hnamed : Points ts [] (fun item => item.PointsInto ts ∧ item.NamedFrom ts)
      (namedColumn registry) := by
    refine Points.current.bind fun first hfirst => (Expr.points_parse _ _).bind fun e he => ?_
    split
    · next r => exact points_givenName?.bind fun _ hname => .pure ⟨he r rfl, hname⟩
    · exact .failAt hfirst nofun
  exact Points.current.seq fun _ => Points.eat.seq fun _ => .ite
    (fun _ => .pure ⟨trivial, nofun⟩)
    (fun _ => Points.lookAny.seq fun _ => .ite
      (fun _ => Points.advance.bind fun _ ht => Points.advance.seq fun _ =>
        Points.advance.seq fun _ => .pure ⟨ht, nofun⟩)
      (fun _ => hnamed))

/-- The tables of the entries are in the registry. -/
theorem points_extendFrom {registry : Registry} {sources : List Source}
    (h : ∀ s ∈ sources, s.table ∈ registry.tables) :
    Points ts [] (fun sources => ∀ s ∈ sources, s.table ∈ registry.tables)
      (extendFrom registry sources) := by
  have hsubquery : PointsInto ts refuseSubquery :=
    Points.current.bind fun _ ht => .ite (fun _ => .failAt ht nofun) (fun _ => .pure trivial)
  have hknown : Points ts [] (fun found => found.1 ∈ ts ∧ found.2 ∈ registry.tables)
      (knownTable registry) := by
    refine Points.expectIdentifier.bind fun t ht => Points.lookAny.seq fun _ => .ite
      (fun _ => .failAt ht nofun) (fun _ => ?_)
    split
    · next htable => exact .pure ⟨ht, List.mem_of_find?_eq_some htable⟩
    · exact .failAt ht nofun
  have hhint : PointsInto ts indexHint :=
    Points.eatKeyword.seq fun _ => .ite
      (fun _ => Points.expectKeyword.seq fun _ => Points.expectIdentifier.seq fun _ =>
        .pure trivial)
      (fun _ => Points.lookAny.seq fun _ => .ite
        (fun _ => Points.advance.seq fun _ => Points.advance.seq fun _ => .pure trivial)
        (fun _ => .pure trivial))
  have hjoin : PointsInto ts refuseJoin := by
    refine Points.peek.bind fun token htoken => ?_
    cases token with
    | none => exact .pure trivial
    | some token => exact .ite (fun _ => .failAt (htoken token rfl) nofun) (fun _ => .pure trivial)
  refine hsubquery.seq fun _ => hknown.bind fun found hfound => ?_
  refine points_givenName?.seq fun _ => .ite (fun _ => .failAt hfound.1 nofun)
    (fun _ => hhint.seq fun _ => hjoin.seq fun _ => .pure fun s hs => ?_)
  rcases List.mem_append.1 hs with hs | hs
  · exact h s hs
  · rw [List.mem_singleton.1 hs]
    exact hfound.2

theorem points_fromClause (registry : Registry) :
    Points ts [] (fun sources => ∀ s ∈ sources, s.table ∈ registry.tables)
      (fromClause registry) := by
  refine Points.eatKeyword.seq fun _ => .ite
    (fun _ => (points_extendFrom (List.forall_mem_nil _)).bind fun _ hfirst =>
      .loop (fun _ h => Points.eat.seq fun _ => ?_) hfirst)
    (fun _ => .pure (List.forall_mem_nil _))
  refine .ite (fun _ => (points_extendFrom h).bind fun _ hnext => .pure ?_)
    (fun _ => .pure nofun)
  rintro _ ⟨⟩
  exact hnext

theorem points_expression (context : Context) {α : Type} (a : α) :
    PointsInto ts (do let _ ← Expr.parse context .all; return a) :=
  Expr.points_operand (Expr.points_parse context) .all a

theorem points_orderClause (context : Context) : PointsInto ts (orderClause context) :=
  Points.eatKeyword.seq fun _ => .ite
    (fun _ => Points.expectKeyword.seq fun _ =>
      Expr.points_orderingTerms (Expr.points_parse context))
    (fun _ => .pure trivial)

theorem points_limitClause (context : Context) : PointsInto ts (limitClause context) := by
  have hoffset : PointsInto ts (offset context) :=
    Points.eatKeyword.seq fun _ => .ite (fun _ => points_expression context _)
      (fun _ => Points.eat.seq fun _ => .ite (fun _ => points_expression context _)
        (fun _ => .pure trivial))
  exact Points.eatKeyword.seq fun _ => .ite
    (fun _ => (Expr.points_parse context .all).seq fun _ => hoffset) (fun _ => .pure trivial)

theorem points_openSelect : PointsInto ts openSelect :=
  Points.current.bind fun _ ht => .ite (fun _ => Points.advance.seq fun _ => .pure trivial)
    (fun _ => .failAt ht nofun)

theorem points_finish : PointsInto ts finish := by
  refine Points.eat.seq fun _ => Points.peek.bind fun token htoken => ?_
  cases token with
  | none => exact .pure trivial
  | some token => exact .unexpected (htoken token rfl)

theorem points_boundParameters : PointsInto ts boundParameters := by
  intro s _
  refine .ok (a := s.parameters) (t := { s with warnings := [] }) [] rfl (fun ws => ?_)
    (noted_nil _) (fun _ => rfl) trivial
  rw [List.append_nil]
  rfl

/-- Queries point into their tokens, which they are made from. -/
theorem points_query (registry : Registry) :
    Points ts [] (ReadFrom ts registry) (select registry) := by
  have hdistinct : PointsInto ts distinctness :=
    Points.eatKeyword.seq fun _ => .ite (fun _ => .pure trivial)
      (fun _ => Points.eatKeyword.seq fun _ => .pure trivial)
  refine points_openSelect.seq fun _ => hdistinct.seq fun distinct =>
    (points_selectItem registry).separated.bind fun items hitems =>
    (points_fromClause registry).bind fun sources hsources => Points.seq
      (Points.eatKeyword.seq fun _ => .ite (fun _ => points_expression _ _)
        (fun _ => .pure trivial)) fun _ =>
    (points_orderClause _).seq fun _ => (points_limitClause _).seq fun _ =>
    points_finish.seq fun _ => points_boundParameters.seq fun parameters => ?_
  refine .ofExcept (fun e he => ?_) fun q hq => ?_
  · exact pointsInto_resolveAll (fun item hitem => (hitems item hitem).1) (process_eq_error he).2
  · obtain ⟨hdone, -⟩ | ⟨ps, -, hps, rfl⟩ := process_eq_ok hq
    · cases hdone
    · exact ⟨hitems, hsources, ps, hps, rfl⟩

theorem points_select (registry : Registry) : PointsInto ts (select registry) :=
  (points_query registry).any

end Query

end SqliteSchema
