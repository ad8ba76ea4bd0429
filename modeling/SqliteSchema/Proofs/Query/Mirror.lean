import SqliteSchema.Proofs.Expr.Mirror
import SqliteSchema.Proofs.Query.Distinct

/-!
Queries on tokens that are alike. They read the same tables, and their columns differ in the
spelling of row numbers and in the names for generated code at most.
-/
namespace SqliteSchema

namespace Parser

variable {α β : Type} {c : Comparison}

theorem SameResult.map {V : α → α → Prop} {U : β → β → Prop} {r r' : Except ParseError α}
    {f f' : α → β} (h : SameResult c V r r') (hf : ∀ a a', V a a' → U (f a) (f' a')) :
    SameResult c U (r.map f) (r'.map f') := by
  cases h with
  | ok h => exact .ok (hf _ _ h)
  | error h => exact .error h
  | excused h => exact .excused h

end Parser

/-- Columns that are the same under the names of the first one. -/
structure Column.Alike (c : Comparison) (a a' : Column) : Prop where
  sqlName : c.Spelled a.sqlName a'.sqlName
  rest : { a' with sqlName := a.sqlName, outputName := a.outputName } = a
  eq : c.verbatim → a = a'

namespace Column.Alike

variable {c : Comparison} {a a' : Column}

theorem refl (a : Column) : a.Alike c a := ⟨.refl _, rfl, fun _ => rfl⟩

/-- Columns do not cease to be alike under other names. -/
theorem rename (h : a.Alike c a') {name name' : String} (hname : c.verbatim → name = name') :
    Column.Alike c { a with outputName := name } { a' with outputName := name' } := by
  constructor
  · exact h.sqlName
  · exact congrArg (fun a : Column => { a with outputName := name }) h.rest
  · intro hv
    rw [h.eq hv, hname hv]

end Column.Alike

/-- The row number is the same column under every spelling of its name. -/
theorem Table.rel_columnOrRowid? {c : Comparison} (t : Table) {name name' : String}
    (h : c.Spelled name name') :
    Option.Rel (Column.Alike c) (t.columnOrRowid? name) (t.columnOrRowid? name') := by
  have hcolumn : t.column? name = t.column? name' := by
    unfold Table.column? Column.isNamed
    rw [funext fun column : Column => h.sameName_left column.sqlName]
  unfold Table.columnOrRowid?
  rw [← hcolumn, ← Expr.hasColumn_congr t h]
  cases t.column? name with
  | some column => exact .some (.refl column)
  | none =>
    dsimp only
    split
    · refine .some ⟨h, rfl, fun hv => ?_⟩
      rw [h.eq hv]
    · exact .none

namespace Query

open SqliteSchema.Parser

variable {c : Comparison} {sources sources' : List Source}

/-! ### Resolution -/

/-- Columns of entries of the same index that are alike. -/
structure SameProjected (c : Comparison) (p p' : Projected) : Prop where
  entry : p.entry = p'.entry
  owner : p.owner = p'.owner
  aliased : p.aliased = p'.aliased
  column : p.column.Alike c p'.column

theorem SameProjected.eq {p p' : Projected} (h : SameProjected c p p') (hv : c.verbatim) :
    p = p' := by
  have hentry := h.entry
  have howner := h.owner
  have haliased := h.aliased
  have hcolumn := h.column.eq hv
  cases p
  cases p'
  cases hentry
  cases howner
  cases haliased
  cases hcolumn
  rfl

/-- An entry of a `FROM` list and its index. -/
structure SameEntry (c : Comparison) (found found' : Nat × Source) : Prop where
  index : found.1 = found'.1
  source : Expr.SameSource c found.2 found'.2

/-- A column and the entry that it belongs to. -/
structure SameFound (c : Comparison) (x x' : (Nat × Source) × Column) : Prop where
  entry : SameEntry c x.1 x'.1
  column : x.2.Alike c x'.2

theorem sameProjected_project {found found' : Nat × Source} (h : SameEntry c found found')
    {newName newName' : Option String} (hname : Option.Rel c.Spelled newName newName')
    {a a' : Column} (ha : a.Alike c a') :
    SameProjected c (project found.1 found.2 newName a)
      (project found'.1 found'.2 newName' a') := by
  constructor
  · exact h.index
  · change found.2.table.outputName = found'.2.table.outputName
    rw [h.source.table]
  · cases hname <;> rfl
  · cases hname with
    | none => exact ha
    | some hname => exact ha.rename fun hv => by rw [hname.eq hv]

theorem sameProjected_allOf {found found' : Nat × Source} (h : SameEntry c found found') :
    List.Forall₂ (SameProjected c) (allOf found.1 found.2) (allOf found'.1 found'.2) := by
  unfold allOf
  rw [← h.source.table, List.forall₂_map_left_iff, List.forall₂_map_right_iff, List.forall₂_same]
  exact fun a _ => sameProjected_project h .none (.refl a)

/-- The entries with their indices. -/
theorem sameEntry_zipIdx (h : List.Forall₂ (Expr.SameSource c) sources sources') (n : Nat) :
    List.Forall₂ (fun x x' => SameEntry c (x.2, x.1) (x'.2, x'.1)) (sources.zipIdx n)
      (sources'.zipIdx n) := by
  induction h generalizing n with
  | nil => exact .nil
  | cons hs _ ih => exact .cons ⟨rfl, hs⟩ (ih (n + 1))

theorem sameProjected_allColumns (h : List.Forall₂ (Expr.SameSource c) sources sources') :
    List.Forall₂ (SameProjected c) (sources.zipIdx.flatMap fun (s, i) => allOf i s)
      (sources'.zipIdx.flatMap fun (s, i) => allOf i s) :=
  List.rel_flatMap (sameEntry_zipIdx h 0) fun _ _ hx => sameProjected_allOf hx

theorem sameResult_entry (h : List.Forall₂ (Expr.SameSource c) sources sources') {t t' : Token}
    (ht : c.Like t t') : SameResult c (SameEntry c) (entry sources t) (entry sources' t') := by
  have hname := ht.unquoted
  have herror : c.SameError (.atToken (.notInFrom t.unquoted) t)
      (.atToken (.notInFrom t'.unquoted) t') :=
    .atToken rfl (fun hv => by rw [hname.eq hv]) ht
  unfold entry
  rw [← Expr.position?_congr h hname]
  cases Source.position? sources t.unquoted with
  | none => exact .error herror
  | some i =>
    have hsource := Expr.rel_getElem? h i
    rw [Option.bind_some, Option.bind_some]
    generalize sources[i]? = s, sources'[i]? = s' at hsource
    cases hsource with
    | none => exact .error herror
    | some hs => exact .ok ⟨rfl, hs⟩

theorem sameFound_candidates (h : List.Forall₂ (Expr.SameSource c) sources sources')
    {name name' : String} (hname : c.Spelled name name') :
    List.Forall₂ (SameFound c) (candidates sources name) (candidates sources' name') := by
  apply List.rel_filterMap _ (sameEntry_zipIdx h 0)
  rintro ⟨s, i⟩ ⟨s', i'⟩ hx
  have htable : s.table = s'.table := hx.source.table
  have hcolumn := s.table.rel_columnOrRowid? hname
  dsimp only
  rw [← htable]
  generalize s.table.columnOrRowid? name = a, s.table.columnOrRowid? name' = a' at hcolumn
  cases hcolumn with
  | none => exact .none
  | some ha => exact .some ⟨hx, ha⟩

theorem sameResult_resolveColumn (h : List.Forall₂ (Expr.SameSource c) sources sources')
    {qualifier qualifier' : Option Token} (hqualifier : Option.Rel c.Like qualifier qualifier')
    {t t' : Token} (ht : c.Like t t') :
    SameResult c (SameFound c) (resolveColumn sources qualifier t)
      (resolveColumn sources' qualifier' t') := by
  have hname := ht.unquoted
  cases hqualifier with
  | some hq =>
    have hentry := sameResult_entry h hq
    unfold resolveColumn
    dsimp only
    generalize entry sources _ = e, entry sources' _ = e' at hentry
    cases hentry with
    | error he => exact .error he
    | excused he => exact .excused he
    | @ok found found' hfound =>
      have hcolumn := found.2.table.rel_columnOrRowid? hname
      dsimp only
      rw [← hfound.source.table]
      generalize found.2.table.columnOrRowid? t.unquoted = a,
        found.2.table.columnOrRowid? t'.unquoted = a' at hcolumn
      cases hcolumn with
      | none => exact .error (.atToken rfl (fun hv => by rw [hname.eq hv]) ht)
      | some ha => exact .ok ⟨hfound, ha⟩
  | none =>
    have hcandidates := sameFound_candidates h hname
    unfold resolveColumn
    dsimp only
    generalize candidates sources t.unquoted = xs, candidates sources' t'.unquoted = xs'
      at hcandidates
    rcases hcandidates with _ | ⟨hfirst, _ | ⟨_, _⟩⟩
    · exact .error (.atToken rfl (fun hv => by rw [hname.eq hv]) ht)
    · exact .ok hfirst
    · exact .error (.atToken rfl (fun hv => by rw [hname.eq hv]) ht)

/-- Entries of a select list that are alike. -/
inductive SameItem (c : Comparison) : SelectItem → SelectItem → Prop
  | allColumns : SameItem c .allColumns .allColumns
  | allColumnsOf {t t' : Token} (ht : c.Like t t') :
    SameItem c (.allColumnsOf t) (.allColumnsOf t')
  | column {qualifier qualifier' : Option Token} {t t' : Token} {newName newName' : Option String}
    (hqualifier : Option.Rel c.Like qualifier qualifier') (ht : c.Like t t')
    (hname : Option.Rel c.Spelled newName newName') :
    SameItem c (.column qualifier t newName) (.column qualifier' t' newName')

theorem sameResult_resolve (h : List.Forall₂ (Expr.SameSource c) sources sources')
    {item item' : SelectItem} (hitem : SameItem c item item') :
    SameResult c (List.Forall₂ (SameProjected c)) (resolve sources item)
      (resolve sources' item') := by
  cases hitem with
  | allColumns => exact .ok (sameProjected_allColumns h)
  | allColumnsOf ht => exact (sameResult_entry h ht).map fun _ _ => sameProjected_allOf
  | column hqualifier ht hname =>
    refine (sameResult_resolveColumn h hqualifier ht).map fun x x' hx => ?_
    exact .cons (sameProjected_project hx.entry hname hx.column) .nil

theorem sameResult_resolveAll (h : List.Forall₂ (Expr.SameSource c) sources sources')
    {items items' : List SelectItem} (hitems : List.Forall₂ (SameItem c) items items') :
    SameResult c (List.Forall₂ (SameProjected c)) (resolveAll sources items)
      (resolveAll sources' items') := by
  induction hitems with
  | nil => exact .ok .nil
  | cons hitem _ ih =>
    exact (sameResult_resolve h hitem).bind fun _ _ hfirst => ih.bind fun _ _ hrest =>
      .ok (List.rel_append hfirst hrest)

/-- Columns of the same list under distinct names are alike, whatever their names are. -/
theorem alike_zipWith_rename {ps ps' : List Projected}
    (h : List.Forall₂ (SameProjected c) ps ps') {names names' : List String}
    (hlength : names.length = ps.length) (hlength' : names'.length = ps'.length)
    (hnames : c.verbatim → names = names') :
    List.Forall₂ (Column.Alike c) (List.zipWith (fun p name => (p.rename name).column) ps names)
      (List.zipWith (fun p name => (p.rename name).column) ps' names') := by
  induction h generalizing names names' with
  | nil => exact .nil
  | cons hp _ ih =>
    obtain ⟨name, names, rfl⟩ := List.exists_cons_of_length_eq_add_one hlength
    obtain ⟨name', names', rfl⟩ := List.exists_cons_of_length_eq_add_one hlength'
    rw [List.zipWith_cons_cons, List.zipWith_cons_cons]
    constructor
    · exact hp.column.rename fun hv => (List.cons.inj (hnames hv)).1
    · exact ih (Nat.succ.inj hlength) (Nat.succ.inj hlength')
        fun hv => (List.cons.inj (hnames hv)).2

/-- The name of a qualified column does not matter for what else it is. -/
theorem sameProjected_qualify {ps ps' : List Projected} (hps : c.verbatim → ps = ps')
    {p p' : Projected} (h : SameProjected c p p') :
    SameProjected c (Projected.qualify ps p) (Projected.qualify ps' p') := by
  have hrename (p : Projected) (ps : List Projected) :
      Projected.qualify ps p = p.rename (Projected.qualify ps p).name := by
    unfold Projected.qualify
    split <;> rfl
  have hname (hv : c.verbatim) :
      (Projected.qualify ps p).name = (Projected.qualify ps' p').name := by
    rw [hps hv, h.eq hv]
  rw [hrename p, hrename p']
  exact ⟨h.entry, h.owner, h.aliased, h.column.rename hname⟩

theorem alike_distinct {ps ps' : List Projected} (h : List.Forall₂ (SameProjected c) ps ps') :
    List.Forall₂ (Column.Alike c) (Projected.distinct ps) (Projected.distinct ps') := by
  have heq (hv : c.verbatim) : ps = ps' := by
    rw [← List.forall₂_eq_eq_eq]
    exact h.imp fun _ _ hp => hp.eq hv
  apply alike_zipWith_rename
  · rw [List.forall₂_map_left_iff, List.forall₂_map_right_iff]
    exact h.imp fun _ _ hp => sameProjected_qualify heq hp
  · rw [(Projected.numberNames_spec _).1, List.length_map]
  · rw [(Projected.numberNames_spec _).1, List.length_map]
  · intro hv
    rw [heq hv]

/-- Queries that are alike. -/
structure Alike (c : Comparison) (q q' : Query) : Prop where
  distinct : q.distinct = q'.distinct
  sources : List.Forall₂ (Expr.SameSource c) q.sources q'.sources
  items : List.Forall₂ (SameItem c) q.items q'.items
  parameters : q.parameters = q'.parameters
  projection : Option.Rel (List.Forall₂ (Column.Alike c)) q.projection q'.projection

theorem sameResult_process {q q' : Query} (h : q.Alike c q') :
    SameResult c (Alike c) q.process q'.process := by
  have hresolve := sameResult_resolveAll h.sources h.items
  have hprojection := h.projection
  unfold process
  cases hq : q.projection with
  | some columns =>
    rw [hq] at hprojection
    cases hq' : q'.projection with
    | some columns' => exact .ok h
    | none =>
      rw [hq'] at hprojection
      cases hprojection
  | none =>
    rw [hq] at hprojection
    cases hq' : q'.projection with
    | some columns' =>
      rw [hq'] at hprojection
      cases hprojection
    | none =>
      exact hresolve.map fun ps ps' hps =>
        ⟨h.distinct, h.sources, h.items, h.parameters, .some (alike_distinct hps)⟩

/-! ### The clauses -/

theorem mirrors_givenName? : Mirrors c (Option.Rel c.Spelled) givenName? givenName? := by
  refine Mirrors.eatKeyword.seq fun _ => .ite
    (Mirrors.expectIdentifier.bind fun t t' ht => .pure (.some ht.unquoted))
    ((Mirrors.accept (by simp)).bind fun t t' ht => .pure ?_)
  cases ht with
  | none => exact .none
  | some ht => exact .some ht.unquoted

/-- Nothing behind a semicolon makes a name stand for all columns. -/
theorem mirrors_startsAllColumnsOf :
    Mirrors c Eq (look startsAllColumnsOf) (look startsAllColumnsOf) := by
  have hthree (ts : List Token) : startsAllColumnsOf ts = (ts.head?.any (·.isIdentifier) &&
      (ts.tail.head?.any (·.is ".") && ts.tail.tail.head?.any (·.is "*"))) := by
    rcases ts with _ | ⟨t, _ | ⟨u, _ | ⟨v, ts⟩⟩⟩ <;> simp [startsAllColumnsOf, Bool.and_assoc]
  refine .look fun ts ts' h => ?_
  rw [hthree, hthree]
  refine Mirrors.test_cons (g := fun ts => ts.head?.any (·.is ".") &&
    ts.tail.head?.any (·.is "*")) Token.isIdentifier_plain (fun ts ts' h => ?_)
    (fun u u' us us' hu hpoint => ?_) (fun t ht => Expr.isIdentifier_semicolon ht) h
  · have hstar (t t' : Token) (us us' : List Token) (ht : c.Like t t') :
        (t :: us).head?.any (·.is "*") = (t' :: us').head?.any (·.is "*") := ht.is "*"
    exact Mirrors.test_cons (f := (·.is ".")) (g := fun ts => ts.head?.any (·.is "*"))
      (fun t => t.is_plain ".") (fun ts ts' h => Mirrors.test_head (fun t => t.is_plain "*") h)
      (fun t t' us us' ht _ => hstar t t' us us' ht) (fun t ht => by simp [Token.is, ht]) h
  · rw [List.head?_cons, List.head?_cons, Option.any_some, Option.any_some, ← hu.is ".", hpoint]
    rfl

theorem mirrors_allColumnsOf : Mirrors c (SameItem c) allColumnsOf allColumnsOf :=
  Mirrors.advance.bind fun _ _ ht => Mirrors.advance.bind fun _ _ _ =>
    Mirrors.advance.bind fun _ _ _ => .pure (.allColumnsOf ht)

theorem mirrors_namedColumn (registry : Registry) :
    Mirrors c (SameItem c) (namedColumn registry) (namedColumn registry) := by
  refine Mirrors.current.bind fun t t' ht =>
    (Expr.mirrors_parse (.refl _) _).bind fun e e' he => ?_
  cases he with
  | column hr =>
    exact mirrors_givenName?.bind fun _ _ hname => .pure (.column hr.table hr.column hname)
  | literal => exact .fail (.atToken rfl (fun _ => rfl) ht)
  | parameter => exact .fail (.atToken rfl (fun _ => rfl) ht)
  | function => exact .fail (.atToken rfl (fun _ => rfl) ht)
  | compound => exact .fail (.atToken rfl (fun _ => rfl) ht)

theorem mirrors_selectItem (registry : Registry) :
    Mirrors c (SameItem c) (selectItem registry) (selectItem registry) :=
  Mirrors.current.bind fun _ _ _ => Mirrors.eat.seq fun _ => .ite (.pure .allColumns)
    (mirrors_startsAllColumnsOf.seq fun _ => .ite mirrors_allColumnsOf
      (mirrors_namedColumn registry))

theorem mirrors_indexHint : Mirrors c Eq indexHint indexHint := by
  refine Mirrors.eatKeyword.seq fun _ => .ite
    (Mirrors.expectKeyword.bind fun _ _ _ => Mirrors.expectIdentifier.bind fun _ _ _ => .pure rfl)
    (.seq (.look fun ts ts' h => ?_) fun _ => .ite
      (Mirrors.advance.bind fun _ _ _ => Mirrors.advance.bind fun _ _ _ => .pure rfl) (.pure rfl))
  exact Mirrors.test_two (by simp) (by simp) (fun t ht => Token.isKeyword_semicolon ht .NOT) h

theorem mirrors_refuseJoin : Mirrors c Eq refuseJoin refuseJoin := by
  have hplain (t : Token) :
      joinKeywords.any t.plain.isKeyword = joinKeywords.any t.isKeyword := by
    rw [funext t.isKeyword_plain]
  refine Mirrors.peek.bind fun t t' ht => ?_
  cases ht with
  | none => exact .pure rfl
  | some ht =>
    dsimp only
    rw [ht.congr (f := fun t => joinKeywords.any t.isKeyword) hplain]
    exact .ite (.fail (.atToken rfl (fun _ => rfl) ht)) (.pure rfl)

theorem mirrors_refuseSubquery : Mirrors c Eq refuseSubquery refuseSubquery := by
  refine Mirrors.current.bind fun t t' ht => ?_
  rw [ht.is "("]
  exact .ite (.fail (.atToken rfl (fun _ => rfl) ht)) (.pure rfl)

theorem mirrors_knownTable (registry : Registry) :
    Mirrors c (fun x x' => c.Like x.1 x'.1 ∧ x.2 = x'.2) (knownTable registry)
      (knownTable registry) := by
  refine Mirrors.expectIdentifier.bind fun t t' ht => Mirrors.check.seq fun _ =>
    .ite (.fail (.atToken rfl (fun _ => rfl) ht)) ?_
  have hname := ht.unquoted
  rw [← Expr.find?_congr registry hname]
  split
  · exact .pure ⟨ht, rfl⟩
  · exact .fail (.atToken rfl (fun hv => by rw [hname.eq hv]) ht)

theorem any_congr_sources (h : List.Forall₂ (Expr.SameSource c) sources sources')
    {name name' : String} (hname : c.Spelled name name') :
    sources.any (sameName ·.name name) = sources'.any (sameName ·.name name') := by
  induction h with
  | nil => rfl
  | cons hs _ ih =>
    rw [List.any_cons, List.any_cons, ih, hname.sameName_left, hs.name.sameName_right]

theorem mirrors_extendFrom (registry : Registry)
    (h : List.Forall₂ (Expr.SameSource c) sources sources') :
    Mirrors c (List.Forall₂ (Expr.SameSource c)) (extendFrom registry sources)
      (extendFrom registry sources') := by
  refine mirrors_refuseSubquery.seq fun _ => (mirrors_knownTable registry).bind fun x x' hx =>
    mirrors_givenName?.bind fun name name' hname => ?_
  obtain ⟨ht, htable⟩ := hx
  have hgiven : c.Spelled (name.getD x.1.unquoted) (name'.getD x'.1.unquoted) := by
    cases hname with
    | none => exact ht.unquoted
    | some hname => exact hname
  dsimp only
  rw [any_congr_sources h hgiven]
  exact .ite (.fail (.atToken rfl (fun hv => by rw [hgiven.eq hv]) ht))
    (mirrors_indexHint.seq fun _ => mirrors_refuseJoin.seq fun _ =>
      .pure (List.rel_append h (.cons ⟨hgiven, htable⟩ .nil)))

theorem mirrors_fromClause (registry : Registry) :
    Mirrors c (List.Forall₂ (Expr.SameSource c)) (fromClause registry) (fromClause registry) := by
  refine Mirrors.eatKeyword.seq fun _ => .ite ((mirrors_extendFrom registry .nil).bind
    fun first first' hfirst => .loop (fun a a' ha => Mirrors.eat.seq fun _ => ?_) hfirst)
    (.pure .nil)
  exact .ite ((mirrors_extendFrom registry ha).bind fun _ _ h => .pure (.some h)) (.pure .none)

variable {context context' : Context}

theorem mirrors_whereClause (h : Expr.SameContext c context context') :
    Mirrors c Eq (whereClause context) (whereClause context') :=
  Mirrors.eatKeyword.seq fun _ => .ite ((Expr.mirrors_parse h _).bind fun _ _ _ => .pure rfl)
    (.pure rfl)

theorem mirrors_orderClause (h : Expr.SameContext c context context') :
    Mirrors c Eq (orderClause context) (orderClause context') :=
  Mirrors.eatKeyword.seq fun _ => .ite
    (Mirrors.expectKeyword.bind fun _ _ _ => Expr.mirrors_orderingTerms (Expr.mirrors_parse h))
    (.pure rfl)

theorem mirrors_offset (h : Expr.SameContext c context context') :
    Mirrors c Eq (offset context) (offset context') :=
  have hparse := Expr.mirrors_operand (Expr.mirrors_parse h) .all ()
  Mirrors.eatKeyword.seq fun _ => .ite hparse (Mirrors.eat.seq fun _ => .ite hparse (.pure rfl))

theorem mirrors_limitClause (h : Expr.SameContext c context context') :
    Mirrors c Eq (limitClause context) (limitClause context') :=
  Mirrors.eatKeyword.seq fun _ => .ite
    ((Expr.mirrors_parse h _).bind fun _ _ _ => mirrors_offset h) (.pure rfl)

theorem mirrors_openSelect : Mirrors c Eq openSelect openSelect := by
  refine Mirrors.current.bind fun t t' ht => ?_
  rw [ht.congr (f := (·.isKeyword .SELECT)) (by simp)]
  exact .ite (Mirrors.advance.bind fun _ _ _ => .pure rfl)
    (.fail (.atToken rfl (fun hv => by rw [ht.value (.inl hv)]) ht))

theorem mirrors_distinctness : Mirrors c Eq distinctness distinctness :=
  Mirrors.eatKeyword.seq fun _ => .ite (.pure rfl) (Mirrors.eatKeyword.seq fun _ => .pure rfl)

theorem mirrors_finish : Mirrors c Eq finish finish := by
  refine Mirrors.eat.seq fun _ => Mirrors.peek.bind fun t t' ht => ?_
  cases ht with
  | none => exact .pure rfl
  | some ht => exact .fail (.unexpected ht)

theorem mirrors_boundParameters : Mirrors c Eq boundParameters boundParameters where
  suffix := by
    intro s a t h
    cases h
    exact List.suffix_refl _
  mirror _ _ _ _ _ hs _ := .ok hs.parameters hs

theorem mirrors_select (registry : Registry) :
    Mirrors c (Alike c) (select registry) (select registry) := by
  refine mirrors_openSelect.seq fun _ => mirrors_distinctness.seq fun distinct =>
    (mirrors_selectItem registry).separated.bind fun items items' hitems =>
    (mirrors_fromClause registry).bind fun sources sources' hsources => ?_
  have hcontext := Expr.sameContext_sources registry hsources
  exact (mirrors_whereClause hcontext).seq fun _ => (mirrors_orderClause hcontext).seq fun _ =>
    (mirrors_limitClause hcontext).seq fun _ => mirrors_finish.seq fun _ =>
    mirrors_boundParameters.seq fun parameters =>
    Mirrors.ofExcept (sameResult_process ⟨rfl, hsources, hitems, rfl, .none⟩)

theorem Alike.columns {q q' : Query} (h : q.Alike c q') :
    List.Forall₂ (Column.Alike c) q.columns q'.columns := by
  have hprojection := h.projection
  unfold Query.columns
  generalize q.projection = columns, q'.projection = columns' at hprojection
  cases hprojection with
  | none => exact .nil
  | some hcolumns => exact hcolumns

theorem Alike.tables {q q' : Query} (h : q.Alike c q') :
    q.sources.map (·.table) = q'.sources.map (·.table) := by
  rw [← List.forall₂_eq_eq_eq, List.forall₂_map_left_iff, List.forall₂_map_right_iff]
  exact h.sources.imp fun _ _ hs => hs.table

/-- Queries are read without regard to the case of letters. Two lists of tokens that differ in the
case of letters only, outside of literals and bind parameters, are rejected with the same code, or
they are queries on the same tables with the same parameters, and their columns differ in their
output names and in the letter case of their names at most. -/
theorem select_caseless (registry : Registry) {ts ts' : List Token}
    (h : List.Forall₂ Comparison.caseless.Like ts ts') :
    (∃ f f', (select registry).run ts = .error f ∧ (select registry).run ts' = .error f' ∧
      f.error.code = f'.error.code) ∨
    ∃ q q' ws ws', (select registry).run ts = .ok (q, ws) ∧
      (select registry).run ts' = .ok (q', ws') ∧ q.distinct = q'.distinct ∧
      q.sources.map (·.table) = q'.sources.map (·.table) ∧ q.parameters = q'.parameters ∧
      List.Forall₂ (fun a a' : Column => sameName a.sqlName a'.sqlName = true ∧
        { a' with sqlName := a.sqlName, outputName := a.outputName } = a) q.columns q'.columns := by
  have hrun := (mirrors_select registry).run (fun _ hexcused => hexcused) h
  generalize (select registry).run ts = r, (select registry).run ts' = r' at hrun
  cases hrun with
  | error he =>
    left
    exact ⟨_, _, rfl, rfl, he.code⟩
  | ok hq =>
    right
    refine ⟨_, _, _, _, rfl, rfl, hq.distinct, hq.tables, hq.parameters, ?_⟩
    apply hq.columns.imp
    intro a a' ha
    rw [sameName, ha.sqlName.lower, beq_self_eq_true]
    exact ⟨rfl, ha.rest⟩

/-- Keywords, a column and a table in the other case. -/
theorem select_caseless_column :
    let registry : Registry := ⟨[{ Table.named 0 "a" with columns := [.declare 0 "x" "TEXT"] }]⟩
    let word (value : String) : Token := ⟨value, .other, .start⟩
    let ts := ["SELECT", "x", "FROM", "a"].map word
    let ts' := ["select", "X", "from", "A"].map word
    List.Forall₂ Comparison.caseless.Like ts ts' ∧
      ∃ q q' ws ws', (select registry).run ts = .ok (q, ws) ∧
        (select registry).run ts' = .ok (q', ws') ∧ q.columns.map (·.sqlName) = ["x"] ∧
        q.sources.map (·.table) = q'.sources.map (·.table) ∧
        List.Forall₂ (fun a a' : Column => sameName a.sqlName a'.sqlName = true ∧
          { a' with sqlName := a.sqlName, outputName := a.outputName } = a)
            q.columns q'.columns := by
  intro registry word ts ts'
  have hword (v v' : String) (hv : v.toList.map Char.toLower = v'.toList.map Char.toLower)
      (hp : (word v).isParameter = false) : Comparison.caseless.Like (word v) (word v') := by
    have hlower : v.toLower = v'.toLower := by
      rw [← String.toList_inj, toList_toLower, toList_toLower, hv]
    refine ⟨rfl, hlower, ?_, fun _ => rfl⟩
    rintro (h | h | h)
    · exact h.elim
    · cases h
    · rw [hp] at h
      cases h
  have hlike : List.Forall₂ Comparison.caseless.Like ts ts' :=
    .cons (hword "SELECT" "select" (by decide) (by decide +kernel))
      (.cons (hword "x" "X" (by decide) (by decide +kernel))
        (.cons (hword "FROM" "from" (by decide) (by decide +kernel))
          (.cons (hword "a" "A" (by decide) (by decide +kernel)) .nil)))
  have hread : ((select registry).run ts).toOption.map (fun x => x.1.columns.map (·.sqlName)) =
      some ["x"] := by
    decide +kernel
  obtain ⟨f, f', herror, -⟩ | ⟨q, q', ws, ws', hq, hq', -, htables, -, hcolumns⟩ :=
    select_caseless registry hlike
  · rw [herror] at hread
    cases hread
  · rw [hq] at hread
    exact ⟨hlike, q, q', ws, ws', hq, hq', Option.some.inj hread, htables, hcolumns⟩

end Query

end SqliteSchema
