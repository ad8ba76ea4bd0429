import SqliteSchema.Proofs.Expr.Simple
import SqliteSchema.Query.Select

/-!
Select lists. Every entry of the list of an accepted query is a star, the star of a table or a
column, which may stand in parentheses and have an alias behind it; there is nothing else in it.
-/
namespace SqliteSchema.Query

open SqliteSchema.Parser

variable {registry : Registry} {s t : ParseState} {q : Query} {ts : List Token}

/-- These tokens give a column a new name, or they are none. -/
inductive SpellsAlias : List Token → Option String → Prop
  | none : SpellsAlias [] none
  | bare {w : Token} : w.isIdentifier = true → w.keyword = none → SpellsAlias [w] (some w.unquoted)
  | named {word w : Token} : word.isKeyword .AS = true → w.isIdentifier = true →
    SpellsAlias [word, w] (some w.unquoted)

/-- These tokens are an entry of a select list and nothing else. -/
inductive SpellsItem : List Token → SelectItem → Prop
  | all {star : Token} : star.is "*" = true → SpellsItem [star] .allColumns
  | allOf {table point star : Token} : table.isIdentifier = true → point.is "." = true →
    star.is "*" = true → SpellsItem [table, point, star] (.allColumnsOf table)
  | column {reference enclosed newName : List Token} {r : ColumnReference}
    {name : Option String} : Expr.SpellsReference reference r →
    Expr.Enclosed reference enclosed → SpellsAlias newName name →
    SpellsItem (enclosed ++ newName) (.column r.table r.column name)

/-- These tokens are entries of a select list with commas between them. -/
inductive SpellsList : List Token → List SelectItem → Prop
  | single {ts : List Token} {item : SelectItem} : SpellsItem ts item → SpellsList ts [item]
  | cons {ts us : List Token} {comma : Token} {item : SelectItem} {items : List SelectItem} :
    SpellsItem ts item → comma.is "," = true → SpellsList us items →
    SpellsList (ts ++ comma :: us) (item :: items)

/-- These tokens stand in front of a select list. -/
inductive SpellsStart : List Token → Bool → Prop
  | plain {select : Token} : select.isKeyword .SELECT = true → SpellsStart [select] false
  | all {select word : Token} : select.isKeyword .SELECT = true → word.isKeyword .ALL = true →
    SpellsStart [select, word] false
  | distinct {select word : Token} : select.isKeyword .SELECT = true →
    word.isKeyword .DISTINCT = true → SpellsStart [select, word] true

/-- What stands behind a select list. -/
def behindList (registry : Registry) (distinct : Bool) (items : List SelectItem) :
    Parser Query := do
  let sources ← fromClause registry
  let context : Context := ⟨registry, .sources sources⟩
  whereClause context
  orderClause context
  limitClause context
  finish
  let parameters ← boundParameters
  ofExcept (Query.process { distinct, sources, items, parameters })

theorem select_eq_behindList (registry : Registry) :
    select registry = (do
      openSelect
      let distinct ← distinctness
      let items ← separated (selectItem registry)
      behindList registry distinct items) := rfl

/-! ### Entries -/

theorem givenName?_eq_ok {name : Option String} (h : givenName? s = .ok name t) :
    ∃ ts, s.rest = ts ++ t.rest ∧ SpellsAlias ts name ∧ t = { s with rest := t.rest } := by
  obtain ⟨as, u, has, hname⟩ := bind_eq_ok h
  cases as with
  | true =>
    obtain ⟨word, hrest, hword, hu⟩ := eatKeyword_eq_true has
    obtain ⟨w, v, hw, hv⟩ := bind_eq_ok hname
    cases hv
    obtain ⟨hurest, hid, ht⟩ := require_eq_ok hw
    exact ⟨[word, w], by simp [hrest, hurest], .named hword hid, by rw [ht, hu]⟩
  | false =>
    obtain rfl := eatKeyword_eq_false has
    obtain ⟨accepted, v, haccepted, hv⟩ := bind_eq_ok hname
    cases hv
    cases accepted with
    | none =>
      obtain rfl := accept_eq_none haccepted
      exact ⟨[], rfl, .none, rfl⟩
    | some w =>
      obtain ⟨hrest, hw, ht⟩ := accept_eq_some haccepted
      obtain ⟨hid, hfree⟩ := Bool.and_eq_true_iff.1 hw
      exact ⟨[w], hrest, .bare hid (Option.isNone_iff_eq_none.1 hfree), ht⟩

theorem allColumnsOf_eq_ok {item : SelectItem} (hstarts : startsAllColumnsOf s.rest = true)
    (h : allColumnsOf s = .ok item t) :
    ∃ ts, s.rest = ts ++ t.rest ∧ SpellsItem ts item ∧ t = { s with rest := t.rest } := by
  obtain ⟨table, u, htable, hpoint⟩ := bind_eq_ok h
  obtain ⟨point, v, hv, hstar⟩ := bind_eq_ok hpoint
  obtain ⟨star, x, hx, hitem⟩ := bind_eq_ok hstar
  cases hitem
  obtain ⟨hrest, -, hu⟩ := require_eq_ok htable
  obtain ⟨hurest, -, hv⟩ := require_eq_ok hv
  obtain ⟨hvrest, -, hx⟩ := require_eq_ok hx
  rw [hrest, hurest, hvrest] at hstarts
  simp only [startsAllColumnsOf, Bool.and_eq_true] at hstarts
  exact ⟨[table, point, star], by simp [hrest, hurest, hvrest],
    .allOf hstarts.1.1 hstarts.1.2 hstarts.2, by rw [hx, hv, hu]⟩

theorem namedColumn_eq_ok {item : SelectItem} (h : namedColumn registry s = .ok item t) :
    ∃ ts, s.rest = ts ++ t.rest ∧ SpellsItem ts item ∧ t = { s with rest := t.rest } := by
  obtain ⟨first, u, hfirst, hexpr⟩ := bind_eq_ok h
  obtain ⟨rfl, -⟩ := current_eq_ok hfirst
  obtain ⟨e, v, he, hitem⟩ := bind_eq_ok hexpr
  cases e with
  | column r =>
    obtain ⟨name, x, hname, hx⟩ := bind_eq_ok hitem
    cases hx
    obtain ⟨enclosed, reference, hrest, henclosed, hspelled, hwarnings⟩ :=
      Expr.readsSimple_parse _ _ he trivial
    obtain ⟨newName, hvrest, halias, ht⟩ := givenName?_eq_ok hname
    generalize hps : v.parameters = ps at hspelled
    cases hspelled with
    | column hreference =>
      refine ⟨enclosed ++ newName, by rw [hrest, hvrest, List.append_assoc],
        .column hreference henclosed halias, ?_⟩
      rw [ht, hps, hwarnings]
  | literal | parameter | function | compound => cases hitem

theorem selectItem_eq_ok {item : SelectItem} (h : selectItem registry s = .ok item t) :
    ∃ ts, s.rest = ts ++ t.rest ∧ SpellsItem ts item ∧ t = { s with rest := t.rest } := by
  obtain ⟨first, u, hfirst, hstar⟩ := bind_eq_ok h
  obtain ⟨rfl, -⟩ := current_eq_ok hfirst
  obtain ⟨star, v, hv, hlook⟩ := bind_eq_ok hstar
  cases star with
  | true =>
    cases hlook
    obtain ⟨w, hrest, hw, ht⟩ := eat_eq_true hv
    exact ⟨[w], hrest, .all hw, ht⟩
  | false =>
    obtain rfl := eat_eq_false hv
    obtain ⟨starts, x, hstarts, hitem⟩ := bind_eq_ok hlook
    cases hstarts
    by_cases hall : startsAllColumnsOf v.rest = true
    · rw [if_pos hall] at hitem
      exact allColumnsOf_eq_ok hall hitem
    · rw [if_neg hall] at hitem
      exact namedColumn_eq_ok hitem

theorem spellsList_of_listed {items : List SelectItem}
    (h : Listed (selectItem registry) s items t) :
    ∃ ts, s.rest = ts ++ t.rest ∧ SpellsList ts items ∧ t = { s with rest := t.rest } := by
  induction h with
  | single hitem =>
    obtain ⟨ts, hrest, hspelled, ht⟩ := selectItem_eq_ok hitem
    exact ⟨ts, hrest, .single hspelled, ht⟩
  | cons hitem hcomma hurest hv _ ih =>
    obtain ⟨ts, hrest, hspelled, hu⟩ := selectItem_eq_ok hitem
    obtain ⟨us, hvrest, hspelled', ht⟩ := ih
    refine ⟨_, ?_, .cons hspelled hcomma hspelled', ?_⟩
    · rw [hrest, hurest, hvrest]
      simp
    · rw [ht, hv, hu]

/-! ### Queries -/

theorem spellsStart_of_distinctness {select : Token} {distinct : Bool}
    (hselect : select.isKeyword .SELECT = true) (h : distinctness s = .ok distinct t) :
    ∃ ts, s.rest = ts ++ t.rest ∧ SpellsStart (select :: ts) distinct ∧
      t = { s with rest := t.rest } := by
  obtain ⟨read, u, hread, hall⟩ := bind_eq_ok h
  cases read with
  | true =>
    cases hall
    obtain ⟨w, hrest, hw, ht⟩ := eatKeyword_eq_true hread
    exact ⟨[w], hrest, .distinct hselect hw, ht⟩
  | false =>
    obtain rfl := eatKeyword_eq_false hread
    obtain ⟨all, v, hv, hdistinct⟩ := bind_eq_ok hall
    cases hdistinct
    cases all with
    | true =>
      obtain ⟨w, hrest, hw, ht⟩ := eatKeyword_eq_true hv
      exact ⟨[w], hrest, .all hselect hw, ht⟩
    | false =>
      obtain rfl := eatKeyword_eq_false hv
      exact ⟨[], rfl, .plain hselect, rfl⟩

theorem openSelect_eq_ok (h : openSelect s = .ok () t) :
    ∃ select, s.rest = select :: t.rest ∧ select.isKeyword .SELECT = true ∧
      t = { s with rest := t.rest } := by
  obtain ⟨select, u, hselect, hread⟩ := bind_eq_ok h
  obtain ⟨rfl, hhead⟩ := current_eq_ok hselect
  by_cases hword : select.isKeyword .SELECT = true
  · rw [if_pos hword] at hread
    obtain ⟨w, v, hw, hv⟩ := bind_eq_ok hread
    cases hv
    obtain ⟨hrest, -, ht⟩ := require_eq_ok hw
    obtain rfl : w = select := by simpa [hrest] using hhead
    exact ⟨w, hrest, hword, ht⟩
  · rw [if_neg hword] at hread
    cases hread

theorem fields_of_behindList {distinct : Bool} {items : List SelectItem}
    (h : behindList registry distinct items s = .ok q t) :
    q.distinct = distinct ∧ q.items = items := by
  -- The clauses do not matter.
  iterate 6 obtain ⟨_, _, -, h⟩ := bind_eq_ok h
  obtain ⟨-, rfl⟩ | ⟨ps, -, -, rfl⟩ := process_eq_ok (Ensures.ofExcept _ _ _ h)
  · exact ⟨rfl, rfl⟩
  · exact ⟨rfl, rfl⟩

/-- An expression that is a literal, a bind parameter or a column consists of the tokens of that
operand and of as many parentheses in front of it as behind it. So a select list has no columns but
those that are written as columns, in parentheses or not, and nothing else is in it. -/
theorem simple_spelled :
    (∀ (context : Context) (s t : ParseState) (e : Expr),
      Expr.parse context .all s = .ok e t → e.IsSimple → Expr.ReadsSimple s e t) ∧
    ∀ (registry : Registry) (s t : ParseState) (q : Query), select registry s = .ok q t →
      ∃ start list rest, s.rest = start ++ list ++ rest ∧ SpellsStart start q.distinct ∧
        SpellsList list q.items ∧
        behindList registry q.distinct q.items { s with rest := rest } = .ok q t := by
  refine ⟨fun context s t e => Expr.readsSimple_parse context .all, fun registry s t q h => ?_⟩
  rw [select_eq_behindList] at h
  obtain ⟨⟨⟩, u, hopen, hdistinctness⟩ := bind_eq_ok h
  obtain ⟨distinct, v, hdistinct, hlist⟩ := bind_eq_ok hdistinctness
  obtain ⟨items, x, hitems, hbehind⟩ := bind_eq_ok hlist
  obtain ⟨select, hrest, hselect, hu⟩ := openSelect_eq_ok hopen
  obtain ⟨words, hurest, hstart, hv⟩ := spellsStart_of_distinctness hselect hdistinct
  have hkeeps (s : ParseState) (item : SelectItem) (t : ParseState)
      (hitem : selectItem registry s = .ok item t) : t.rest <:+ s.rest := by
    obtain ⟨ts, hs, -, -⟩ := selectItem_eq_ok hitem
    exact hs ▸ List.suffix_append ts t.rest
  obtain ⟨list, hvrest, hspelled, hx⟩ := spellsList_of_listed (listed_of_separated hkeeps hitems)
  obtain ⟨rfl, rfl⟩ := fields_of_behindList hbehind
  refine ⟨select :: words, list, x.rest, ?_, hstart, hspelled, ?_⟩
  · rw [hrest, hurest, hvrest]
    simp
  · rw [hx, hv, hu] at hbehind
    exact hbehind

/-- A column in two pairs of parentheses with an alias behind it, and a bind parameter in one. -/
theorem simple_spelled_parentheses :
    let table := { Table.named 0 "t" with columns := [.declare 0 "a" "INTEGER"] }
    let word (value : String) (n : Nat) : Token := ⟨value, .other, ⟨n, 0, n⟩⟩
    let marks := [word "(" 0, word "?" 1, word ")" 2]
    ∃ ts q t u, Token.tokenize "SELECT DISTINCT ((t.[a])) b, t.* FROM t;" = .ok ts ∧
      select ⟨[table]⟩ { rest := ts } = .ok q t ∧ q.items.length = 2 ∧
      (∃ start list rest, ts = start ++ list ++ rest ∧ SpellsStart start q.distinct ∧
        SpellsList list q.items ∧
        behindList ⟨[table]⟩ q.distinct q.items { rest := rest } = .ok q t) ∧
      Expr.parse ⟨⟨[table]⟩, .deferred⟩ .all { rest := marks } = .ok (.parameter 1) u ∧
      (Expr.parameter 1).IsSimple ∧ Expr.ReadsSimple { rest := marks } (.parameter 1) u := by
  intro table word marks
  obtain ⟨hexpression, hselect⟩ := simple_spelled
  have hmarks : Expr.parse ⟨⟨[table]⟩, .deferred⟩ .all { rest := marks } = .ok (.parameter 1)
      { rest := [], parameters := ⟨[⟨1, "param1", none⟩], 1⟩ } :=
    eq_ok_of_success? (by decide +kernel)
  have hquery : (Token.tokenize "SELECT DISTINCT ((t.[a])) b, t.* FROM t;").map (fun ts =>
      (success? (select ⟨[table]⟩ { rest := ts })).map fun r => r.1.items.length) =
      .ok (some 2) := by
    decide +kernel
  cases htokens : Token.tokenize "SELECT DISTINCT ((t.[a])) b, t.* FROM t;" with
  | error f =>
    rw [htokens] at hquery
    cases hquery
  | ok ts =>
    rw [htokens] at hquery
    obtain ⟨⟨q, t⟩, hq, hlength⟩ := Option.map_eq_some_iff.1 (Except.ok.inj hquery)
    have hok := eq_ok_of_success? hq
    exact ⟨ts, q, t, _, rfl, hok, hlength, hselect _ _ _ _ hok, hmarks, trivial,
      hexpression _ _ _ _ hmarks trivial⟩

end SqliteSchema.Query
