import SqliteSchema.Proofs.Expr.Scan
import SqliteSchema.Proofs.Parameter.Unique
import SqliteSchema.Proofs.Parser.Resume
import SqliteSchema.Proofs.Query.Layout
import SqliteSchema.Proofs.Query.SelectList
import SqliteSchema.Proofs.Schema.Opaque

/-!
Sub-queries that are passed over. A query is the same whatever stands in the group behind an
`EXISTS`, and whatever stands behind the first word of a sub-query, as long as the parentheses in
there are balanced.
-/
namespace SqliteSchema

namespace Parser

variable {q : Place}

/-- The tokens of a stretch with others inside its group. A query keeps its first word. -/
inductive Stretch.Refilled : Stretch → List Token → Prop
  | existence {word : Token} {g : Group} {hword : word.isKeyword .EXISTS = true}
    {inside : List Token} (h : Balanced inside) :
    Refilled (.existence word g hword) (word :: g.opening :: (inside ++ [g.closing]))
  | subquery {g : Group} {hfirst : Expr.startsSubquery g.tokens = true} {w : Token}
    {ts inside : List Token} (hg : g.inside = w :: ts) (h : Balanced (w :: inside)) :
    Refilled (.subquery g hfirst) (g.opening :: w :: (inside ++ [g.closing]))

theorem Stretch.Refilled.exists_stretch {x : Stretch} {ts : List Token} (h : x.Refilled ts) :
    ∃ x' : Stretch, x.Refills x' ∧ x'.tokens = ts := by
  cases h with
  | @existence word g hword inside h =>
    exact ⟨.existence word (g.refill inside h) hword, .existence hword rfl, rfl⟩
  | @subquery g hfirst w ts inside hg h =>
    have hfirst' : Expr.startsSubquery (g.refill (w :: inside) h).tokens = true := by
      rw [Group.tokens, hg] at hfirst
      exact hfirst
    exact ⟨.subquery (g.refill (w :: inside) h) hfirst', .subquery hfirst hfirst' rfl hg rfl, rfl⟩

/-- In front of a group the tokens are the same, and so are the next two. -/
theorem near_refilled {c : Comparison} {before behind : List Stretch} {x x' : Stretch}
    {ts us : List Token} (hx : x.Refills x') (htoken : ∀ t, x ≠ .token t)
    (h : List.Forall₂ c.Like ((before ++ x' :: behind).flatMap Stretch.tokens ++ ts) us) :
    Near c ((before ++ x :: behind).flatMap Stretch.tokens ++ ts) us := by
  rw [List.flatMap_append, List.append_assoc, List.flatMap_cons] at h
  rw [List.flatMap_append, List.append_assoc, List.flatMap_cons]
  generalize before.flatMap Stretch.tokens = front at h ⊢
  induction front generalizing us with
  | nil =>
    cases hx with
    | token t => exact absurd rfl (htoken t)
    | @existence word g g' hword hopening =>
      obtain ⟨w, more, hw, hmore, rfl⟩ := List.forall₂_cons_left_iff.1 h
      obtain ⟨w', more', hw', -, rfl⟩ := List.forall₂_cons_left_iff.1 hmore
      rw [hopening] at hw'
      exact .two hw hw' (Token.is_of_is g.opens)
    | @subquery g g' word inside inside' hfirst hfirst' hopening hg hg' =>
      rw [Stretch.tokens, Group.tokens, hopening, hg'] at h
      obtain ⟨w, more, hw, hmore, rfl⟩ := List.forall₂_cons_left_iff.1 h
      obtain ⟨w', more', hw', -, rfl⟩ := List.forall₂_cons_left_iff.1 hmore
      have hpoint : word.is "." = false := by
        rw [Group.tokens, hg] at hfirst
        rcases Bool.or_eq_true_iff.1 (Bool.and_eq_true_iff.1 hfirst).2 with h | h
        · exact Token.is_of_isKeyword h
        · exact Token.is_of_isKeyword h
      rw [Stretch.tokens, Group.tokens, hg]
      exact .two hw hw' hpoint
  | cons t front ih =>
    obtain ⟨t', us', ht, hrest, rfl⟩ := List.forall₂_cons_left_iff.1 h
    exact .cons ht (ih hrest)

end Parser

namespace Query

open SqliteSchema.Parser

variable {registry : Registry} {s t u : ParseState}

/-! ### The expressions of a query -/

/-- A query up to its clauses. -/
structure Opened where
  distinct : Bool
  items : List SelectItem
  sources : List Source
  deriving DecidableEq, Repr

/-- What the clauses refer to. -/
def Opened.context (registry : Registry) (x : Opened) : Context := ⟨registry, .sources x.sources⟩

def opened (registry : Registry) : Parser Opened := do
  openSelect
  let distinct ← distinctness
  let items ← separated (selectItem registry)
  return ⟨distinct, items, ← fromClause registry⟩

def ending (x : Opened) : Parser Query := do
  finish
  let parameters ← boundParameters
  ofExcept (Query.process { x with parameters })

/-- A select list up to an entry that is no star, and the first token of that entry. -/
structure Entered where
  distinct : Bool
  items : List SelectItem
  first : Token
  deriving DecidableEq, Repr

/-- The first token of an entry that is no star. -/
def columnStart : Parser Token := do
  let first ← current "a result column"
  if ← check "*" then fail (.unexpected "a column" first)
  else if ← look startsAllColumnsOf then fail (.unexpected "a column" first)
  else return first

/-- Up to the expression of an entry behind `n` others. -/
def upToEntry (registry : Registry) (n : Nat) : Parser Entered := do
  openSelect
  let distinct ← distinctness
  let items ← preceding (selectItem registry) n
  return ⟨distinct, items, ← columnStart⟩

/-- Up to the expression behind `WHERE`. -/
def upToCondition (registry : Registry) : Parser Opened := do
  let x ← opened registry
  let _ ← expectKeyword .WHERE
  return x

/-- Up to the term of an `ORDER BY` behind `n` others. -/
def upToTerm (registry : Registry) (n : Nat) : Parser (Opened × List Unit) := do
  let x ← opened registry
  whereClause (x.context registry)
  let _ ← expectKeyword .ORDER
  let _ ← expectKeyword .BY
  return (x, ← preceding (Expr.orderingTerm (Expr.parse (x.context registry))) n)

/-- Up to the expression behind `LIMIT`. -/
def upToLimit (registry : Registry) : Parser Opened := do
  let x ← opened registry
  whereClause (x.context registry)
  orderClause (x.context registry)
  let _ ← expectKeyword .LIMIT
  return x

/-- Up to the second expression of a `LIMIT`. -/
def upToOffset (registry : Registry) : Parser Opened := do
  let x ← upToLimit registry
  let _ ← Expr.parse (x.context registry) .all
  let _ ← require "OFFSET or ','" fun t => t.isKeyword .OFFSET || t.is ","
  return x

/-- The query that is read from `s` has an expression at `u`, which refers to what the context
says. -/
inductive HasExpression (registry : Registry) (s : ParseState) : Context → ParseState → Prop
  | entry {n : Nat} {x : Entered} {u : ParseState} (h : upToEntry registry n s = .ok x u) :
    HasExpression registry s ⟨registry, .deferred⟩ u
  | condition {x : Opened} {u : ParseState} (h : upToCondition registry s = .ok x u) :
    HasExpression registry s (x.context registry) u
  | term {n : Nat} {x : Opened × List Unit} {u : ParseState}
    (h : upToTerm registry n s = .ok x u) : HasExpression registry s (x.1.context registry) u
  | limit {x : Opened} {u : ParseState} (h : upToLimit registry s = .ok x u) :
    HasExpression registry s (x.context registry) u
  | offset {x : Opened} {u : ParseState} (h : upToOffset registry s = .ok x u) :
    HasExpression registry s (x.context registry) u

/-- A place where queries have an expression: how they are read up to it, what it refers to and
how they are read from there on. -/
structure Site (registry : Registry) (α : Type) where
  upTo : Parser α
  context : α → Context
  behind : α → Expr → Parser Query
  Same : α → α → Prop
  resumes : Resumes (select registry) upTo fun x => Expr.parse (context x) .all >>= behind x
  mirrors_upTo : Mirrors .text Same upTo upTo
  sameContext : ∀ x x', Same x x' → Expr.SameContext .text (context x) (context x')
  mirrors_behind : ∀ x x' e e', Same x x' → Expr.Like .text e e' →
    Mirrors .text (Alike .text) (behind x e) (behind x' e')

/-- Queries that are the same up to their clauses. -/
structure SameOpened (x x' : Opened) : Prop where
  distinct : x.distinct = x'.distinct
  items : List.Forall₂ (SameItem .text) x.items x'.items
  sources : List.Forall₂ (Expr.SameSource .text) x.sources x'.sources

theorem SameOpened.context {x x' : Opened} (h : SameOpened x x') :
    Expr.SameContext .text (x.context registry) (x'.context registry) :=
  Expr.sameContext_sources registry h.sources

theorem mirrors_opened (registry : Registry) :
    Mirrors .text SameOpened (opened registry) (opened registry) :=
  mirrors_openSelect.seq fun _ => mirrors_distinctness.seq fun _ =>
    (mirrors_selectItem registry).separated.bind fun _ _ hitems =>
    (mirrors_fromClause registry).bind fun _ _ hsources => .pure ⟨rfl, hitems, hsources⟩

theorem mirrors_ending {x x' : Opened} (h : SameOpened x x') :
    Mirrors .text (Alike .text) (ending x) (ending x') :=
  mirrors_finish.seq fun _ => mirrors_boundParameters.seq fun _ =>
    Mirrors.ofExcept (sameResult_process ⟨h.distinct, h.sources, h.items, rfl, .none⟩)

theorem select_eq_opened (registry : Registry) :
    select registry = (do
      let x ← opened registry
      whereClause (x.context registry)
      orderClause (x.context registry)
      limitClause (x.context registry)
      ending x) := by
  simp only [opened, bind_assoc, pure_bind]
  rfl

def conditionSite (registry : Registry) : Site registry Opened where
  upTo := upToCondition registry
  context := Opened.context registry
  behind x _ := do
    orderClause (x.context registry)
    limitClause (x.context registry)
    ending x
  Same := SameOpened
  resumes := by
    rw [select_eq_opened]
    refine (Resumes.refl (opened registry) _).keep fun x => ?_
    exact ((Resumes.eatKeyword .WHERE _ _).left _).congr fun _ => by
      simp only [bind_assoc, pure_bind]
  mirrors_upTo := (mirrors_opened registry).bind fun _ _ hx => Mirrors.expectKeyword.bind
    fun _ _ _ => .pure hx
  sameContext _ _ h := h.context
  mirrors_behind _ _ _ _ h _ := (mirrors_orderClause h.context).seq fun _ =>
    (mirrors_limitClause h.context).seq fun _ => mirrors_ending h

theorem resumes_limit (registry : Registry) :
    Resumes (select registry) (upToLimit registry) fun x =>
      Expr.parse (x.context registry) .all >>= fun _ => offset (x.context registry) >>= fun _ =>
        ending x := by
  rw [select_eq_opened]
  refine (Resumes.refl (opened registry) _).bind fun x => (Resumes.refl _ _).bind fun _ =>
    (Resumes.refl _ _).bind fun _ => ((Resumes.eatKeyword .LIMIT _ _).left _).bind fun _ =>
    .done ?_
  rw [bind_assoc]

theorem mirrors_upToLimit (registry : Registry) :
    Mirrors .text SameOpened (upToLimit registry) (upToLimit registry) :=
  (mirrors_opened registry).bind fun _ _ hx => (mirrors_whereClause hx.context).seq fun _ =>
    (mirrors_orderClause hx.context).seq fun _ => Mirrors.expectKeyword.bind fun _ _ _ => .pure hx

def limitSite (registry : Registry) : Site registry Opened where
  upTo := upToLimit registry
  context := Opened.context registry
  behind x _ := do
    offset (x.context registry)
    ending x
  Same := SameOpened
  resumes := resumes_limit registry
  mirrors_upTo := mirrors_upToLimit registry
  sameContext _ _ h := h.context
  mirrors_behind _ _ _ _ h _ := (mirrors_offset h.context).seq fun _ => mirrors_ending h

/-- The second expression stands behind `OFFSET` or behind a comma. -/
theorem resumes_offset (context : Context) :
    Resumes (offset context) (require "OFFSET or ','" fun t => t.isKeyword .OFFSET || t.is ",")
      fun _ => (do let _ ← Expr.parse context .all) := by
  intro s w t h
  obtain ⟨hrest, hw, ht⟩ := require_eq_ok h
  have hrequire {test : Token → Bool} {expected : String} (hw : test w = true) :
      require expected test s = .ok w t := by
    unfold require
    rw [hrest, ht]
    exact if_pos hw
  by_cases hoffset : w.isKeyword .OFFSET = true
  · exact Resumes.eatKeyword .OFFSET _ _ s w t (hrequire hoffset)
  · rw [Bool.not_eq_true] at hoffset
    rw [hoffset, Bool.false_or] at hw
    have hbranch : offset context s = _ := Resumes.accepted_not _ _ hrest hoffset
    rw [hbranch]
    exact Resumes.eat "," _ _ s w t (hrequire hw)

def offsetSite (registry : Registry) : Site registry Opened where
  upTo := upToOffset registry
  context := Opened.context registry
  behind x _ := ending x
  Same := SameOpened
  resumes := by
    refine (resumes_limit registry).bind fun x => (Resumes.refl _ _).bind fun _ =>
      ((resumes_offset _).left _).bind fun _ => .done ?_
    rw [bind_assoc]
    rfl
  mirrors_upTo := (mirrors_upToLimit registry).bind fun _ _ hx =>
    (Expr.mirrors_parse hx.context _).bind fun _ _ _ =>
    (Mirrors.require (by simp)).bind fun _ _ _ => .pure hx
  sameContext _ _ h := h.context
  mirrors_behind _ _ _ _ h _ := mirrors_ending h

/-- The terms behind a comma. -/
def moreTerms (context : Context) (terms : List Unit) : Parser Unit := do
  let _ ← loop (fun terms => do
    if ← eat "," then return some (terms ++ [← Expr.orderingTerm (Expr.parse context)])
    else return none) terms

theorem mirrors_moreTerms {context context' : Context}
    (h : Expr.SameContext .text context context') (terms : List Unit) :
    Mirrors .text Eq (moreTerms context terms) (moreTerms context' terms) := by
  refine (Mirrors.loop (V := Any) (fun _ _ _ => Mirrors.eat.seq fun _ => ?_) trivial).bind
    fun _ _ _ => .pure rfl
  exact .ite ((Expr.mirrors_orderingTerm (Expr.mirrors_parse h)).bind fun _ _ _ =>
    .pure (.some trivial)) (.pure .none)

def termSite (registry : Registry) (n : Nat) : Site registry (Opened × List Unit) where
  upTo := upToTerm registry n
  context x := x.1.context registry
  behind x _ := do
    let _ ← eatAnyKeyword [.ASC, .DESC]
    Expr.nullsOrder
    moreTerms (x.1.context registry) (x.2 ++ [()])
    limitClause (x.1.context registry)
    ending x.1
  Same x x' := SameOpened x.1 x'.1 ∧ x.2 = x'.2
  resumes := by
    have hsuffix (context : Context) := (Expr.mirrors_orderingTerm
      (Expr.mirrors_parse (.refl (c := .text) context))).suffix
    rw [select_eq_opened]
    refine (Resumes.refl (opened registry) _).bind fun x => (Resumes.refl _ _).bind fun _ =>
      ((Resumes.eatKeyword .ORDER _ _).left _).bind fun _ => ((Resumes.refl _ _).left _).bind
      fun _ => (((Resumes.preceding (hsuffix _) n).left _).left _).bind fun terms => .done ?_
    simp only [Expr.orderingTerm, moreTerms, bind_assoc, pure_bind]
  mirrors_upTo := (mirrors_opened registry).bind fun _ _ hx =>
    (mirrors_whereClause hx.context).seq fun _ => Mirrors.expectKeyword.bind fun _ _ _ =>
    Mirrors.expectKeyword.bind fun _ _ _ =>
    (Mirrors.preceding (Expr.mirrors_orderingTerm (Expr.mirrors_parse hx.context)) n).bind
    fun _ _ hterms => .pure ⟨hx, by rwa [← List.forall₂_eq_eq_eq]⟩
  sameContext _ _ h := h.1.context
  mirrors_behind _ _ _ _ h _ := by
    rw [h.2]
    exact Mirrors.eatAnyKeyword.seq fun _ => Expr.mirrors_nullsOrder.seq fun _ =>
      (mirrors_moreTerms h.1.context _).seq fun _ => (mirrors_limitClause h.1.context).seq
      fun _ => mirrors_ending h.1

/-- The entry of a select list whose expression is read already. -/
def named (first : Token) : Expr → Parser SelectItem
  | .column reference => return .column reference.table reference.column (← givenName?)
  | _ => fail (.atToken .notAColumn first)

theorem mirrors_named {first first' : Token} (hfirst : Comparison.text.Like first first')
    {e e' : Expr} (he : Expr.Like .text e e') :
    Mirrors .text (SameItem .text) (named first e) (named first' e') := by
  cases he with
  | column hr =>
    exact mirrors_givenName?.bind fun _ _ hname => .pure (.column hr.table hr.column hname)
  | _ => exact .fail (.atToken rfl (fun _ => rfl) hfirst)

theorem mirrors_columnStart : Mirrors .text Comparison.text.Like columnStart columnStart :=
  Mirrors.current.bind fun _ _ ht => Mirrors.check.seq fun _ => .ite (.fail (.unexpected ht))
    (mirrors_startsAllColumnsOf.seq fun _ => .ite (.fail (.unexpected ht)) (.pure ht))

theorem resumes_selectItem (registry : Registry) :
    Resumes (selectItem registry) columnStart fun first =>
      Expr.parse ⟨registry, .deferred⟩ .all >>= named first := by
  intro s first t h
  obtain ⟨token, u, htoken, hcheck⟩ := bind_eq_ok h
  obtain ⟨rfl, hhead⟩ := current_eq_ok htoken
  obtain ⟨ts, hs⟩ := List.head?_eq_some_iff.1 hhead
  obtain ⟨star, v, hv, hmore⟩ := bind_eq_ok hcheck
  cases hv
  split at hmore
  · cases hmore
  next hstar =>
  obtain ⟨all, v, hv, hend⟩ := bind_eq_ok hmore
  cases hv
  split at hend
  · cases hend
  next hall =>
  cases hend
  have hstar' : first.is "*" = false := by simpa [hs] using hstar
  have hcurrent {expected : String} : current expected t = .ok first t := by
    unfold current
    rw [hs]
  have hlook : look startsAllColumnsOf t = .ok false t := by
    rw [Bool.not_eq_true] at hall
    rw [look, hall]
  calc selectItem registry t
    _ = (do
          if ← eat "*" then return .allColumns
          else if ← look startsAllColumnsOf then allColumnsOf
          else namedColumn registry : Parser SelectItem) t := by
        rw [selectItem, bind_apply, hcurrent]
    _ = (do
          if ← look startsAllColumnsOf then allColumnsOf
          else namedColumn registry : Parser SelectItem) t := Resumes.accepted_not _ _ hs hstar'
    _ = namedColumn registry t := by
        rw [bind_apply, hlook]
        rfl
    _ = (Expr.parse ⟨registry, .deferred⟩ .all >>= named first) t := by
        rw [namedColumn, bind_apply, hcurrent]
        rfl

/-- The entries of a select list behind `items`, and what follows the list. -/
def behindItems (registry : Registry) (distinct : Bool) (items : List SelectItem) :
    Parser Query := do
  let items ← loop (fun items => do
    if ← eat "," then return some (items ++ [← selectItem registry]) else return none) items
  behindList registry distinct items

theorem mirrors_behindItems (registry : Registry) (distinct : Bool)
    {items items' : List SelectItem} (h : List.Forall₂ (SameItem .text) items items') :
    Mirrors .text (Alike .text) (behindItems registry distinct items)
      (behindItems registry distinct items') := by
  refine .bind (.loop (fun _ _ hitems => Mirrors.eat.seq fun _ => ?_) h) fun items items' hitems => ?_
  · exact .ite ((mirrors_selectItem registry).bind fun _ _ hitem =>
      .pure (.some (List.rel_append hitems (.cons hitem .nil)))) (.pure .none)
  · refine (mirrors_fromClause registry).bind fun sources sources' hsources => ?_
    have hx : SameOpened ⟨distinct, items, sources⟩ ⟨distinct, items', sources'⟩ :=
      ⟨rfl, hitems, hsources⟩
    exact (mirrors_whereClause hx.context).seq fun _ => (mirrors_orderClause hx.context).seq
      fun _ => (mirrors_limitClause hx.context).seq fun _ => mirrors_ending hx

/-- Entries that are the same up to their first token. -/
structure SameEntered (x x' : Entered) : Prop where
  distinct : x.distinct = x'.distinct
  items : List.Forall₂ (SameItem .text) x.items x'.items
  first : Comparison.text.Like x.first x'.first

def entrySite (registry : Registry) (n : Nat) : Site registry Entered where
  upTo := upToEntry registry n
  context _ := ⟨registry, .deferred⟩
  behind x e := do
    let item ← named x.first e
    behindItems registry x.distinct (x.items ++ [item])
  Same := SameEntered
  resumes := by
    have hsuffix := (mirrors_selectItem (c := .text) registry).suffix
    rw [select_eq_behindList]
    refine (Resumes.refl openSelect _).bind fun _ => (Resumes.refl distinctness _).bind
      fun distinct => ((Resumes.preceding hsuffix n).left _).bind fun items =>
      (((resumes_selectItem registry).left _).left _).bind fun first => .done ?_
    simp only [behindItems, bind_assoc]
  mirrors_upTo := mirrors_openSelect.seq fun _ => mirrors_distinctness.seq fun _ =>
    ((mirrors_selectItem registry).preceding n).bind fun _ _ hitems =>
    mirrors_columnStart.bind fun _ _ hfirst => .pure ⟨rfl, hitems, hfirst⟩
  sameContext _ _ _ := .refl _
  mirrors_behind x x' e e' h he := (mirrors_named h.first he).bind fun _ _ hitem => by
    rw [h.distinct]
    exact mirrors_behindItems registry _ (List.rel_append h.items (.cons hitem .nil))

/-! ### The groups in an expression -/

variable {α : Type}

/-- A query in which a sub-query or the group behind an `EXISTS` has other tokens in it. The
expression has been cut into tokens and groups. -/
theorem Site.select_refilled (site : Site registry α) {x : α} {e : Expr} {v s' : ParseState}
    {q : Query} {before behind : List Stretch} {y : Stretch} {front ts : List Token}
    (h : select registry s = .ok q t) (hx : site.upTo s = .ok x u)
    (he : Expr.parse (site.context x) .all u = .ok e v) (hfront : s.rest = front ++ u.rest)
    (hread : Covers (Expr.parse (site.context x) .all) u e v (before ++ y :: behind))
    (hts : y.Refilled ts)
    (hrest : List.Forall₂ Comparison.text.Like (front ++
      (before.flatMap Stretch.tokens ++ ts ++ behind.flatMap Stretch.tokens) ++ v.rest) s'.rest)
    (hparameters : s.parameters = s'.parameters)
    (hwarnings : List.Forall₂ Comparison.text.SameWarning s.warnings s'.warnings) :
    ∃ q' t', select registry s' = .ok q' t' ∧ q.Alike .text q' ∧
      List.Forall₂ Comparison.text.SameWarning t.warnings t'.warnings := by
  obtain ⟨y', hy, rfl⟩ := hts.exists_stretch
  have htoken : ∀ w, y ≠ .token w := by
    rintro w rfl
    cases hts
  have hrefills : SameStretches (before ++ y :: behind) (before ++ y' :: behind) :=
    List.rel_append (List.forall₂_same.2 fun x _ => .refl x)
      (.cons hy (List.forall₂_same.2 fun x _ => .refl x))
  have hrefilled := hread.again _ _ hrefills (.refl v.rest)
  have htokens : before.flatMap Stretch.tokens ++ y'.tokens ++ behind.flatMap Stretch.tokens =
      (before ++ y' :: behind).flatMap Stretch.tokens := by
    rw [List.flatMap_append, List.flatMap_cons, List.append_assoc]
  rw [List.append_assoc, htokens] at hrest
  obtain ⟨front', more, hs', hfront', hmore⟩ := List.exists_append_of_forall₂ hrest
  have hnear : Near .text u.rest more := by
    rw [hread.rest]
    exact near_refilled hy htoken hmore
  obtain ⟨x', u', hx', hsame, rfl, hparameters', hwarnings'⟩ := site.mirrors_upTo.moved hx hfront
    hs' hfront' hnear hparameters hwarnings
  have hrun : (Expr.parse (site.context x) .all >>= site.behind x)
      { u with rest := (before ++ y' :: behind).flatMap Stretch.tokens ++ v.rest } = .ok q t := by
    have hall : select registry s = (Expr.parse (site.context x) .all >>= site.behind x) u :=
      site.resumes s x u hx
    rw [h, bind_apply, he] at hall
    rw [bind_apply, hrefilled]
    exact hall.symm
  obtain ⟨q', t', hq', hq, ht⟩ := ((Expr.mirrors_parse (site.sameContext x x' hsame) .all).bind
    fun e e' he => site.mirrors_behind x x' e e' hsame he).of_ok hrun hmore hparameters' hwarnings'
  exact ⟨q', t', (site.resumes s' x' u' hx').trans hq', hq, ht⟩

theorem HasExpression.exists_site {context : Context} (h : HasExpression registry s context u) :
    ∃ (α : Type) (site : Site registry α) (x : α), site.upTo s = .ok x u ∧
      site.context x = context := by
  cases h with
  | @entry n x _ h => exact ⟨_, entrySite registry n, x, h, rfl⟩
  | condition h => exact ⟨_, conditionSite registry, _, h, rfl⟩
  | @term n x _ h => exact ⟨_, termSite registry n, x, h, rfl⟩
  | limit h => exact ⟨_, limitSite registry, _, h, rfl⟩
  | offset h => exact ⟨_, offsetSite registry, _, h, rfl⟩

end Query

open SqliteSchema.Parser

/-- What stands in a group that is passed over does not matter, as long as its parentheses are
balanced. A schema passes over the groups behind `CHECK` and those of generated columns; an
expression of a query passes over those behind `EXISTS` and sub-queries, whose first word is kept.
The tokens of a text can be cut into such groups and other tokens in this one way only. -/
theorem groups_refilled :
    (∀ (source : List Char) (registry r : Registry) (ts : List Token) (ws : List Warning)
      (u : ParseState), (Definition.schema source registry).run ts = .ok (r, ws) →
      Definition.PassesOver source registry { rest := ts } u →
      ∃ front g rest, ts = front ++ Group.tokens g ++ rest ∧ u.rest = g.tokens ++ rest ∧
        ∀ inside source' ts', Balanced inside →
          List.Forall₂ Token.Same (front ++ (g.opening :: (inside ++ [g.closing])) ++ rest) ts' →
          ∃ r' ws', (Definition.schema source' registry).run ts' = .ok (r', ws') ∧
            r.SameTables r' ∧
            ws'.map (fun w => (w.code, w.message)) = ws.map fun w => (w.code, w.message)) ∧
    ∀ (registry : Registry) (ts : List Token) (q : Query) (ws : List Warning) (context : Context)
      (u : ParseState), (Query.select registry).run ts = .ok (q, ws) →
      Query.HasExpression registry { rest := ts } context u →
      ∃ e v front read, Expr.parse context .all u = .ok e v ∧
        ts = front ++ read.flatMap Stretch.tokens ++ v.rest ∧
        u.rest = read.flatMap Stretch.tokens ++ v.rest ∧ Place.Path .operand read .done ∧
        ((∀ w ∈ read.flatMap Stretch.tokens, w.IsRegular) → ∀ read' p,
          Place.Path .operand read' p →
          read'.flatMap Stretch.tokens = read.flatMap Stretch.tokens → read' = read) ∧
        ∀ before y behind inside ts', read = before ++ y :: behind → y.Refilled inside →
          List.Forall₂ Token.Same (front ++ (before.flatMap Stretch.tokens ++ inside ++
            behind.flatMap Stretch.tokens) ++ v.rest) ts' →
          ∃ q' ws', (Query.select registry).run ts' = .ok (q', ws') ∧ q'.atStart = q.atStart ∧
            ws'.map (fun w => (w.code, w.message)) = ws.map fun w => (w.code, w.message) := by
  refine ⟨fun source registry r ts ws u => Definition.refilled_of_schema,
    fun registry ts q ws context u h hu => ?_⟩
  obtain ⟨α, site, x, hx, rfl⟩ := hu.exists_site
  obtain ⟨t, hselect, rfl⟩ := run_eq_ok h
  have hall : Query.select registry { rest := ts } =
      (Expr.parse (site.context x) .all >>= site.behind x) u := site.resumes _ x u hx
  obtain ⟨e, v, he, -⟩ := bind_eq_ok (hall.symm.trans hselect)
  obtain ⟨front, hfront⟩ := site.mirrors_upTo.suffix _ x u hx
  have hfront : ts = front ++ u.rest := hfront.symm
  obtain ⟨p, read, hp, hpath, hread⟩ :=
    Expr.follows_parse (site.context x) .all .operand u e v (ready_at rfl) he
  obtain rfl : p = .done := hp
  refine ⟨e, v, front, read, he, ?_, hread.rest, hpath, fun hregular read' p hpath' htokens =>
    (path_unique hpath hpath' htokens.symm hregular).symm,
    fun before y behind inside ts' hcut hinside hts' => ?_⟩
  · rw [List.append_assoc, ← hread.rest, hfront]
  · subst hcut
    have hparameters : ({ rest := ts } : ParseState).parameters =
        ({ rest := ts' } : ParseState).parameters := rfl
    obtain ⟨q', t', hq', hq, hws⟩ := site.select_refilled hselect hx he hfront hread hinside
      (hts'.imp fun _ _ => Comparison.like_text_iff.2) hparameters .nil
    refine ⟨q', t'.warnings, ?_, hq.atStart.symm, (Comparison.sameWarnings_text_iff.1 hws).symm⟩
    rw [Parser.run, hq']

/-- A bind parameter in the group of a column's `CHECK` and in one behind `EXISTS`; other tokens,
with a semicolon among them, stand there as well. -/
theorem groups_refilled_parameter :
    let word (value : String) : Token := ⟨value, .other, .start⟩
    let declared (inside : List Token) :=
      ["CREATE", "TABLE", "t", "(", "a", "CHECK", "("].map word ++ inside ++
        [")", ")", ";"].map word
    let selected (inside : List Token) :=
      ["SELECT", "a", "FROM", "t", "WHERE", "EXISTS", "("].map word ++ inside ++
        [")", ";"].map word
    let table := { Table.named 0 "t" with columns := [.declare 0 "a" ""] }
    let parameter := [word "?"]
    let other := ["(", ";", ")", ","].map word
    (∃ r u, (Definition.schema [] {}).run (declared parameter) = .ok (r, []) ∧
      Definition.PassesOver [] {} { rest := declared parameter } u ∧
      ∃ r' ws', (Definition.schema [] {}).run (declared other) = .ok (r', ws') ∧
        r.SameTables r') ∧
    ∃ q u, (Query.select ⟨[table]⟩).run (selected parameter) = .ok (q, []) ∧
      Query.HasExpression ⟨[table]⟩ { rest := selected parameter }
        ⟨⟨[table]⟩, .sources [⟨"t", table⟩]⟩ u ∧
      ∃ q' ws', (Query.select ⟨[table]⟩).run (selected other) = .ok (q', ws') ∧
        q'.atStart = q.atStart := by
  intro word declared selected table parameter other
  obtain ⟨hschema, hselect⟩ := groups_refilled
  have hbalanced : Balanced parameter := by decide +kernel
  have hother : Balanced other := by decide +kernel
  let group : Group := ⟨word "(", parameter, word ")", by decide, by decide,
    fun _ => balanced_behind (by decide) hbalanced.opened hbalanced.closed⟩
  have hsame (ts : List Token) : List.Forall₂ Token.Same ts ts :=
    List.forall₂_same.2 fun t _ => .refl t
  refine ⟨?_, ?_⟩
  · have hrun : ((Definition.schema [] {}).run (declared parameter)).map (·.2) = .ok [] := by
      decide +kernel
    have hstop : (success? ((Definition.upToClause [] {} 0 0 0 >>= fun x =>
        keywords [.CHECK] >>= fun _ => pure x) { rest := declared parameter })).map (·.2.rest) =
        some (["(", "?", ")", ")", ";"].map word) := by
      decide +kernel
    obtain ⟨⟨x, u⟩, hx, hrest⟩ := Option.map_eq_some_iff.1 hstop
    have hu : Definition.PassesOver [] {} { rest := declared parameter } u :=
      .clause (by decide) (eq_ok_of_success? hx)
    cases hok : (Definition.schema [] {}).run (declared parameter) with
    | error f =>
      rw [hok] at hrun
      cases hrun
    | ok result =>
      obtain ⟨r, ws⟩ := result
      obtain rfl : ws = [] := by
        rw [hok] at hrun
        exact Except.ok.inj hrun
      obtain ⟨front, g, rest, hts, hu', hrefilled⟩ := hschema _ _ _ _ _ _ hok hu
      have hcut : group.tokens ++ [")", ";"].map word = g.tokens ++ rest := hrest.symm.trans hu'
      obtain rfl : group = g := Group.eq_of_append hcut
      obtain rfl : [")", ";"].map word = rest := List.append_cancel_left hcut
      have hfront : ["CREATE", "TABLE", "t", "(", "a", "CHECK"].map word ++
          (group.tokens ++ [")", ";"].map word) =
          front ++ (group.tokens ++ [")", ";"].map word) := by
        rw [← List.append_assoc front, ← hts]
        rfl
      obtain rfl := List.append_cancel_right hfront
      obtain ⟨r', ws', hok', hr, -⟩ := hrefilled other [] (declared other) hother (hsame _)
      exact ⟨r, u, rfl, hu, r', ws', hok', hr⟩
  · have hrun : ((Query.select ⟨[table]⟩).run (selected parameter)).map (·.2) = .ok [] := by
      decide +kernel
    let context : Context := ⟨⟨[table]⟩, .sources [⟨"t", table⟩]⟩
    let stop : ParseState := { rest := ["EXISTS", "(", "?", ")", ";"].map word }
    have hstop : (success? (Query.upToCondition ⟨[table]⟩ { rest := selected parameter })).map
        (fun x => (x.1.sources, x.2)) = some ([⟨"t", table⟩], stop) := by
      decide +kernel
    have hend : (success? (Expr.parse context .all stop)).map (·.2.rest) =
        some [word ";"] := by
      decide +kernel
    obtain ⟨⟨x, u⟩, hx, hstop⟩ := Option.map_eq_some_iff.1 hstop
    obtain ⟨hsources, rfl⟩ := Prod.mk.inj hstop
    have hu : Query.HasExpression ⟨[table]⟩ { rest := selected parameter } context stop := by
      have hcondition := Query.HasExpression.condition (eq_ok_of_success? hx)
      rwa [Query.Opened.context, hsources] at hcondition
    cases hok : (Query.select ⟨[table]⟩).run (selected parameter) with
    | error f =>
      rw [hok] at hrun
      cases hrun
    | ok result =>
      obtain ⟨q, ws⟩ := result
      obtain rfl : ws = [] := by
        rw [hok] at hrun
        exact Except.ok.inj hrun
      obtain ⟨e, v, front, read, he, hts, hu', hpath, hunique, hrefilled⟩ :=
        hselect _ _ _ _ _ _ hok hu
      rw [he] at hend
      obtain hend : v.rest = [word ";"] := Option.some.inj hend
      rw [hend] at hts hu'
      have hexists : (word "EXISTS").isKeyword .EXISTS = true := by decide +kernel
      let stretch : Stretch := .existence (word "EXISTS") group hexists
      have hcut : [stretch].flatMap Stretch.tokens ++ [word ";"] =
          read.flatMap Stretch.tokens ++ [word ";"] := hu'
      have htokens := List.append_cancel_right hcut
      have hregular : ∀ w ∈ read.flatMap Stretch.tokens, w.IsRegular := by
        rw [← htokens]
        intro w hw binary unary hkind
        obtain ⟨value, -, rfl⟩ :=
          List.mem_map.1 (show w ∈ ["EXISTS", "(", "?", ")"].map word from hw)
        cases hkind
      obtain rfl : [stretch] = read := hunique hregular _ _
        (.cons (.existence (word "EXISTS") group hexists rfl) (.nil _)) htokens
      have hfront : ["SELECT", "a", "FROM", "t", "WHERE"].map word ++ stop.rest =
          front ++ stop.rest := by
        rw [hu', ← List.append_assoc front, ← hts]
        rfl
      obtain rfl := List.append_cancel_right hfront
      obtain ⟨q', ws', hok', hq, -⟩ := hrefilled [] stretch [] _ (selected other) rfl
        (.existence hother) (by
          rw [hend]
          exact hsame _)
      exact ⟨q, stop, rfl, hu, q', ws', hok', hq⟩

end SqliteSchema
