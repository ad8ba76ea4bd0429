import SqliteSchema.Proofs.Schema.Effect
import SqliteSchema.Proofs.Schema.Local

/-!
Constraints of a column, read apart from what they do. What a constraint says hangs on its tokens
and on the outline of the table, which no constraint changes; it is read first, and the table takes
it or not. Only a foreign key on the table itself asks what was said before it.
-/
namespace SqliteSchema

namespace Expr

/-- An expression asks its context which tables there are and whether a reference is good. -/
theorem parse_congr {context context' : Context}
    (hknown : ∀ name, (context.registry.find? name).isSome = (context'.registry.find? name).isSome)
    (hcheck : ∀ r, context.scope.check context.registry r =
      context'.scope.check context'.registry r) : parse context = parse context' := by
  have hlayer (op : Operand) (chain : Chain) :
      layer context op chain = layer context' op chain := by
    unfold layer primary simpleOperand columnOperand trailingClauses trailingClause inTarget
    simp only [hknown, hcheck]
  have hwithin (depth : Nat) : within context depth = within context' depth := by
    induction depth with
    | zero => rfl
    | succ depth ih =>
      funext chain
      rw [within, within, ih, hlayer]
  funext chain s
  rw [parse, parse, hwithin]

end Expr

/-! ### What is read of the table -/

theorem Registry.find?_add (r : Registry) (t : Table) (name : String) :
    (r.add t).find? name = (r.find? name).or (if t.isNamed name then some t else none) := by
  unfold Registry.find? Registry.add
  rw [List.find?_append, List.find?_singleton]

namespace Table

theorem hasColumn_outline (t : Table) (name : String) :
    t.outline.hasColumn name = t.hasColumn name := by
  have hcolumn : (t.outline.column? name).isSome = (t.column? name).isSome := by
    unfold column? outline
    rw [List.find?_map, Option.isSome_map]
    rfl
  unfold hasColumn
  rw [hcolumn]
  rfl

theorem requireColumn_outline (t : Table) (r : ColumnReference) :
    Scope.requireColumn t.outline r = Scope.requireColumn t r := by
  unfold Scope.requireColumn
  rw [hasColumn_outline]
  rfl

theorem parse_outline (earlier : Registry) (t : Table) :
    Expr.parse ⟨earlier.add t.outline, .table t.outline⟩ =
      Expr.parse ⟨earlier.add t, .table t⟩ := by
  have hnamed (name : String) : t.outline.isNamed name = t.isNamed name := rfl
  refine Expr.parse_congr (fun name => ?_) fun r => ?_
  · rw [Registry.find?_add, Registry.find?_add, hnamed]
    cases earlier.find? name with
    | some other => rfl
    | none => cases t.isNamed name <;> rfl
  · unfold Scope.check
    cases r.table with
    | none => exact requireColumn_outline t r
    | some qualifier =>
      dsimp only
      rw [Registry.find?_add, Registry.find?_add, hnamed]
      cases earlier.find? qualifier.unquoted with
      | some other => rfl
      | none =>
        cases t.isNamed qualifier.unquoted with
        | false => rfl
        | true => exact requireColumn_outline t r

end Table

namespace Definition

open SqliteSchema.Parser

variable {earlier : Registry} {index : Nat} {token : Token} {t t' : Table}
  {s u : ParseState}

theorem defaultValue_outline (earlier : Registry) (t : Table) :
    defaultValue earlier t.outline = defaultValue earlier t := by
  unfold defaultValue defaultExpression
  rw [Table.parse_outline]

/-! ### What a constraint says -/

/-- `[AUTOINCREMENT]`, which an `INTEGER` may have. -/
def increments (outline : Table) (index : Nat) : Parser Bool := do
  match ← accept (·.isKeyword .AUTOINCREMENT) with
  | none => return false
  | some token =>
    match (outline.columns[index]?).filter fun c => !sameName c.sqlType "INTEGER" with
    | some column => fail (.atToken (.autoIncrement column.sqlName column.sqlType) token)
    | none => return true

/-- What the constraint says that `token` opens. -/
def effect (earlier : Registry) (t : Table) (index : Nat) (token : Token) : Parser Effect := do
  match token.keyword with
  | some .NOT =>
    let _ ← expectKeyword .NULL
    conflictClause
    return .notNull
  | some .NULL =>
    conflictClause
    return .nothing
  | some .PRIMARY =>
    let _ ← expectKeyword .KEY
    let _ ← eatAnyKeyword [.ASC, .DESC]
    conflictClause
    return .primaryKey (← increments t.outline index)
  | some .UNIQUE =>
    conflictClause
    return .unique
  | some .CHECK =>
    let _ ← skipBalanced
    return .nothing
  | some .DEFAULT =>
    defaultValue earlier t.outline
    return .nothing
  | some .COLLATE =>
    return .collate (← collation ((t.outline.columns[index]?).map (·.affinity)))
  | some .REFERENCES => return .reference (← foreignKey (earlier.add t) [index])
  | some .GENERATED =>
    let _ ← expectKeyword .ALWAYS
    let _ ← expectKeyword .AS
    generatedColumn
    return .nothing
  | some .AS =>
    generatedColumn
    return .nothing
  | _ => fail (.atToken (.notAConstraint token.value (columnName t.outline index)) token)

/-- From `s` on, `q` does to the table what `p` reads. -/
def Does (index : Nat) (t : Table) (s : ParseState) (q : Parser Table) (p : Parser Effect) : Prop :=
  ∀ t' u, q s = .ok t' u ↔ ∃ e, p s = .ok e u ∧ e.apply index t = .ok t'

namespace Does

variable {α : Type} {r : Parser α} {f : α → Parser Table} {g : α → Parser Effect}

theorem bind (h : ∀ a v, r s = .ok a v → Does index t v (f a) (g a)) :
    Does index t s (r >>= f) (r >>= g) := by
  intro t' u
  rw [bind_apply, bind_apply]
  cases hr : r s with
  | error e v => simp
  | ok a v => exact h a v hr t' u

theorem pure {e : Effect} (h : e.apply index t = .ok t') : Does index t s (pure t') (pure e) := by
  intro t'' u
  constructor
  · intro hrun
    cases hrun
    exact ⟨e, rfl, h⟩
  · rintro ⟨e', he, happly⟩
    cases he
    rw [h] at happly
    cases happly
    rfl

theorem fail {e e' : ParseError} : Does index t s (Parser.fail e) (Parser.fail e') := by
  intro t' u
  simp [Parser.fail]

/-- The table takes a key or refuses it. -/
theorem acceptKey {e : Effect} (indices : List Nat) (token : Token) :
    Does index t s (acceptKey t indices token (e.apply index t)) (Pure.pure e) := by
  cases happly : e.apply index t with
  | ok t' => exact pure happly
  | error conflict =>
    intro t' u
    constructor
    · exact nofun
    · rintro ⟨e', he, happly'⟩
      cases he
      rw [happly] at happly'
      cases happly'

end Does

/-- The type of the column is seen in the outline. -/
theorem does_autoIncrement {keyed : Table} (hkey : t.setPrimaryKey [index] = .ok keyed) :
    Does index t s (autoIncrement keyed index)
      (do return .primaryKey (← increments t.outline index)) := by
  have hcolumn : (keyed.columns[index]?).map Column.outline = t.outline.columns[index]? := by
    obtain ⟨-, -, rfl⟩ := Table.setPrimaryKey_single_iff.1 hkey
    rw [← List.getElem?_map]
    exact congrArg (·[index]?) (Table.map_modify_of_eq fun _ => rfl)
  have hkeyed (increment : Bool) : (Effect.primaryKey increment).apply index t = .ok
      (if increment then keyed.updateColumn index ({ · with autoIncrement := true }) else keyed) :=
    Effect.apply_primaryKey.2 ⟨keyed, hkey, rfl⟩
  unfold autoIncrement increments
  rw [bind_assoc]
  refine .bind fun word v _ => ?_
  cases word with
  | none => exact .pure (hkeyed false)
  | some word =>
    rw [← hcolumn]
    dsimp only
    cases keyed.columns[index]? with
    | none => exact .pure (hkeyed true)
    | some c =>
      have hinteger : sameName c.outline.sqlType "INTEGER" = sameName c.sqlType "INTEGER" := rfl
      simp only [Option.map_some, Option.filter_some, hinteger]
      cases sameName c.sqlType "INTEGER" with
      | true => exact .pure (hkeyed true)
      | false => exact .fail

theorem does_columnPrimaryKey (earlier : Registry) (index : Nat) (t : Table) (token : Token)
    (hk : token.keyword = some .PRIMARY) :
    Does index t s (columnPrimaryKey t index token) (effect earlier t index token) := by
  rw [effect, hk]
  refine .bind fun _ _ _ => .bind fun _ _ _ => .bind fun _ v _ => fun t' u => ?_
  cases hkey : t.setPrimaryKey [index] with
  | error conflict =>
    constructor
    · intro hrun
      obtain ⟨keyed, w, hprimary, -⟩ := bind_eq_ok hrun
      rw [primaryKey, hkey] at hprimary
      cases hprimary
    · rintro ⟨e, he, happly⟩
      obtain ⟨increment, w, -, he⟩ := bind_eq_ok he
      cases he
      obtain ⟨keyed, hkeyed, -⟩ := Effect.apply_primaryKey.1 happly
      cases hkey.symm.trans hkeyed
  | ok keyed =>
    have hprimary : primaryKey t [index] token v = .ok keyed v := by
      rw [primaryKey, hkey]
      rfl
    rw [bind_apply, hprimary]
    exact does_autoIncrement hkey t' u

theorem does_references (columns : List Nat) :
    Does index t s (references earlier t columns)
      (do return .reference (← foreignKey (earlier.add t) columns)) := by
  rw [references_eq]
  exact .bind fun _ _ _ => .pure rfl

/-- A constraint does what it says. -/
theorem does_columnConstraint (earlier : Registry) (index : Nat) (t : Table) (token : Token)
    (s : ParseState) : Does index t s (columnConstraint earlier t index token)
      (effect earlier t index token) := by
  fun_cases columnConstraint earlier t index token
  case case1 hk =>
    rw [effect, hk]
    exact .bind fun _ _ _ => .bind fun _ _ _ => .pure rfl
  case case2 hk =>
    rw [effect, hk]
    exact .bind fun _ _ _ => .pure rfl
  case case3 hk =>
    exact does_columnPrimaryKey _ _ _ _ hk
  case case4 hk =>
    rw [effect, hk]
    exact .bind fun _ _ _ => .acceptKey (e := .unique) [index] token
  case case5 hk =>
    rw [effect, hk]
    exact .bind fun _ _ _ => .pure rfl
  case case6 hk =>
    rw [effect, hk, defaultValue_outline]
    exact .bind fun _ _ _ => .pure rfl
  case case7 hk =>
    have haffinity : (t.outline.columns[index]?).map (·.affinity) =
        (t.columns[index]?).map (·.affinity) := by
      rw [Table.outline, List.getElem?_map, Option.map_map]
      rfl
    rw [effect, hk, haffinity]
    exact .bind fun _ _ _ => .pure rfl
  case case8 hk =>
    rw [effect, hk]
    exact does_references [index]
  case case9 hk =>
    rw [effect, hk]
    exact .bind fun _ _ _ => .bind fun _ _ _ => .bind fun _ _ _ => .pure rfl
  case case10 hk =>
    rw [effect, hk]
    exact .bind fun _ _ _ => .pure rfl
  case case11 =>
    simp only [effect, *]
    exact .fail

theorem foreignKey_congr (hnamed : ∀ name, t.isNamed name = t'.isNamed name) (columns : List Nat)
    (hother : s.rest.head?.any (t.isNamed ·.unquoted) = false) :
    foreignKey (earlier.add t) columns s = foreignKey (earlier.add t') columns s := by
  unfold foreignKey
  rw [bind_apply, bind_apply]
  cases hname : expectIdentifier "a table name" s with
  | error e v => rfl
  | ok name v =>
    obtain ⟨hrest, -, -⟩ := require_eq_ok hname
    have hother : t.isNamed name.unquoted = false := by rwa [hrest] at hother
    dsimp only
    rw [Registry.find?_add, Registry.find?_add, ← hnamed, hother]
    rfl

/-- What a constraint says does not hang on those before it, unless it refers to its own table. -/
theorem effect_congr (h : t.outline = t'.outline)
    (hother : token.isKeyword .REFERENCES = true →
      s.rest.head?.any (t.isNamed ·.unquoted) = false) :
    effect earlier t index token s = effect earlier t' index token s := by
  have hnamed (name : String) : t.isNamed name = t'.isNamed name :=
    congrArg (·.isNamed name) h
  fun_cases effect earlier t index token
  case case8 hk =>
    rw [effect, hk]
    dsimp only
    rw [bind_apply, bind_apply,
      foreignKey_congr hnamed [index] (hother (Token.isKeyword_iff_keyword.2 hk))]
  case case11 => simp only [effect, *]
  all_goals next hk => rw [effect, hk, ← h]

theorem isCollation_of_effect (earlier : Registry) (t : Table) (index : Nat) (token : Token) :
    Ensures (effect earlier t index token) fun e => e.isCollation = token.isKeyword .COLLATE := by
  have hcollate : token.isKeyword .COLLATE = decide (token.keyword = some .COLLATE) := by
    rw [Bool.eq_iff_iff, Token.isKeyword_iff_keyword, decide_eq_true_iff]
  rw [hcollate]
  fun_cases effect earlier t index token
  case case11 => exact .fail
  case case3 hk =>
    rw [hk]
    exact .after fun _ => .after fun _ => .after fun _ => .after fun _ => .pure rfl
  case case1 hk =>
    rw [hk]
    exact .after fun _ => .after fun _ => .pure rfl
  case case9 hk =>
    rw [hk]
    exact .after fun _ => .after fun _ => .after fun _ => .pure rfl
  all_goals
    next hk =>
      rw [hk]
      exact .after fun _ => .pure rfl

theorem points_effect {ts : List Token} (ht : token ∈ ts) (earlier : Registry) (t : Table)
    (index : Nat) : PointsInto ts (effect earlier t index token) := by
  have hincrements : PointsInto ts (increments t.outline index) := by
    refine Points.accept.bind fun word hword => ?_
    cases word with
    | none => exact .pure trivial
    | some word =>
      dsimp only
      split
      · exact .failAt (hword word rfl).1 nofun
      · exact .pure trivial
  unfold effect
  split
  · exact Points.expectKeyword.seq fun _ => points_conflictClause.seq fun _ => .pure trivial
  · exact points_conflictClause.seq fun _ => .pure trivial
  · exact Points.expectKeyword.seq fun _ => Points.eatAnyKeyword.seq fun _ =>
      points_conflictClause.seq fun _ => hincrements.seq fun _ => .pure trivial
  · exact points_conflictClause.seq fun _ => .pure trivial
  · exact Points.skipBalanced.seq fun _ => .pure trivial
  · exact (points_defaultValue _ _).seq fun _ => .pure trivial
  · exact Points.collation.seq fun _ => .pure trivial
  · exact (points_foreignKey _ _).seq fun _ => .pure trivial
  · exact Points.expectKeyword.seq fun _ => Points.expectKeyword.seq fun _ =>
      points_generatedColumn.seq fun _ => .pure trivial
  · exact points_generatedColumn.seq fun _ => .pure trivial
  · exact .failAt ht nofun

/-! ### Constraints with their names -/

/-- What stands behind the name of a constraint. -/
def behindName (ts : List Token) : List Token :=
  if ts.head?.any (·.isKeyword .CONSTRAINT) then ts.drop 2 else ts

/-- The constraint names a collation. -/
def collates (c : List Token) : Bool := (behindName c).head?.any (·.isKeyword .COLLATE)

/-- The constraint is a foreign key on the table. -/
def refersTo (t : Table) (c : List Token) : Bool :=
  match behindName c with
  | word :: name :: _ => word.isKeyword .REFERENCES && t.isNamed name.unquoted
  | _ => false

/-- What the next constraint says. -/
def clauseEffect (earlier : Registry) (t : Table) (index : Nat) : Parser Effect := do
  constraintName
  let token ← advance "a column constraint"
  effect earlier t index token

theorem rest_of_constraintName (h : constraintName s = .ok () u) : u.rest = behindName s.rest := by
  obtain ⟨named, v, hnamed, hbehind⟩ := bind_eq_ok h
  unfold behindName
  cases named with
  | true =>
    obtain ⟨word, hrest, hword, -⟩ := eatKeyword_eq_true hnamed
    obtain ⟨name, w, hname, hend⟩ := bind_eq_ok hbehind
    obtain ⟨hrest', -, -⟩ := require_eq_ok hname
    cases hend
    rw [hrest, hrest', List.head?_cons, Option.any_some, if_pos hword]
    rfl
  | false =>
    have hmisses : s.rest.head?.any (·.isKeyword .CONSTRAINT) = false := misses_of_eatKeyword hnamed
    obtain rfl := eatKeyword_eq_false hnamed
    cases hbehind
    rw [hmisses]
    rfl

theorem does_clause (earlier : Registry) (index : Nat) (t : Table) (s : ParseState) :
    Does index t s (clause earlier index t) (clauseEffect earlier t index) :=
  .bind fun _ _ _ => .bind fun _ _ _ => does_columnConstraint _ _ _ _ _

theorem points_clauseEffect {ts : List Token} (earlier : Registry) (t : Table) (index : Nat) :
    PointsInto ts (clauseEffect earlier t index) :=
  points_constraintName.seq fun _ => Points.advance.bind fun _ htoken => points_effect htoken _ _ _

theorem clauseEffect_congr (h : t.outline = t'.outline) (hother : refersTo t s.rest = false) :
    clauseEffect earlier t index s = clauseEffect earlier t' index s := by
  unfold clauseEffect
  rw [bind_apply, bind_apply]
  cases hname : constraintName s with
  | error e v => rfl
  | ok _ v =>
    dsimp only
    rw [bind_apply, bind_apply]
    cases htoken : advance "a column constraint" v with
    | error e w => rfl
    | ok token w =>
      obtain ⟨hrest, -, -⟩ := require_eq_ok htoken
      refine effect_congr h fun hword => ?_
      rw [refersTo, ← rest_of_constraintName hname, hrest] at hother
      cases hw : w.rest with
      | nil => rfl
      | cons name rest =>
        rw [hw] at hother
        dsimp only at hother
        rwa [hword, Bool.true_and] at hother

theorem isCollation_of_clauseEffect {e : Effect} (h : clauseEffect earlier t index s = .ok e u) :
    e.isCollation = collates s.rest := by
  obtain ⟨_, v, hname, hbehind⟩ := bind_eq_ok h
  obtain ⟨token, w, htoken, heffect⟩ := bind_eq_ok hbehind
  obtain ⟨hrest, -, -⟩ := require_eq_ok htoken
  rw [collates, ← rest_of_constraintName hname, hrest]
  exact isCollation_of_effect _ _ _ _ _ _ _ heffect

/-- Wherever these tokens stand in a column of such a table, they say the same and report the
same. -/
structure Acts (earlier : Registry) (index : Nat) (outline : Table) (ps : Parameters)
    (c : List Token) (x : Effect × List Warning) : Prop where
  collates : x.1.isCollation = collates c
  run : ∀ {t t' : Table} {v : List Token}, t.outline = outline → Ends v →
    x.1.apply index t = .ok t' → ∀ ws,
      clause earlier index t ⟨c ++ v, ps, ws⟩ = .ok t' ⟨v, ps, ws ++ x.2⟩

/-- A constraint that was read once acts wherever it stands. -/
theorem exists_acts {c v : List Token} {ps ps' : Parameters} {ws ws' : List Warning}
    (h : clause earlier index t ⟨c ++ v, ps, ws⟩ = .ok t' ⟨v, ps', ws'⟩) (hv : Ends v)
    (hnone : ∀ t ∈ c, t.isParameter = false) (hother : refersTo t c = false) :
    ps' = ps ∧ ∃ x, Acts earlier index t.outline ps c x ∧ ws' = ws ++ x.2 ∧
      x.1.apply index t = .ok t' := by
  -- Read alone, so that neither the tokens behind nor the reports before can matter.
  have halone : clause earlier index t ⟨c, ps, ws⟩ = .ok t' ⟨[], ps', ws'⟩ := by
    simpa using (local_clause hv .nil earlier index t).moves c [] (fun _ => trivial) h
  obtain ⟨e, he, happly⟩ := (does_clause earlier index t _ t' _).1 halone
  have hpoints : PointsInto c (clauseEffect earlier t index) := points_clauseEffect _ _ _
  obtain rfl := hpoints.parameters_eq (List.Subset.refl c) hnone he
  obtain ⟨vs, hws, hreported⟩ := hpoints.reported (List.Subset.refl c) he
  refine ⟨rfl, (e, vs), ⟨isCollation_of_clauseEffect he, ?_⟩, hws, happly⟩
  intro other other' w houtline hw hsays before
  have hread : clauseEffect earlier other index ⟨c, ps', before⟩ =
      .ok e ⟨[], ps', before ++ vs⟩ := by
    rw [← clauseEffect_congr houtline.symm hother]
    exact hreported before
  exact (local_clause .nil hw earlier index other).append
    ((does_clause earlier index other _ _ _).2 ⟨e, hread, hsays⟩)

end Definition

end SqliteSchema
