import SqliteSchema.Proofs.Expr.Local
import SqliteSchema.Proofs.Schema.Site

/-!
What stands behind a constraint of a column. Constraints end in front of the words that others
start with, so that each of them is read up to the same place whatever follows it. A `NOT` behind a
foreign key is the only word that may belong to either side: it takes a second one to tell.
-/
namespace SqliteSchema.Definition

open SqliteSchema.Parser

/-- Keywords that a constraint of a column may go on with, but for a `NOT`. -/
def continuing : List Keyword :=
  [.ON, .MATCH, .DEFERRABLE, .INITIALLY, .CONFLICT, .ASC, .DESC, .AUTOINCREMENT, .STORED, .VIRTUAL]

def continues (t : Token) : Bool := t.is "(" || continuing.any t.isKeyword

/-- Constraints of a column end in front of these tokens. -/
structure Ends (w : List Token) : Prop where
  misses : Misses continues w
  deferrable : startsDeferrable w = false

variable {v v' w : List Token} {B : Prop} {earlier : Registry} {table : Table} {index : Nat}

namespace Ends

theorem nil : Ends [] := ⟨misses_nil, rfl⟩

theorem paren (hw : Ends w) : Misses (·.is "(") w :=
  hw.misses.imp fun t ht => by rw [continues, ht, Bool.true_or]

theorem keyword (hw : Ends w) {k : Keyword}
    (hk : k ∈ continuing := by decide) : Misses (·.isKeyword k) w := by
  refine hw.misses.imp fun t ht => ?_
  rw [continues, List.any_eq_true.2 ⟨k, hk, ht⟩, Bool.or_true]

theorem keywords (hw : Ends w) {ks : List Keyword}
    (hks : ∀ k ∈ ks, k ∈ continuing := by decide) : Misses (ks.any ·.isKeyword) w := by
  refine hw.misses.imp fun t ht => ?_
  obtain ⟨k, hk, hkt⟩ := List.any_eq_true.1 ht
  rw [continues, List.any_eq_true.2 ⟨k, hks k hk, hkt⟩, Bool.or_true]

end Ends

/-! ### Keys -/

theorem local_conflictClause (hv : Ends v) (hv' : Ends v') : Local v v' B conflictClause := by
  refine (Local.look fun us _ => ?_).bind fun _ => .ite
    (LocalReading.advance.toLocal.bind fun _ => LocalReading.advance.toLocal.bind fun _ =>
      LocalReading.expectAnyKeyword.toLocal.bind fun _ => .pure _) (.pure _)
  have hfirst {w : List Token} (hw : Ends w) : w[0]?.any (·.isKeyword .ON) = false := by
    rw [← List.head?_eq_getElem?]
    exact hw.keyword
  have hsecond {w : List Token} (hw : Ends w) : w[0]?.any (·.isKeyword .CONFLICT) = false := by
    rw [← List.head?_eq_getElem?]
    exact hw.keyword
  rcases us with _ | ⟨t, _ | ⟨u, us⟩⟩
  · simp only [List.nil_append, hfirst hv, hfirst hv', Bool.false_and]
  · simp only [List.cons_append, List.nil_append, List.getElem?_cons_succ, hsecond hv, hsecond hv',
      Bool.and_false]
  · rfl

theorem local_indexOptions (column : Option Column) : Local v v' False (indexOptions column) :=
  have hcollation : Local v v' False (columnCollation column) :=
    (Local.eatKeyword nofun).bind fun _ => .ite
      ((LocalReading.collation _).toLocal.bind fun _ => .pure _) (.pure _)
  hcollation.bind fun _ => (Local.eatAnyKeyword nofun).bind fun _ => .pure _

theorem local_extendList (table : Table) (indexed : Bool) (listed : List Nat) :
    Local v v' False (extendList table indexed listed) := by
  have hlisted : LocalReading v v' False (listedColumn table listed) := by
    refine LocalReading.expectIdentifier.bind fun token => ?_
    split
    · exact .fail _
    · exact .ite (.fail _) (.pure _)
  exact hlisted.toLocal.bind fun _ => .ite ((local_indexOptions _).bind fun _ => .pure _) (.pure _)

theorem local_columnList (table : Table) (indexed : Bool) :
    LocalReading v v' B (columnList table indexed) :=
  LocalReading.expect.toLocal.before fun _ => (local_extendList table indexed []).before fun _ =>
    (Local.loop (fun _ => (Local.eat nofun).bind fun _ => .ite
      ((local_extendList _ _ _).bind fun _ => .pure _) (.pure _)) _).before fun _ =>
    LocalReading.expect.bind fun _ => .pure _

/-! ### Foreign keys -/

theorem local_referentialAction : LocalReading v v' B referentialAction := by
  refine LocalReading.expectAnyKeyword.bind fun k => ?_
  split
  · refine LocalReading.expectAnyKeyword.toLocal.bind fun k => ?_
    split <;> exact .pure _
  · exact .pure _
  · exact .pure _
  · exact LocalReading.expectKeyword.toLocal.bind fun _ => .pure _

theorem local_onClause (actions : ReferentialActions) : LocalReading v v' B (onClause actions) := by
  refine LocalReading.expectAnyKeyword.bind fun k => ?_
  split <;> exact local_referentialAction.toLocal.bind fun _ => .pure _

theorem local_matchClause (t : Token) : LocalReading v v' B (matchClause t) :=
  LocalReading.expectIdentifier.bind fun _ => .warn _ _ _

theorem local_deferrableClause (hv : Ends v) (hv' : Ends v') :
    LocalReading v v' B deferrableClause :=
  (Local.eatKeyword nofun).before fun _ => LocalReading.advance.bind fun _ =>
    (Local.eatKeyword fun _ => ⟨hv.keyword, hv'.keyword⟩).bind fun _ => .ite
      (LocalReading.expectAnyKeyword.toLocal.bind fun _ => .pure _) (.pure _)

theorem local_startsDeferrable (hv : Ends v) (hv' : Ends v') :
    Local v v' B (look startsDeferrable) := by
  refine .look fun us _ => ?_
  have hfirst {w : List Token} (hw : Ends w) : w[0]?.any (·.isKeyword .DEFERRABLE) = false := by
    rw [← List.head?_eq_getElem?]
    exact hw.keyword
  rcases us with _ | ⟨t, _ | ⟨u, us⟩⟩
  · exact hv.deferrable.trans hv'.deferrable.symm
  · simp only [startsDeferrable, List.cons_append, List.nil_append, List.getElem?_cons_succ,
      List.getElem?_cons_zero, hfirst hv, hfirst hv']
  · rfl

theorem local_referenceClause (hv : Ends v) (hv' : Ends v') (actions : ReferentialActions) :
    Local v v' B (referenceClause actions) := by
  refine (Local.eatKeyword fun _ => ⟨hv.keyword, hv'.keyword⟩).bind fun _ => .ite
    ((local_onClause _).toLocal.bind fun _ => .pure _)
    ((Local.accept fun _ => ⟨hv.keyword, hv'.keyword⟩).bind fun token => ?_)
  cases token with
  | some token => exact (local_matchClause token).toLocal.bind fun _ => .pure _
  | none =>
    exact (local_startsDeferrable hv hv').bind fun _ => .ite
      ((local_deferrableClause hv hv').toLocal.bind fun _ => .pure _) (.pure _)

theorem local_references (hv : Ends v) (hv' : Ends v') (earlier : Registry) (table : Table)
    (columns : List Nat) : LocalReading v v' B (references earlier table columns) := by
  have hlisted (foreign : Table) : Local v v' B (listedColumns foreign) :=
    (Local.looks fun _ => ⟨hv.paren, hv'.paren⟩).bind fun _ => .ite
      ((local_columnList _ _).toLocal.bind fun _ => .pure _) (.pure _)
  refine LocalReading.expectIdentifier.bind fun name => ?_
  split
  · exact .fail _
  · exact (hlisted _).bind fun _ => (Local.loop (local_referenceClause hv hv') _).bind fun _ =>
      (Local.ofExcept _).bind fun _ => .pure _

/-! ### Constraints of columns -/

theorem local_constraintName : Local v v' False constraintName :=
  (Local.eatKeyword nofun).bind fun _ => .ite
    (LocalReading.expectIdentifier.toLocal.bind fun _ => .pure _) (.pure _)

theorem local_generatedColumn (hv : Ends v) (hv' : Ends v') :
    LocalReading v v' B generatedColumn :=
  LocalReading.skipBalanced.bind fun _ =>
    (Local.eatAnyKeyword fun _ => ⟨hv.keywords, hv'.keywords⟩).bind fun _ => .pure _

/-- The closing parenthesis ends the expression, whatever stands behind it. -/
theorem local_defaultExpression (earlier : Registry) (table : Table) :
    LocalReading v v' B (defaultExpression earlier table) := by
  have hreads (n : Nat) : AgreeReading n (defaultExpression earlier table)
      (defaultExpression earlier table) :=
    (AgreeReading.expect _).bind fun _ => (Expr.operandsAgree_parse _ n .all).agree.bind fun _ =>
      (AgreeReading.expect _).agree.bind fun _ => .pure _
  refine ⟨⟨fun n => (hreads n).agree, fun {ps ps' ws ws' _} us us' _ h => ?_⟩, hreads⟩
  obtain ⟨opening, ⟨rest, qs, xs⟩, hopening, h⟩ := bind_eq_ok h
  obtain ⟨e, ⟨left, rs, ys⟩, hparse, h⟩ := bind_eq_ok h
  obtain ⟨closing, ⟨_, _, _⟩, hclosing, hend⟩ := bind_eq_ok h
  obtain ⟨hleft, hclose, hstate⟩ := require_eq_ok hclosing
  cases hend
  cases hstate
  obtain ⟨hrest, hopen, hstate⟩ := require_eq_ok hopening
  cases hstate
  dsimp only at hrest hleft
  subst hleft
  have hhalts := Expr.halts_of_parse hparse
  have hbinary : closing.isBinary = false := (Bool.and_true _).symm.trans hhalts
  have hends (w : List Token) : Expr.Ends (closing :: w) :=
    (Expr.closes_of_close hclose hbinary).ends
  have hsuffix := Agree.suffix (fun n => (Expr.operandsAgree_parse _ n .all).agree) hparse
  have hfront : closing :: us' ++ v <:+ rest := hsuffix
  obtain ⟨xs, rfl, -⟩ := exists_front hfront (hrest ▸ List.suffix_cons opening rest)
  obtain rfl : us = opening :: xs := List.append_cancel_right hrest
  obtain ⟨mid, hmid⟩ := hsuffix
  obtain rfl : mid ++ closing :: us' = xs := List.append_cancel_right (by simpa using hmid)
  have hmoved := (Expr.local_parse (hends (us' ++ v)) (hends (us' ++ v')) _ .all).moves mid []
    (fun _ => ⟨hhalts, hhalts⟩) (by simpa using hparse)
  have hopening' : expect "(" ⟨opening :: (mid ++ closing :: us' ++ v'), ps, ws⟩ =
      .ok opening ⟨mid ++ closing :: us' ++ v', ps, ws⟩ := if_pos hopen
  have hclosing' : expect ")" ⟨closing :: (us' ++ v'), rs, ys⟩ =
      .ok closing ⟨us' ++ v', rs, ys⟩ := if_pos hclose
  rw [List.cons_append, defaultExpression, bind_apply, hopening']
  dsimp only
  rw [List.append_assoc, List.cons_append, bind_apply, hmoved]
  dsimp only [List.nil_append]
  rw [bind_apply, hclosing']
  rfl

theorem local_defaultValue (earlier : Registry) (table : Table) :
    LocalReading v v' B (defaultValue earlier table) := by
  unfold defaultValue signedNumber literalValue
  rw [bind_assoc]
  refine .acceptOr (fun sign => ?_) ?_
  · simp only [bind_assoc, pure_bind]
    exact LocalReading.require.toLocal.bind fun _ => .pure _
  · simp only [bind_assoc, pure_bind]
    refine .acceptOr (fun number => .pure _) (.acceptOr (fun literal => .pure _) ?_)
    exact Local.current.before fun _ => .ite (local_defaultExpression _ _) (.fail _)

theorem local_autoIncrement (hv : Ends v) (hv' : Ends v') (table : Table) (index : Nat) :
    Local v v' B (autoIncrement table index) := by
  refine (Local.accept fun _ => ⟨hv.keyword, hv'.keyword⟩).bind fun token => ?_
  cases token with
  | none => exact .pure _
  | some token =>
    dsimp only
    split
    · exact .fail _
    · exact .pure _

theorem local_columnPrimaryKey (hv : Ends v) (hv' : Ends v') (table : Table) (index : Nat)
    (t : Token) : LocalReading v v' B (columnPrimaryKey table index t) :=
  LocalReading.expectKeyword.bind fun _ =>
    (Local.eatAnyKeyword fun _ => ⟨hv.keywords, hv'.keywords⟩).bind fun _ =>
    (local_conflictClause hv hv').bind fun _ => (Local.ofExcept _).bind fun _ =>
    local_autoIncrement hv hv' _ _

theorem local_columnConstraint (hv : Ends v) (hv' : Ends v') (earlier : Registry) (table : Table)
    (index : Nat) (t : Token) : Local v v' B (columnConstraint earlier table index t) := by
  unfold columnConstraint
  split
  · exact LocalReading.expectKeyword.toLocal.bind fun _ =>
      (local_conflictClause hv hv').bind fun _ => .pure _
  · exact (local_conflictClause hv hv').bind fun _ => .pure _
  · exact (local_columnPrimaryKey hv hv' _ _ _).toLocal
  · exact (local_conflictClause hv hv').bind fun _ => .ofExcept _
  · exact LocalReading.skipBalanced.toLocal.bind fun _ => .pure _
  · exact (local_defaultValue _ _).toLocal.bind fun _ => .pure _
  · exact (LocalReading.collation _).toLocal.bind fun _ => .pure _
  · exact (local_references hv hv' _ _ _).toLocal
  · exact LocalReading.expectKeyword.toLocal.bind fun _ =>
      LocalReading.expectKeyword.toLocal.bind fun _ =>
      (local_generatedColumn hv hv').toLocal.bind fun _ => .pure _
  · exact (local_generatedColumn hv hv').toLocal.bind fun _ => .pure _
  · exact .fail _

/-- One constraint with its name. -/
def clause (earlier : Registry) (index : Nat) (table : Table) : Parser Table := do
  constraintName
  let token ← advance "a column constraint"
  columnConstraint earlier table index token

theorem local_clause (hv : Ends v) (hv' : Ends v') (earlier : Registry) (index : Nat)
    (table : Table) : LocalReading v v' B (clause earlier index table) :=
  local_constraintName.before fun _ => LocalReading.advance.bind fun _ =>
    local_columnConstraint hv hv' _ _ _ _

/-- The constraints of a column may start here. -/
structure EndsType (w : List Token) : Prop where
  word : Misses isTypeWord w
  paren : Misses (·.is "(") w

theorem local_columnOpening (hv : EndsType v) (hv' : EndsType v') (body : Body) :
    LocalReading v v' B (columnOpening body) :=
  Local.current.before fun _ => .ite (.fail _) (.ite (.fail _)
    (LocalReading.expectIdentifier.bind fun _ => (Local.ofExcept _).bind fun _ =>
      (Local.typeName (fun _ => ⟨hv.word, hv'.word⟩) fun _ => ⟨hv.paren, hv'.paren⟩).bind fun _ =>
      .pure _))

/-! ### What constraints start with -/

/-- A constraint starts here. -/
inductive Opens : List Token → Prop
  | intro {k : Keyword} {t : Token} {ts : List Token} (hk : k ∈ constraintStarts)
      (ht : t.isKeyword k = true) (hnot : k = .NOT → ts.head?.any (·.isKeyword .NULL) = true) :
    Opens (t :: ts)

theorem opens_of_constraint {s t : ParseState} {table' : Table} {token : Token}
    (h : columnConstraint earlier table index token s = .ok table' t) :
    Opens (token :: s.rest) := by
  fun_cases columnConstraint earlier table index token
  case case1 hk =>
    rw [columnConstraint, hk] at h
    obtain ⟨null, u, hnull, -⟩ := bind_eq_ok h
    obtain ⟨hrest, hnull, -⟩ := require_eq_ok hnull
    refine .intro (by decide) (Token.isKeyword_iff_keyword.2 hk) fun _ => ?_
    rw [hrest]
    exact hnull
  case case11 => simp_all [columnConstraint, fail]
  all_goals
    next hk =>
      exact .intro (by decide) (Token.isKeyword_iff_keyword.2 hk) fun hnot =>
        absurd hnot (by decide)

theorem opens_of_clause {s t : ParseState} {table' : Table}
    (h : clause earlier index table s = .ok table' t) : Opens s.rest := by
  obtain ⟨_, u, hname, hbehind⟩ := bind_eq_ok h
  obtain ⟨labelled, v, hlabel, hbranch⟩ := bind_eq_ok hname
  cases labelled with
  | true =>
    obtain ⟨t, hrest, ht, -⟩ := eatKeyword_eq_true hlabel
    rw [hrest]
    exact .intro (by decide) ht nofun
  | false =>
    obtain rfl := eatKeyword_eq_false hlabel
    cases hbranch
    obtain ⟨token, x, htoken, hconstraint⟩ := bind_eq_ok hbehind
    obtain ⟨hrest, -, -⟩ := require_eq_ok htoken
    rw [hrest]
    exact opens_of_constraint hconstraint

namespace Opens

theorem ends (h : Opens w) : Ends w := by
  cases h with
  | @intro k t ts hk ht hnot =>
    have hall : ∀ k ∈ constraintStarts, "(".toLower ≠ k.text ∧ ∀ k' ∈ continuing, k ≠ k' := by
      decide +kernel
    obtain ⟨hparen, hne⟩ := hall k hk
    have hother {k' : Keyword} (hk' : k' ∈ continuing) : t.isKeyword k' = false :=
      Token.isKeyword_of_isKeyword ht (hne k' hk')
    constructor
    · have hnone : continuing.any t.isKeyword = false :=
        List.any_eq_false.2 fun k' hk' => Bool.eq_false_iff.1 (hother hk')
      change continues t = false
      rw [continues, Token.is_of_isKeyword ht hparen, hnone, Bool.or_false]
    · have hfirst : t.isKeyword .DEFERRABLE = false := hother (by decide)
      have hboth : (t.isKeyword .NOT && ts[0]?.any (·.isKeyword .DEFERRABLE)) = false := by
        by_cases hk : k = .NOT
        · have hnull := hnot hk
          cases ts with
          | nil => cases hnull
          | cons u ts =>
            have hdeferrable : u.isKeyword .DEFERRABLE = false := Token.isKeyword_of_isKeyword hnull
            exact (Bool.and_eq_false_iff).2 (.inr hdeferrable)
        · rw [Token.isKeyword_of_isKeyword ht hk, Bool.false_and]
      change (t.isKeyword .DEFERRABLE || (t.isKeyword .NOT && ts[0]?.any (·.isKeyword .DEFERRABLE)))
        = false
      rw [hfirst, hboth, Bool.or_false]

theorem endsType (h : Opens w) : EndsType w := by
  cases h with
  | @intro k t ts hk ht hnot =>
    have hparen : ∀ k ∈ constraintStarts, "(".toLower ≠ k.text := by decide +kernel
    constructor
    · change isTypeWord t = false
      rw [isTypeWord, List.any_eq_true.2 ⟨k, hk, ht⟩, Bool.not_true, Bool.and_false]
    · exact Token.is_of_isKeyword ht (hparen k hk)

theorem goesOn (h : Opens w) : w.head?.any (fun t => !t.is "," && !t.is ")") = true := by
  cases h with
  | @intro k t ts hk ht hnot =>
    have hall : ∀ k ∈ constraintStarts, ",".toLower ≠ k.text ∧ ")".toLower ≠ k.text := by
      decide +kernel
    obtain ⟨hcomma, hclose⟩ := hall k hk
    rw [List.head?_cons, Option.any_some, Token.is_of_isKeyword ht hcomma,
      Token.is_of_isKeyword ht hclose]
    rfl

end Opens

end SqliteSchema.Definition
