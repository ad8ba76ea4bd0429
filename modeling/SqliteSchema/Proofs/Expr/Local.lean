import SqliteSchema.Proofs.Expr.Progress
import SqliteSchema.Proofs.Lexeme.Spelling
import SqliteSchema.Proofs.Parser.Local

/-!
What stands behind an expression. A run that reads an expression up to some place comes to the same
whatever stands there, as long as it is nothing that the expression could go on with. What the
parts of an expression read in the middle of it is bounded by tokens of their own.
-/
namespace SqliteSchema.Expr

open SqliteSchema.Parser

/-- Keywords that an operand may go on with, or a parenthesis or a `NOT` right in front of them. -/
def continuing : List Keyword :=
  [.COLLATE, .NOT, .LIKE, .GLOB, .REGEXP, .MATCH, .ISNULL, .NOTNULL, .IS, .BETWEEN, .IN, .NULL,
   .ESCAPE, .FILTER, .OVER, .SELECT, .WITH]

/-- Tokens that an operand may go on with. An operator `AND` is none, for not all operands take
it. -/
def continues (t : Token) : Bool :=
  t.is "(" || t.is "." || (t.isBinary && !t.isKeyword .AND) || continuing.any t.isKeyword

/-- Operands end in front of these tokens. -/
abbrev Ends (w : List Token) : Prop := Misses continues w

/-- Operators within reach do not stand here. -/
abbrev Halts (chain : Chain) (w : List Token) : Prop :=
  Misses (fun t => t.isBinary && chain.admits t) w

/-- Tokens that a clause of a window may go on with. -/
def prolongs (t : Token) : Bool :=
  continues t || t.isBinary || t.is "," || [.ASC, .DESC, .NULLS, .EXCLUDE].any t.isKeyword

/-- Clauses of a window end in front of these tokens. -/
abbrev Closes (w : List Token) : Prop := Misses prolongs w

variable {v v' w : List Token} {context : Context} {op : Operand} {B : Prop}

namespace Ends

theorem symbol (hw : Ends w) : Misses (·.is "(") w ∧ Misses (·.is ".") w := by
  constructor
  all_goals
    refine hw.imp fun t ht => ?_
    simp [continues, ht]

theorem misses (hw : Ends w) {k : Keyword} (hk : k ∈ continuing := by decide) :
    Misses (·.isKeyword k) w := by
  refine hw.imp fun t ht => ?_
  rw [continues, List.any_eq_true.2 ⟨k, hk, ht⟩, Bool.or_true]

theorem halts (hw : Ends w) {chain : Chain} (hchain : chain ≠ .all) : Halts chain w := by
  refine hw.imp fun t ht => ?_
  cases chain with
  | all => exact absurd rfl hchain
  | exceptAnd =>
    rw [continues, show (t.isBinary && !t.isKeyword .AND) = true from ht, Bool.or_true,
      Bool.true_or]
  | none => simp [Chain.admits] at ht

end Ends

namespace Closes

theorem ends (hw : Closes w) : Ends w := by
  refine hw.imp fun t ht => ?_
  rw [prolongs, ht, Bool.true_or, Bool.true_or, Bool.true_or]

theorem halts (hw : Closes w) (chain : Chain) : Halts chain w := by
  refine hw.imp fun t ht => ?_
  rw [prolongs, (Bool.and_eq_true_iff.1 ht).1, Bool.or_true, Bool.true_or, Bool.true_or]

theorem comma (hw : Closes w) : Misses (·.is ",") w := by
  refine hw.imp fun t ht => ?_
  rw [prolongs, ht, Bool.or_true, Bool.true_or]

theorem keywords (hw : Closes w) {ks : List Keyword}
    (hks : ∀ k ∈ ks, k ∈ [.ASC, .DESC, .NULLS, .EXCLUDE] := by decide) :
    Misses (ks.any ·.isKeyword) w := by
  refine hw.imp fun t ht => ?_
  obtain ⟨k, hk, hkt⟩ := List.any_eq_true.1 ht
  rw [prolongs, List.any_eq_true.2 ⟨k, hks k hk, hkt⟩, Bool.or_true]

theorem keyword (hw : Closes w) {k : Keyword}
    (hk : k ∈ [.ASC, .DESC, .NULLS, .EXCLUDE] := by decide) : Misses (·.isKeyword k) w := by
  refine hw.imp fun t ht => ?_
  rw [prolongs, List.any_eq_true.2 ⟨k, hk, ht⟩, Bool.or_true]

end Closes

/-- A closing parenthesis goes on with nothing. -/
theorem closes_of_close {t : Token} (ht : t.is ")" = true) (hbinary : t.isBinary = false) :
    Closes (t :: w) := by
  have hsymbol {s : String} (hs : s ≠ ")") : t.is s = false := Token.is_of_is ht hs.symm
  have hnone {ks : List Keyword} (hks : ∀ k ∈ ks, ")".toLower ≠ k.text) :
      ks.any t.isKeyword = false := by
    refine List.any_eq_false.2 fun k hk hword => ?_
    rw [Token.is_of_isKeyword hword (hks k hk)] at ht
    cases ht
  change prolongs t = false
  rw [prolongs, continues, hbinary, hsymbol (by decide), hsymbol (by decide), hsymbol (by decide),
    hnone (by decide +kernel), hnone (by decide +kernel)]
  rfl

/-- The operands come to the same in front of `v'` where they stop in front of `v`. -/
def OperandsLocal (v v' : List Token) (op : Operand) : Prop :=
  ∀ chain, LocalReading v v' (Halts chain v ∧ Halts chain v') (op chain)

namespace OperandsLocal

theorem agree (h : OperandsLocal v v' op) (n : Nat) : OperandsAgree n op op :=
  fun chain => (h chain).reads n

/-- An operand in the middle of something. -/
theorem inside (h : OperandsLocal v v' op) (chain : Chain) : LocalReading v v' False (op chain) :=
  (h chain).imp False.elim

/-- An operand that takes no operator `AND`. -/
theorem short (h : OperandsLocal v v' op) (hv : Ends v) (hv' : Ends v') (chain : Chain)
    (hchain : chain ≠ .all := by decide) : LocalReading v v' B (op chain) :=
  (h chain).imp fun _ => ⟨hv.halts hchain, hv'.halts hchain⟩

end OperandsLocal

/-! ### Closed parts -/

theorem local_list (h : OperandsLocal v v' op) (hB : B → Closes v ∧ Closes v') :
    LocalReading v v' B (list op) :=
  ((h .all).imp fun b => ⟨(hB b).1.halts .all, (hB b).2.halts .all⟩).separated
    fun b => ⟨(hB b).1.comma, (hB b).2.comma⟩

theorem local_arguments (h : OperandsLocal v v' op) : LocalReading v v' B (arguments op) :=
  LocalReading.expect.toLocal.before fun _ => (Local.looks nofun).before fun _ => .ite
    (LocalReading.expect.bind fun _ => .pure _)
    ((local_list h nofun).toLocal.before fun _ => LocalReading.expect.bind fun _ => .pure _)

theorem local_nullsOrder (hB : B → Closes v ∧ Closes v') : Local v v' B nullsOrder :=
  (Local.eatKeyword fun b => ⟨(hB b).1.keyword, (hB b).2.keyword⟩).bind fun _ => .ite
    (LocalReading.expectAnyKeyword.toLocal.bind fun _ => .pure _) (.pure _)

theorem local_orderingTerm (h : OperandsLocal v v' op) (hB : B → Closes v ∧ Closes v') :
    LocalReading v v' B (orderingTerm op) :=
  ((h .all).imp fun b => ⟨(hB b).1.halts .all, (hB b).2.halts .all⟩).bind fun _ =>
    (Local.eatAnyKeyword fun b => ⟨(hB b).1.keywords, (hB b).2.keywords⟩).bind fun _ =>
    local_nullsOrder hB

theorem local_orderingTerms (h : OperandsLocal v v' op) (hB : B → Closes v ∧ Closes v') :
    LocalReading v v' B (orderingTerms op) :=
  ((local_orderingTerm h hB).separated fun b => ⟨(hB b).1.comma, (hB b).2.comma⟩).bind
    fun _ => .pure _

theorem local_cast (h : OperandsLocal v v' op) : LocalReading v v' B (cast op) := by
  refine LocalReading.expectKeyword.toLocal.before fun _ =>
    LocalReading.expect.toLocal.before fun _ => (h.inside .all).toLocal.before fun _ =>
    LocalReading.expectKeyword.toLocal.before fun _ =>
    (Local.typeName nofun nofun).before fun type => ?_
  cases type with
  | some type => exact LocalReading.expect.bind fun _ => .pure _
  | none => exact Local.current.before fun _ => .fail _

theorem local_caseBase (h : OperandsLocal v v' op) : Local v v' False (caseBase op) :=
  (Local.looks nofun).bind fun _ => .ite (.pure _)
    ((h.inside .all).toLocal.bind fun _ => .pure _)

theorem local_caseArm (h : OperandsLocal v v' op) : Local v v' False (caseArm op) :=
  (h.inside .all).toLocal.bind fun _ => LocalReading.expectKeyword.toLocal.bind fun _ =>
    (h.inside .all).toLocal.bind fun _ => .pure _

theorem local_caseElse (h : OperandsLocal v v' op) : Local v v' False (caseElse op) :=
  (Local.eatKeyword nofun).bind fun _ => .ite
    ((h.inside .all).toLocal.bind fun _ => .pure _) (.pure _)

theorem local_caseExpression (h : OperandsLocal v v' op) :
    LocalReading v v' B (caseExpression op) :=
  LocalReading.expectKeyword.toLocal.before fun _ => (local_caseBase h).before fun _ =>
    LocalReading.expectKeyword.toLocal.before fun _ => (local_caseArm h).before fun _ =>
    (Local.loop (fun _ => (Local.eatKeyword nofun).bind fun _ => .ite
      ((local_caseArm h).bind fun _ => .pure _) (.pure _)) _).before fun _ =>
    (local_caseElse h).before fun _ => LocalReading.expectKeyword.bind fun _ => .pure _

theorem local_raiseAction : Local v v' False raiseAction :=
  (Local.eatKeyword nofun).bind fun _ => .ite (.pure _)
    (LocalReading.expectAnyKeyword.toLocal.bind fun _ => LocalReading.expect.toLocal.bind fun _ =>
      LocalReading.require.toLocal.bind fun _ => .pure _)

theorem local_raise : LocalReading v v' B raise :=
  LocalReading.expectKeyword.toLocal.before fun _ => LocalReading.expect.toLocal.before fun _ =>
    local_raiseAction.before fun _ => LocalReading.expect.bind fun _ => .pure _

/-! ### Windows -/

theorem local_frameBound (h : OperandsLocal v v' op) (directions : List Keyword) :
    LocalReading v v' B (frameBound op directions) :=
  (Local.eatKeyword nofun).before fun _ => .ite
    (LocalReading.expectKeyword.bind fun _ => .pure _)
    ((Local.eatKeyword nofun).before fun _ => .ite
      (LocalReading.expectAnyKeyword.bind fun _ => .pure _)
      ((h.inside .exceptAnd).toLocal.before fun _ =>
        LocalReading.expectAnyKeyword.bind fun _ => .pure _))

theorem local_frameExtent (h : OperandsLocal v v' op) : LocalReading v v' B (frameExtent op) :=
  (Local.eatKeyword nofun).before fun _ => .ite
    ((local_frameBound h _).toLocal.before fun _ =>
      LocalReading.expectKeyword.toLocal.before fun _ => local_frameBound h _)
    (local_frameBound h _)

theorem local_frameExclusion (hB : B → Closes v ∧ Closes v') :
    Local v v' B frameExclusion := by
  refine (Local.eatKeyword fun b => ⟨(hB b).1.keyword, (hB b).2.keyword⟩).bind fun _ => .ite
    (LocalReading.expectAnyKeyword.toLocal.bind fun _ => ?_) (.pure _)
  split
  · exact LocalReading.expectKeyword.toLocal.bind fun _ => .pure _
  · exact LocalReading.expectKeyword.toLocal.bind fun _ => .pure _
  · exact .pure _

theorem local_openClause (name : String) (seen : Bool) (token : Token) :
    LocalReading v v' B (openClause name seen token) :=
  .ite (.fail _) (LocalReading.advance.bind fun _ => .pure _)

theorem local_windowClause (h : OperandsLocal v v' op) (seen : WindowClauses) :
    Local v v' False (windowClause op seen) := by
  refine Local.current.bind fun token => ?_
  split
  · exact (local_openClause _ _ _).toLocal.bind fun _ => LocalReading.expectKeyword.toLocal.bind
      fun _ => (local_list h nofun).toLocal.bind fun _ => .pure _
  · exact (local_openClause _ _ _).toLocal.bind fun _ => LocalReading.expectKeyword.toLocal.bind
      fun _ => (local_orderingTerms h nofun).toLocal.bind fun _ => .pure _
  all_goals first
    | exact .pure _
    | exact (local_openClause _ _ _).toLocal.bind fun _ => (local_frameExtent h).toLocal.bind
        fun _ => (local_frameExclusion nofun).bind fun _ => .pure _

theorem local_windowDefinition (h : OperandsLocal v v' op) :
    LocalReading v v' B (windowDefinition op) :=
  LocalReading.expect.toLocal.before fun _ => (Local.accept nofun).before fun _ =>
    (Local.loop (local_windowClause h) _).before fun _ => LocalReading.expect.bind fun _ => .pure _

theorem local_overClause (h : OperandsLocal v v' op) : LocalReading v v' B (overClause op) :=
  (Local.looks nofun).before fun _ => .ite (local_windowDefinition h)
    (LocalReading.expectIdentifier.bind fun _ => .pure _)

/-! ### Functions -/

theorem startsFunction_cons (hw : Misses (·.is "(") w) (t : Token) :
    startsFunction (t :: w) = false := by
  cases w with
  | nil => rfl
  | cons paren w => rw [startsFunction, show paren.is "(" = false from hw, Bool.false_and]

theorem local_startsFunction (hv : Ends v) (hv' : Ends v') :
    Local v v' False (look startsFunction) := by
  refine .look fun us hus => ?_
  rcases us with _ | ⟨t, _ | ⟨u, us⟩⟩
  · exact (hus rfl).elim
  · exact (startsFunction_cons hv.symbol.1 t).trans (startsFunction_cons hv'.symbol.1 t).symm
  · rfl

theorem local_mayStart (hv : Ends v) (hv' : Ends v') : Local v v' False (look mayStart) := by
  refine .look fun us hus => ?_
  rcases us with _ | ⟨t, _ | ⟨u, us⟩⟩
  · exact (hus rfl).elim
  · change (_ || startsFunction (t :: v)) = (_ || startsFunction (t :: v'))
    rw [startsFunction_cons hv.symbol.1, startsFunction_cons hv'.symbol.1]
  · rfl

theorem local_probe (hv : Ends v) (hv' : Ends v') (h : OperandsLocal v v' op) :
    Local v v' False (probe op) :=
  (local_mayStart hv hv').bind fun _ => .ite ((h.inside .all).toLocal.bind fun _ => .pure _)
    (.pure _)

theorem local_functionArguments (hv : Ends v) (hv' : Ends v') (h : OperandsLocal v v' op) :
    Local v v' False (functionArguments op) := by
  refine (Local.eat nofun).bind fun _ => .ite (.pure _) ((Local.eatKeyword nofun).bind fun _ =>
    (local_probe hv hv' h).bind fun first => ?_)
  cases first with
  | some _ =>
    exact .loop (fun _ => (Local.eat nofun).bind fun _ => .ite
      ((h.inside .all).toLocal.bind fun _ => .pure _) (.pure _)) _
  | none => exact .ite (Local.current.bind fun _ => .fail _) (.pure _)

theorem local_filterClause (hv : Ends v) (hv' : Ends v') (h : OperandsLocal v v' op) :
    Local v v' B (filterClause op) :=
  (Local.eatKeyword fun _ => ⟨hv.misses, hv'.misses⟩).bind fun _ => .ite
    (LocalReading.toLocal <| LocalReading.expect.toLocal.before fun _ =>
      LocalReading.expectKeyword.toLocal.before fun _ => (h.inside .all).toLocal.before fun _ =>
      LocalReading.expect.bind fun _ => .pure _)
    (.pure _)

theorem local_windowOf (hv : Ends v) (hv' : Ends v') (h : OperandsLocal v v' op) :
    Local v v' B (windowOf op) :=
  (Local.eatKeyword fun _ => ⟨hv.misses, hv'.misses⟩).bind fun _ => .ite
    (local_overClause h).toLocal (.pure _)

theorem local_functionCall (hv : Ends v) (hv' : Ends v') (h : OperandsLocal v v' op) :
    LocalReading v v' B (functionCall op) :=
  LocalReading.advance.toLocal.before fun _ => LocalReading.expect.toLocal.before fun _ =>
    (local_functionArguments hv hv' h).before fun _ => LocalReading.expect.bind fun _ =>
    (local_filterClause hv hv' h).bind fun _ => (local_windowOf hv hv' h).bind fun _ => .pure _

/-! ### Operands -/

theorem startsSubquery_eq_false (hw : Misses (·.is "(") w) : startsSubquery w = false := by
  rcases w with _ | ⟨paren, _ | ⟨word, w⟩⟩
  · rfl
  · rfl
  · rw [startsSubquery, show paren.is "(" = false from hw, Bool.false_and]

theorem startsSubquery_cons (hw : Ends w) (t : Token) : startsSubquery (t :: w) = false := by
  cases w with
  | nil => rfl
  | cons word w =>
    have hselect : word.isKeyword .SELECT = false := hw.misses
    have hwith : word.isKeyword .WITH = false := hw.misses
    rw [startsSubquery, hselect, hwith, Bool.or_false, Bool.and_false]

theorem local_startsSubquery (hv : Ends v) (hv' : Ends v') :
    Local v v' B (look startsSubquery) := by
  refine .look fun us _ => ?_
  rcases us with _ | ⟨t, _ | ⟨u, us⟩⟩
  · exact (startsSubquery_eq_false hv.symbol.1).trans (startsSubquery_eq_false hv'.symbol.1).symm
  · exact (startsSubquery_cons hv t).trans (startsSubquery_cons hv' t).symm
  · rfl

theorem local_parenthesized (hv : Ends v) (hv' : Ends v') (h : OperandsLocal v v' op) :
    LocalReading v v' B (parenthesized op) := by
  refine (local_startsSubquery hv hv').before fun _ => .ite
    (LocalReading.skipBalanced.bind fun _ => .pure _)
    (LocalReading.expect.toLocal.before fun _ => (local_list h nofun).toLocal.before fun items =>
      LocalReading.expect.bind fun _ => ?_)
  split <;> exact .pure _

theorem local_columnOperand (hv : Misses (·.is ".") v) (hv' : Misses (·.is ".") v')
    (context : Context) : LocalReading v v' B (columnOperand context) := by
  refine LocalReading.bind ?_ fun _ => (Local.ofExcept _).bind fun _ => .pure _
  exact LocalReading.require.bind fun _ => (Local.eat fun _ => ⟨hv, hv'⟩).bind fun _ => .ite
    (LocalReading.expectIdentifier.toLocal.bind fun _ =>
      (Local.looks fun _ => ⟨hv, hv'⟩).bind fun _ => .ite (.fail _) (.pure _))
    (.pure _)

/-- Behind a keyword or a sign the operand takes no operator. -/
theorem local_prefixed (hv : Ends v) (hv' : Ends v') (h : OperandsLocal v v' op)
    {expected : String} {α : Type} (a : α) :
    LocalReading v v' B (do
      let _ ← advance expected
      let _ ← op .none
      return a) :=
  LocalReading.advance.bind fun _ => (h.short hv hv' .none).toLocal.bind fun _ => .pure _

theorem local_simpleOperand (hv : Ends v) (hv' : Ends v') (context : Context)
    (h : OperandsLocal v v' op) (token : Token) :
    LocalReading v v' B (simpleOperand context op token) := by
  unfold simpleOperand
  split
  · exact local_cast h
  · exact LocalReading.advance.bind fun _ => LocalReading.skipBalanced.toLocal.bind fun _ => .pure _
  · exact local_caseExpression h
  · exact local_raise
  · exact local_prefixed hv hv' h _
  · exact .ite (local_parenthesized hv hv' h) (.ite (local_prefixed hv hv' h _)
      (local_columnOperand hv.symbol.2 hv'.symbol.2 context))

theorem local_boundParameter (token : Token) : LocalReading v v' B (boundParameter token) :=
  LocalReading.advance.bind fun _ => (Local.register _).bind fun _ => .pure _

theorem local_primary (hv : Ends v) (hv' : Ends v') (context : Context)
    (h : OperandsLocal v v' op) : LocalReading v v' B (primary context op) := by
  refine .acceptThen (fun n => (agree_primary context (h.agree n)).mono (Nat.le_succ n))
    fun literal => ?_
  cases literal with
  | some token => exact .pure _
  | none =>
    exact LocalReading.toLocal <| Local.current.before fun token => .ite
      (local_boundParameter token)
      ((local_startsFunction hv hv').before fun _ => .ite (local_functionCall hv hv' h)
        (local_simpleOperand hv hv' context h token))

/-! ### Clauses behind an operand -/

theorem local_inTarget (hv : Ends v) (hv' : Ends v') (context : Context)
    (h : OperandsLocal v v' op) : Local v v' B (inTarget context op) :=
  have hparen : Local v v' B (check "(") := .looks fun _ => ⟨hv.symbol.1, hv'.symbol.1⟩
  (local_startsSubquery hv hv').bind fun _ => .ite
    (LocalReading.skipBalanced.toLocal.bind fun _ => .pure _)
    (hparen.bind fun _ => .ite (local_arguments h).toLocal
      (LocalReading.expectIdentifier.toLocal.bind fun _ => hparen.bind fun _ => .ite
        (local_arguments h).toLocal (.ite (.pure _) (.fail _))))

theorem local_escapeClause (hv : Ends v) (hv' : Ends v') (h : OperandsLocal v v' op) :
    Local v v' B (escapeClause op) :=
  (Local.eatKeyword fun _ => ⟨hv.misses, hv'.misses⟩).bind fun _ => .ite
    ((h.short hv hv' .none).toLocal.bind fun _ => .pure _) (.pure _)

theorem local_distinctFrom : Local v v' False distinctFrom :=
  (Local.eatKeyword nofun).bind fun _ => .ite
    (LocalReading.expectKeyword.toLocal.bind fun _ => .pure _) (.pure _)

theorem trailingClause_ends {s : ParseState} (hs : Ends s.rest) :
    trailingClause context op s = .ok false s := by
  have hkeyword {k : Keyword} (hk : s.rest.head?.bind Token.keyword = some k) :
      k ∉ continuing := by
    intro hmem
    obtain ⟨t, ht, hkt⟩ := Option.bind_eq_some_iff.1 hk
    have hmisses : s.rest.head?.any (·.isKeyword k) = false := hs.misses hmem
    rw [ht, Option.any_some, Token.isKeyword_iff_keyword.2 hkt] at hmisses
    cases hmisses
  rw [trailingClause, bind_apply, peek, look]
  refine congrFun (g := (pure false : Parser Bool)) ?_ s
  split
  all_goals first
    | rfl
    | next hk => exact absurd (by decide) (hkeyword hk)

/-- Reads a `NOT` that passes the test, and a `NULL` behind it. -/
def negation (test : List Token → Bool) : Parser Bool := do
  if ← look test then
    let _ ← advance "NOT"
    let _ ← eatKeyword .NULL
    return true
  else return false

/-- The keywords that may follow a `NOT` are only looked at behind a `NOT`. -/
theorem negation_guarded {test : List Token → Bool} {s : ParseState} {t : Token}
    (hs : s.rest.head? = some t) (ht : t.isKeyword .NOT = true) :
    negation test s = negation (fun ts => ts.head?.any (·.isKeyword .NOT) && test ts) s := by
  rw [negation, negation, bind_apply, bind_apply]
  dsimp only [look]
  rw [hs, Option.any_some, ht, Bool.true_and]

theorem local_negation (hv : Ends v) (hv' : Ends v') :
    Local v v' B (negation fun ts => ts.head?.any (·.isKeyword .NOT) &&
      ts[1]?.any fun t => negatable.any t.isKeyword) := by
  have hfirst {w : List Token} (hw : Ends w) : w.head?.any (·.isKeyword .NOT) = false := hw.misses
  have hsecond {w : List Token} (hw : Ends w) (t : Token) :
      ((t :: w)[1]?.any fun t => negatable.any t.isKeyword) = false := by
    have hmem : ∀ k ∈ negatable, k ∈ continuing := by decide
    rw [List.getElem?_cons_succ, ← List.head?_eq_getElem?]
    refine Misses.imp hw fun t ht => ?_
    obtain ⟨k, hk, hkt⟩ := List.any_eq_true.1 ht
    rw [continues, List.any_eq_true.2 ⟨k, hmem k hk, hkt⟩, Bool.or_true]
  refine (Local.look fun us _ => ?_).bind fun _ => .ite
    (LocalReading.advance.toLocal.bind fun _ =>
      (Local.eatKeyword fun _ => ⟨hv.misses, hv'.misses⟩).bind fun _ => .pure _) (.pure _)
  rcases us with _ | ⟨t, _ | ⟨u, us⟩⟩
  · dsimp only [List.nil_append]
    rw [hfirst hv, hfirst hv', Bool.false_and, Bool.false_and]
  · dsimp only [List.cons_append, List.nil_append]
    rw [hsecond hv, hsecond hv', Bool.and_false, Bool.and_false]
  · rfl

theorem local_trailingClause (hv : Ends v) (hv' : Ends v') (context : Context)
    (h : OperandsLocal v v' op) : Local v v' B (trailingClause context op) := by
  refine .peekThen (fun n => agree_trailingClause context (h.agree n)) (fun t => ?_)
    fun _ s hs => trailingClause_ends (hs.elim (fun hs => hs ▸ hv) fun hs => hs ▸ hv')
  · by_cases hnot : t.isKeyword .NOT = true
    · refine ⟨_, local_negation hv hv', fun s hs => ?_⟩
      rw [show (some t).bind Token.keyword = some .NOT from Token.isKeyword_iff_keyword.1 hnot]
      exact negation_guarded hs hnot
    · refine ⟨_, ?_, fun _ _ => rfl⟩
      split
      · exact LocalReading.advance.toLocal.bind fun _ =>
          (LocalReading.collation _).toLocal.bind fun _ => .pure _
      · next hk => exact absurd (Token.isKeyword_iff_keyword.2 hk) hnot
      · exact LocalReading.advance.toLocal.bind fun _ => (h.short hv hv' _).toLocal.bind fun _ =>
          (local_escapeClause hv hv' h).bind fun _ => .pure _
      all_goals first
        | exact .pure _
        | exact LocalReading.advance.toLocal.bind fun _ => .pure _
        | exact (local_prefixed hv hv' h _).toLocal
        | exact LocalReading.advance.toLocal.bind fun _ => LocalReading.toLocal <|
            (Local.eatKeyword nofun).before fun _ => local_distinctFrom.before fun _ =>
              (h.short hv hv' _).bind fun _ => .pure _
        | exact LocalReading.advance.toLocal.bind fun _ => (h.short hv hv' _).toLocal.bind fun _ =>
            LocalReading.expectKeyword.toLocal.bind fun _ =>
              (h.short hv hv' _).toLocal.bind fun _ => .pure _
        | exact LocalReading.advance.toLocal.bind fun _ =>
            (local_inTarget hv hv' context h).bind fun _ => .pure _

theorem local_trailingClauses (hv : Ends v) (hv' : Ends v') (context : Context)
    (h : OperandsLocal v v' op) : Local v v' B (trailingClauses context op) :=
  .loop (fun _ => (local_trailingClause hv hv' context h).bind fun _ => .ite (.pure _) (.pure _)) _

/-! ### Expressions -/

theorem local_chained (h : OperandsLocal v v' op) (chain : Chain) :
    Local v v' (Halts chain v ∧ Halts chain v') (chained op chain) :=
  (Local.looks id).bind fun _ => .ite
    (LocalReading.advance.toLocal.bind fun _ => (h chain).toLocal.bind fun _ => .pure _) (.pure _)

theorem local_layer (hv : Ends v) (hv' : Ends v') (context : Context)
    (h : OperandsLocal v v' op) : OperandsLocal v v' (layer context op) := fun chain =>
  (local_primary hv hv' context h).bind fun _ =>
    (local_trailingClauses hv hv' context h).bind fun _ =>
    (local_chained h chain).bind fun _ => .pure _

theorem local_within (hv : Ends v) (hv' : Ends v') (context : Context) (depth : Nat) :
    OperandsLocal v v' (within context depth) := by
  induction depth with
  | zero => exact fun _ => .fail _
  | succ depth ih => exact local_layer hv hv' context ih

/-- How deep expressions may nest does not depend on what stands behind them. -/
theorem local_parse (hv : Ends v) (hv' : Ends v') (context : Context) :
    OperandsLocal v v' (parse context) := by
  intro chain
  have hreads (n : Nat) := operandsAgree_parse context n chain
  refine ⟨⟨fun n => (hreads n).agree, fun us us' hstop h => ?_⟩, hreads⟩
  rw [parse_eq_within context chain (Nat.le_max_left _ (us ++ v').length)] at h
  rw [parse_eq_within context chain (Nat.le_max_right (us ++ v).length _)]
  exact (local_within hv hv' context _ chain).moves us us' hstop h

/-- An expression does not end in front of an operator within its reach. -/
theorem halts_of_parse {chain : Chain} {s t : ParseState} {e : Expr}
    (h : parse context chain s = .ok e t) : Halts chain t.rest := by
  induction hn : s.rest.length using Nat.strongRecOn generalizing s e with
  | ind n ih =>
    obtain ⟨first, u, clauses, v, more, hfirst, hclauses, hmore, -⟩ := parse_eq_ok.1 h
    obtain ⟨operator, v', hlook, hmore⟩ := bind_eq_ok hmore
    obtain ⟨rfl, rfl⟩ := EStateM.Result.ok.inj hlook
    split at hmore
    · obtain ⟨operator, x, hadvance, hmore⟩ := bind_eq_ok hmore
      obtain ⟨e', y, hoperand, hend⟩ := bind_eq_ok hmore
      cases hend
      have hagree := operandsAgree_parse context
      have hprimary := Agree.suffix (fun n =>
        ((agree_primary context (hagree n)).mono (Nat.le_succ n)).agree) hfirst
      have htrailing := Agree.suffix (fun n => agree_trailingClauses context (hagree n)) hclauses
      obtain ⟨hrest, -, -⟩ := require_eq_ok hadvance
      have hlength := (htrailing.trans hprimary).length_le
      rw [hrest, List.length_cons] at hlength
      exact ih x.rest.length (by omega) hoperand rfl
    · next hstop =>
      cases hmore
      exact Bool.eq_false_iff.2 hstop

end SqliteSchema.Expr
