import SqliteSchema.Proofs.Expr.Chaining
import SqliteSchema.Proofs.Expr.Local
import SqliteSchema.Proofs.Parameter.Stretch

/-!
The `AND` of a `BETWEEN`. The bounds are read without operators `AND`, and what is read at their
right-hand ends is so too. Hence a bound that stands for itself is read up to the next `AND`,
whatever it consists of.
-/
namespace SqliteSchema.Expr

open SqliteSchema.Parser

variable {context : Context} {op : Operand} {e : Expr} {x ts w : List Token}
  {ps ps' : Parameters} {ws ws' : List Warning} {t and : Token}

theorem ends_and (hand : and.isKeyword .AND = true) : Ends (and :: w) := by
  have hcontinuing : continuing.any and.isKeyword = false := by
    rw [List.any_eq_false]
    intro k hk ht
    have hne : ∀ k ∈ continuing, Keyword.AND ≠ k := by decide
    rw [Token.isKeyword_of_isKeyword hand (hne k hk)] at ht
    cases ht
  change continues and = false
  rw [continues, Token.is_of_isKeyword hand, Token.is_of_isKeyword hand, hand, hcontinuing]
  simp

theorem trailingClauses_ends {s : ParseState} (hs : Ends s.rest) :
    trailingClauses context op s = .ok false s := by
  rw [trailingClauses, loop, bind_apply, trailingClause_ends hs]
  rfl

theorem chained_ends {s : ParseState} {chain : Chain} (hs : Halts chain s.rest) :
    chained op chain s = .ok false s := by
  rw [chained_apply, if_neg (Bool.eq_false_iff.1 hs)]

/-! ### Operands -/

/-- One literal, bind parameter or column reference, and the expression that it is. -/
inductive IsOperand : List Token → Expr → Prop
  | literal {t : Token} (h : isLiteralValue t = true) : IsOperand [t] (.literal t)
  | parameter {t : Token} {n : Nat} (h : t.isParameter = true) : IsOperand [t] (.parameter n)
  | column {c : Token} (h : isColumnName c = true) : IsOperand [c] (.column ⟨none, c⟩)
  | qualified {q point c : Token} (h : isColumnName q = true) (hpoint : point.is "." = true) :
    IsOperand [q, point, c] (.column ⟨some q, c⟩)

theorem primary_cons :
    primary context op ⟨t :: ts, ps, ws⟩ =
      if isLiteralValue t then .ok (.literal t) ⟨ts, ps, ws⟩
      else if t.isParameter then boundParameter t ⟨t :: ts, ps, ws⟩
      else if startsFunction (t :: ts) then functionCall op ⟨t :: ts, ps, ws⟩
      else simpleOperand context op t ⟨t :: ts, ps, ws⟩ := by
  have hliteral : literalValue ⟨t :: ts, ps, ws⟩ =
      if isLiteralValue t then .ok (some t) ⟨ts, ps, ws⟩ else .ok none ⟨t :: ts, ps, ws⟩ := rfl
  rw [primary, bind_apply, hliteral]
  cases isLiteralValue t with
  | true => rfl
  | false =>
    rw [if_neg (by decide), if_neg (by decide)]
    dsimp only
    rw [bind_apply]
    dsimp only [current]
    cases t.isParameter with
    | true => rfl
    | false =>
      rw [if_neg (by decide), if_neg (by decide), bind_apply]
      dsimp only [look]
      cases startsFunction (t :: ts) <;> rfl

theorem isLiteralValue_eq_false {s : ParseState}
    (h : primary context op ⟨t :: ts, ps, ws⟩ = .ok e s) (hvalue : e ≠ .literal t) :
    isLiteralValue t = false := by
  rw [Bool.eq_false_iff]
  intro hliteral
  rw [primary_cons, if_pos hliteral] at h
  exact hvalue (EStateM.Result.ok.inj h).1.symm

/-- A name that is no call is a column, unless it is `RAISE`. -/
theorem simpleOperand_column (context : Context) (op : Operand) (hc : isColumnName t = true) :
    simpleOperand context op t = columnOperand context ∨ simpleOperand context op t = raise := by
  obtain ⟨hname, hreserved⟩ := Bool.and_eq_true_iff.1 hc
  have hkeyword {k : Keyword} (hk : t.keyword = some k) : k.isReserved = false := by
    simpa [hk] using hreserved
  have hparen : t.is "(" = false := by
    rw [Bool.eq_false_iff]
    intro hopen
    have hinside : Literal.Quoted.inside? ['('] = none := by decide
    have hword : Token.startsWord '(' = false := by decide
    simp [Token.isIdentifier, Token.isQuoted, Token.value_of_is hopen, hinside, hword] at hname
  have hunary : t.isUnary = false := by
    have hkind : t.kind = .other := eq_of_beq (Bool.and_eq_true_iff.1 hname).1
    rw [Token.isUnary, hkind]
  unfold simpleOperand
  split
  case h_4 => exact .inr rfl
  case h_6 => exact .inl (by rw [if_neg (by simp [hparen]), if_neg (by simp [hunary])])
  all_goals
    next hk => exact absurd (hkeyword hk) (by decide)

/-- A column name is read as a column, unless it is a value or the word `RAISE`. -/
theorem primary_column (context : Context) (op : Operand) (hc : isColumnName t = true)
    (hliteral : isLiteralValue t = false) :
    ∃ p, (p = columnOperand context ∨ p = raise) ∧ ∀ {ts ps ws}, startsFunction (t :: ts) = false →
      primary context op ⟨t :: ts, ps, ws⟩ = p ⟨t :: ts, ps, ws⟩ := by
  have hparameter : t.isParameter = false :=
    Token.isParameter_of_isIdentifier (Bool.and_eq_true_iff.1 hc).1
  refine ⟨_, simpleOperand_column context op hc, fun hfunction => ?_⟩
  rw [primary_cons, hliteral, hparameter, hfunction]
  rfl

theorem startsFunction_point {q point : Token} (hmark : point.is "." = true) :
    startsFunction (q :: point :: ts) = false := by
  have hnot : point.is "(" = false := Token.is_of_is hmark
  rw [startsFunction, hnot, Bool.false_and]

theorem primary_column_append (hc : isColumnName t = true) (hvalue : e ≠ .literal t)
    (hfunction : startsFunction (t :: ts) = false)
    (hfunction' : startsFunction (t :: (ts ++ w)) = false) (hpoint : Misses (·.is ".") w)
    (h : primary context op ⟨t :: ts, ps, ws⟩ = .ok e ⟨[], ps', ws'⟩) :
    primary context op ⟨t :: ts ++ w, ps, ws⟩ = .ok e ⟨w, ps', ws'⟩ := by
  obtain ⟨p, hp, hprimary⟩ := primary_column context op hc (isLiteralValue_eq_false h hvalue)
  rw [hprimary hfunction] at h
  rw [List.cons_append, hprimary hfunction']
  rcases hp with rfl | rfl
  · exact (local_columnOperand misses_nil hpoint context).append h
  · exact local_raise.append h

/-- What stands behind an operand does not change how it is read. -/
theorem primary_operand (hx : IsOperand x e) (hparen : Misses (·.is "(") w)
    (hpoint : Misses (·.is ".") w)
    (h : primary context op ⟨x, ps, ws⟩ = .ok e ⟨[], ps', ws'⟩) :
    primary context op ⟨x ++ w, ps, ws⟩ = .ok e ⟨w, ps', ws'⟩ := by
  cases hx with
  | literal ht =>
    rw [primary_cons, if_pos ht] at h
    rw [List.singleton_append, primary_cons, if_pos ht]
    cases h
    rfl
  | @parameter t n ht =>
    have hliteral := isLiteralValue_eq_false h nofun
    rw [primary_cons, hliteral, if_neg (by decide), if_pos ht] at h
    rw [List.singleton_append, primary_cons, hliteral, if_neg (by decide), if_pos ht]
    exact (local_boundParameter t).append h
  | column hc => exact primary_column_append hc nofun rfl (startsFunction_cons hparen _) hpoint h
  | qualified hq hmark =>
    exact primary_column_append hq nofun (startsFunction_point hmark)
      (startsFunction_point hmark) hpoint h

theorem eat_cons {symbol : String} (ht : t.is symbol = true) :
    eat symbol ⟨t :: ts, ps, ws⟩ = .ok true ⟨ts, ps, ws⟩ := by
  have haccept : accept (·.is symbol) ⟨t :: ts, ps, ws⟩ = .ok (some t) ⟨ts, ps, ws⟩ := if_pos ht
  rw [eat, bind_apply, haccept]
  rfl

theorem rest_of_columnOperand {q point c : Token} {s : ParseState} (hmark : point.is "." = true)
    (h : columnOperand context ⟨[q, point, c], ps, ws⟩ = .ok e s) : s.rest = [] := by
  obtain ⟨r, s₁, hr, h⟩ := bind_eq_ok h
  obtain ⟨_, s₂, hcheck, h⟩ := bind_eq_ok h
  have hstay : s = s₁ := by
    cases h
    cases hresult : context.scope.check context.registry r with
    | error => rw [hresult] at hcheck; cases hcheck
    | ok => rw [hresult] at hcheck; cases hcheck; rfl
  subst hstay
  obtain ⟨first, ⟨rest, ps', ws'⟩, hfirst, hr⟩ := bind_eq_ok hr
  obtain ⟨hrest, -, -⟩ := require_eq_ok hfirst
  cases hrest
  rw [bind_apply, eat_cons hmark] at hr
  obtain ⟨name, s₃, hname, hr⟩ := bind_eq_ok (p := expectIdentifier "a column name") hr
  obtain ⟨hrest, -, -⟩ := require_eq_ok hname
  obtain ⟨again, s₄, hagain, hr⟩ := bind_eq_ok hr
  cases hagain
  split at hr
  · cases hr
  · cases hr
    exact (List.cons.inj hrest).2.symm

/-- Where an operand is read as the expression that it is, all of its tokens are read. -/
theorem rest_of_primary {s : ParseState} (hx : IsOperand x e)
    (h : primary context (parse context) ⟨x, ps, ws⟩ = .ok e s) : s.rest = [] := by
  have hlt := ((agree_primary context (operandsAgree_parse context x.length) _
    (Nat.le_succ _)).2 _ _ h).2
  cases hx with
  | @qualified q point c hq hmark =>
    obtain ⟨p, hp, hprimary⟩ := primary_column context (parse context) hq
      (isLiteralValue_eq_false h nofun)
    rw [hprimary (startsFunction_point hmark)] at h
    rcases hp with rfl | rfl
    · exact rest_of_columnOperand hmark h
    · -- `RAISE` is not read as a column.
      obtain ⟨_, _, -, h⟩ := bind_eq_ok h
      obtain ⟨_, _, -, h⟩ := bind_eq_ok h
      obtain ⟨_, _, -, h⟩ := bind_eq_ok h
      obtain ⟨_, _, -, h⟩ := bind_eq_ok h
      cases h
  | _ => exact List.length_eq_zero_iff.1 (Nat.lt_one_iff.1 hlt)

/-- An operand that stands for itself has no clauses and no operators behind it. -/
theorem primary_of_parse (hx : IsOperand x e)
    (h : parse context .all ⟨x, ps, ws⟩ = .ok e ⟨[], ps', ws'⟩) :
    primary context (parse context) ⟨x, ps, ws⟩ = .ok e ⟨[], ps', ws'⟩ := by
  obtain ⟨first, s₁, clauses, s₂, more, hfirst, hclauses, hmore, he⟩ := parse_eq_ok.1 h
  have hsame : first = e := by
    split at he
    · subst he
      cases hx
    · exact he
  subst hsame
  have hend : s₁.rest = [] := rest_of_primary hx hfirst
  rw [trailingClauses_ends (hend ▸ misses_nil)] at hclauses
  cases hclauses
  rw [chained_ends (hend ▸ misses_nil)] at hmore
  cases hmore
  exact hfirst

/-! ### Clauses -/

/-- The `NOT` in front of a `BETWEEN` is a clause of its own. -/
theorem trailingClause_not {not between : Token} (hnot : not.isKeyword .NOT = true)
    (hbetween : between.isKeyword .BETWEEN = true) :
    trailingClause context op ⟨not :: between :: ts, ps, ws⟩ =
      .ok true ⟨between :: ts, ps, ws⟩ := by
  have hkeyword : (some not).bind Token.keyword = some .NOT := Token.isKeyword_iff_keyword.1 hnot
  have hnegatable : negatable.any between.isKeyword = true :=
    List.any_eq_true.2 ⟨.BETWEEN, by decide, hbetween⟩
  have hnull : eatKeyword .NULL ⟨between :: ts, ps, ws⟩ = .ok false ⟨between :: ts, ps, ws⟩ := by
    have haccept : accept (·.isKeyword .NULL) ⟨between :: ts, ps, ws⟩ =
        .ok none ⟨between :: ts, ps, ws⟩ :=
      if_neg (Bool.eq_false_iff.1 (Token.isKeyword_of_isKeyword hbetween))
    rw [eatKeyword, bind_apply, haccept]
    rfl
  rw [trailingClause, bind_apply, peek, look, List.head?_cons]
  dsimp only
  rw [hkeyword]
  change negation (·[1]?.any fun t => negatable.any t.isKeyword) ⟨not :: between :: ts, ps, ws⟩ = _
  rw [negation, bind_apply, look]
  dsimp only [List.getElem?_cons_succ, List.getElem?_cons_zero, Option.any_some]
  rw [hnegatable]
  change (eatKeyword .NULL >>= fun _ => pure true) ⟨between :: ts, ps, ws⟩ = _
  rw [bind_apply, hnull]
  rfl

theorem trailingClause_between {between : Token} (hbetween : between.isKeyword .BETWEEN = true) :
    trailingClause context op ⟨between :: ts, ps, ws⟩ = (do
      let _ ← op .exceptAnd
      let _ ← expectKeyword .AND
      let _ ← op .exceptAnd
      return true : Parser Bool) ⟨ts, ps, ws⟩ := by
  have hkeyword : (some between).bind Token.keyword = some .BETWEEN :=
    Token.isKeyword_iff_keyword.1 hbetween
  rw [trailingClause, bind_apply, peek, look, List.head?_cons]
  dsimp only
  rw [hkeyword]
  rfl

theorem parse_append (hw : Ends w)
    (h : parse context .exceptAnd ⟨ts, ps, ws⟩ = .ok e ⟨[], ps', ws'⟩) :
    parse context .exceptAnd ⟨ts ++ w, ps, ws⟩ = .ok e ⟨w, ps', ws'⟩ :=
  ((local_parse misses_nil hw context).short misses_nil hw .exceptAnd).append h

theorem loop_trailingRound {s t : ParseState} {b : Bool}
    (h : trailingClause context op s = .ok true t) (hlt : t.rest.length < s.rest.length) :
    loop (trailingRound context op) b s = loop (trailingRound context op) true t := by
  rw [loop, trailingRound, bind_apply, h]
  exact if_pos hlt

/-- An operand with clauses behind it, and what the operators behind them make of the rest. -/
theorem parse_clauses {more : Bool} {s t : ParseState} (hx : IsOperand x e)
    (h : parse context .all ⟨x, ps, ws⟩ = .ok e ⟨[], ps', ws'⟩) (hparen : Misses (·.is "(") ts)
    (hpoint : Misses (·.is ".") ts)
    (hclauses : trailingClauses context (parse context) ⟨ts, ps', ws'⟩ = .ok true s)
    (hmore : chained (parse context) .all s = .ok more t) :
    parse context .all ⟨x ++ ts, ps, ws⟩ = .ok .compound t :=
  parse_eq_ok.2 ⟨e, _, true, s, more, primary_operand hx hparen hpoint (primary_of_parse hx h),
    hclauses, hmore, rfl⟩

/-! ### A `BETWEEN` and its bounds -/

section Bounds

variable {lo hi : List Token} {elo ehi : Expr} {q₁ q₂ q₃ : Parameters} {w₁ w₂ w₃ : List Warning}
  {between : Token}

/-- Each bound is read up to the tokens behind it. -/
theorem trailingClause_bounds (hbetween : between.isKeyword .BETWEEN = true)
    (hlo : parse context .exceptAnd ⟨lo, q₁, w₁⟩ = .ok elo ⟨[], q₂, w₂⟩)
    (hand : and.isKeyword .AND = true)
    (hhi : parse context .exceptAnd ⟨hi, q₂, w₂⟩ = .ok ehi ⟨[], q₃, w₃⟩) (hw : Ends w) :
    trailingClause context (parse context) ⟨between :: (lo ++ and :: (hi ++ w)), q₁, w₁⟩ =
      .ok true ⟨w, q₃, w₃⟩ := by
  have hkeyword : expectKeyword .AND ⟨and :: (hi ++ w), q₂, w₂⟩ = .ok and ⟨hi ++ w, q₂, w₂⟩ :=
    if_pos hand
  rw [trailingClause_between hbetween, bind_apply, parse_append (ends_and hand) hlo]
  dsimp only
  rw [bind_apply, hkeyword]
  dsimp only
  rw [bind_apply, parse_append hw hhi]
  rfl

/-- With a `NOT` or without. -/
theorem trailingClauses_bounds {not : Token} (hnot : not.isKeyword .NOT = true)
    (hbetween : between.isKeyword .BETWEEN = true)
    (hlo : parse context .exceptAnd ⟨lo, q₁, w₁⟩ = .ok elo ⟨[], q₂, w₂⟩)
    (hand : and.isKeyword .AND = true)
    (hhi : parse context .exceptAnd ⟨hi, q₂, w₂⟩ = .ok ehi ⟨[], q₃, w₃⟩) (hw : Ends w) :
    ∀ negation ∈ [[], [not]], trailingClauses context (parse context)
      ⟨negation ++ between :: (lo ++ and :: (hi ++ w)), q₁, w₁⟩ = .ok true ⟨w, q₃, w₃⟩ := by
  have hlast : loop (trailingRound context (parse context)) true ⟨w, q₃, w₃⟩ =
      .ok true ⟨w, q₃, w₃⟩ := by
    rw [loop, trailingRound, bind_apply, trailingClause_ends hw]
    rfl
  have hclause (b : Bool) : loop (trailingRound context (parse context)) b
      ⟨between :: (lo ++ and :: (hi ++ w)), q₁, w₁⟩ = .ok true ⟨w, q₃, w₃⟩ := by
    rw [loop_trailingRound (trailingClause_bounds hbetween hlo hand hhi hw), hlast]
    simp only [List.length_cons, List.length_append]
    omega
  intro negation hnegation
  rcases List.mem_pair.1 hnegation with rfl | rfl
  · exact hclause false
  · exact (loop_trailingRound (trailingClause_not hnot hbetween) (Nat.lt_succ_self _)).trans
      (hclause true)

end Bounds

/-- Bounds that are expressions on their own, whatever they consist of, never take the `AND` of
their `BETWEEN`, nor the one behind it: a `BETWEEN` with these bounds, negated or not, is read as a
whole, and the right-hand side of an operator `AND` that follows is all that stands there. -/
theorem parse_between {ex elo ehi : Expr} {lo hi : List Token} {between not : Token}
    {q₀ q₁ q₂ q₃ : Parameters} {w₀ w₁ w₂ w₃ : List Warning} (hx : IsOperand x ex)
    (hoperand : parse context .all ⟨x, q₀, w₀⟩ = .ok ex ⟨[], q₁, w₁⟩)
    (hlo : parse context .exceptAnd ⟨lo, q₁, w₁⟩ = .ok elo ⟨[], q₂, w₂⟩)
    (hhi : parse context .exceptAnd ⟨hi, q₂, w₂⟩ = .ok ehi ⟨[], q₃, w₃⟩)
    (hbetween : between.isKeyword .BETWEEN = true) (hand : and.isKeyword .AND = true)
    (hnot : not.isKeyword .NOT = true) :
    ∀ negation ∈ [[], [not]],
      let ts := x ++ negation ++ between :: lo ++ and :: hi
      parse context .all ⟨ts, q₀, w₀⟩ = .ok .compound ⟨[], q₃, w₃⟩ ∧
      ∀ {operator : Token} {rest : List Token} {erest : Expr} {q₄ : Parameters}
        {w₄ : List Warning}, operator.isKeyword .AND = true → operator.isBinary = true →
        parse context .all ⟨rest, q₃, w₃⟩ = .ok erest ⟨[], q₄, w₄⟩ →
        parse context .all ⟨ts ++ operator :: rest, q₀, w₀⟩ = .ok .compound ⟨[], q₄, w₄⟩ := by
  intro negation hnegation ts
  have hgoes {w : List Token} {more : Bool} {t : ParseState} (hw : Ends w)
      (hmore : chained (parse context) .all ⟨w, q₃, w₃⟩ = .ok more t) :
      parse context .all ⟨ts ++ w, q₀, w₀⟩ = .ok .compound t := by
    have hclauses := trailingClauses_bounds hnot hbetween hlo hand hhi hw negation hnegation
    have hfirst {symbol : String} (hsymbol : symbol.toLower ≠ Keyword.BETWEEN.text ∧
        symbol.toLower ≠ Keyword.NOT.text) :
        Misses (·.is symbol) (negation ++ between :: (lo ++ and :: (hi ++ w))) := by
      rcases List.mem_pair.1 hnegation with rfl | rfl
      · exact Token.is_of_isKeyword hbetween hsymbol.1
      · exact Token.is_of_isKeyword hnot hsymbol.2
    simpa only [ts, List.append_assoc, List.cons_append] using
      parse_clauses hx hoperand (hfirst (by decide +kernel)) (hfirst (by decide +kernel))
        hclauses hmore
  refine ⟨?_, fun {operator rest erest q₄ w₄} hkeyword hoperator hrest => ?_⟩
  · have hall := hgoes misses_nil (chained_ends misses_nil)
    rwa [List.append_nil] at hall
  · have hmore : chained (parse context) .all ⟨operator :: rest, q₃, w₃⟩ =
        .ok true ⟨[], q₄, w₄⟩ := by
      have hadvance : advance "an operator" ⟨operator :: rest, q₃, w₃⟩ =
          .ok operator ⟨rest, q₃, w₃⟩ := rfl
      rw [chained_apply, if_pos (by simp [hoperator, Chain.admits]), bind_apply, hadvance]
      dsimp only
      rw [bind_apply, hrest]
      rfl
    exact hgoes (ends_and hkeyword) hmore

/-- Between `1 BETWEEN 2 AND 3 OR CASE WHEN 4 AND 5 THEN ? END` and
`[count](?) OVER (ROWS BETWEEN 6 PRECEDING AND CURRENT ROW) OR (7 AND 8)`, with `? AND 9` behind
it. -/
theorem parse_between_nested :
    let context : Context := ⟨{}, .deferred⟩
    let operator (spelling : String) : Token := ⟨spelling, .operator true false, .start⟩
    let number : String → Token := .ofNumber
    let word : Keyword → Token := .ofKeyword
    let mark : Char → Token := .ofMark
    let x := [mark '?']
    let lo := [number "1", word .BETWEEN, number "2", operator "AND", number "3", operator "OR",
      word .CASE, word .WHEN, number "4", operator "AND", number "5", word .THEN, mark '?',
      word .END]
    let hi := [Token.ofName "count", mark '(', mark '?', mark ')', word .OVER, mark '(', word .ROWS,
      word .BETWEEN, number "6", word .PRECEDING, operator "AND", word .CURRENT, word .ROW,
      mark ')', operator "OR", mark '(', number "7", operator "AND", number "8", mark ')']
    let rest := [mark '?', operator "AND", number "9"]
    let bound (n : Nat) : Parameters :=
      ⟨[⟨1, "param1", none⟩, ⟨2, "param2", none⟩, ⟨3, "param3", none⟩, ⟨4, "param4", none⟩].take n,
        n⟩
    let reads (chain : Chain) (ts : List Token) (n m : Nat) (e : Expr) : Prop :=
      parse context chain ⟨ts, bound n, []⟩ = .ok e ⟨[], bound m, []⟩
    (IsOperand x (.parameter 1) ∧ reads .all x 0 1 (.parameter 1) ∧
      reads .exceptAnd lo 1 2 .compound ∧ reads .exceptAnd hi 2 3 .compound ∧
      reads .all rest 3 4 .compound) ∧
    ∀ negation ∈ [[], [word .NOT]],
      let ts := x ++ negation ++ word .BETWEEN :: lo ++ operator "AND" :: hi
      reads .all ts 0 3 .compound ∧ reads .all (ts ++ operator "AND" :: rest) 0 4 .compound := by
  intro context operator number word mark x lo hi rest bound reads
  have hx : IsOperand x (.parameter 1) := .parameter (by decide)
  have hoperand : reads .all x 0 1 (.parameter 1) := eq_ok_of_success? (by decide +kernel)
  have hlo : reads .exceptAnd lo 1 2 .compound := eq_ok_of_success? (by decide +kernel)
  have hhi : reads .exceptAnd hi 2 3 .compound := eq_ok_of_success? (by decide +kernel)
  have hrest : reads .all rest 3 4 .compound := eq_ok_of_success? (by decide +kernel)
  refine ⟨⟨hx, hoperand, hlo, hhi, hrest⟩, fun negation hnegation => ?_⟩
  have hand : (operator "AND").isKeyword .AND = true := by decide +kernel
  obtain ⟨hwhole, hlonger⟩ := parse_between hx hoperand hlo hhi Token.isKeyword_self hand
    Token.isKeyword_self negation hnegation
  exact ⟨hwhole, hlonger hand rfl hrest⟩

end SqliteSchema.Expr
