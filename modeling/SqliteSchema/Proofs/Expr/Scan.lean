import SqliteSchema.Proofs.Expr.Mirror
import SqliteSchema.Proofs.Parameter.Follow

/-!
Expressions are read along a path that leads from in front of an operand to behind it. Each bind
parameter on the path is registered once. Those in the groups that the path passes over are not,
and the expression does not hang on what stands in these groups.
-/
namespace SqliteSchema.Expr

open SqliteSchema.Parser

variable {P : Assertion} {op : Operand} {p q : Place}

/-- The parser of operands reads from in front of an operand to behind it. -/
def OperandsFollow (op : Operand) : Prop := ∀ chain, Follows Ready (op chain) fun _ => At .done

theorem OperandsFollow.next (h : OperandsFollow op) (chain : Chain) :
    Follows (At .operand) (op chain) fun _ => At .done :=
  (h chain).pre fun _ _ => ready_at

theorem follows_operand (h : OperandsFollow op) (chain : Chain) {α : Type} (a : α) :
    Follows (At .operand) (do let _ ← op chain; return a) fun _ => At .done :=
  (h.next chain).bind fun _ => .pure fun _ _ hp => hp

theorem follows_list (h : OperandsFollow op) : Follows Ready (list op) fun _ => At .done :=
  .separated (h .all) (h.next .all)

theorem follows_nextList (h : OperandsFollow op) : Follows (At .operand) (list op) fun _ => At .done :=
  (follows_list h).pre fun _ _ => ready_at

theorem front_startsSubquery (ts : List Token) :
    startsSubquery ts = startsSubquery (ts.take 2) := by
  rcases ts with _ | ⟨_, _ | ⟨_, _⟩⟩ <;> rfl

theorem front_startsFunction (ts : List Token) :
    startsFunction ts = startsFunction (ts.take 2) := by
  rcases ts with _ | ⟨_, _ | ⟨_, _⟩⟩ <;> rfl

theorem front_mayStart (ts : List Token) : mayStart ts = mayStart (ts.take 2) := by
  rcases ts with _ | ⟨_, _ | ⟨_, _⟩⟩ <;> rfl

/-- The end of what stands in parentheses. -/
theorem follows_close {α : Type} (h : Leads P .closing q) (a : α) :
    Follows P (do let _ ← expect ")"; return a) fun _ => At q :=
  (Follows.expect .closing h).bind fun _ => .pure fun _ _ hp => hp

theorem follows_arguments (h : OperandsFollow op) (hopening : Follows P (expect "(") fun _ => Ready) :
    Follows P (arguments op) fun _ => At .done :=
  hopening.bind fun _ => .bindIf (.look (SameFront.head?_any _))
    ((follows_close (.ready rfl) _).pre fun _ _ hp => hp.1)
    (((follows_list h).pre fun _ _ hp => hp.1).bind fun _ => follows_close (.at rfl) _)

theorem follows_nullsOrder : Follows (At .done) nullsOrder fun _ => At .done :=
  .bindIf (.eatKeyword (.at rfl))
    ((Follows.expectAnyKeyword (by decide)).bind fun _ => .pure fun _ _ hp => hp)
    (.pure fun _ _ hp => hp)

theorem follows_orderingTerm (h : OperandsFollow op) :
    Follows Ready (orderingTerm op) fun _ => At .done := by
  refine (h .all).bind fun _ => (Follows.eatAnyKeyword (q := .done) (by decide)).bind fun o => ?_
  cases o with
  | some k => exact follows_nullsOrder
  | none => exact follows_nullsOrder

theorem follows_orderingTerms (h : OperandsFollow op) :
    Follows Ready (orderingTerms op) fun _ => At .done :=
  (Follows.separated (follows_orderingTerm h) ((follows_orderingTerm h).pre fun _ _ => ready_at)).bind
    fun _ => .pure fun _ _ hp => hp

theorem follows_cast (h : OperandsFollow op) : Follows Ready (cast op) fun _ => At .done := by
  refine (Follows.expectKeyword (.ready rfl)).bind fun _ =>
    (Follows.expect .opening (.at rfl)).bind fun _ => (h.next .all).bind fun _ =>
    (Follows.expectKeyword (.at rfl)).bind fun _ => Follows.typeName.bind fun type => ?_
  have hclose : Leads Typed .closing .done := by
    rintro p t ts (rfl | rfl) -
    · rfl
    · rfl
  cases type with
  | some type => exact follows_close hclose _
  | none => exact Follows.current.bind fun _ => .fail

theorem follows_caseBase (h : OperandsFollow op) :
    Follows (At .base) (caseBase op) fun _ p ts => p = .done ∨
      p = .base ∧ ts.head?.any (·.isKeyword .WHEN) = true :=
  .bindIf (.look (SameFront.head?_any _)) (.pure fun _ _ hp => .inr hp)
    (((h .all).pre fun _ _ => ready_base).bind fun _ => .pure fun _ _ hp => .inl hp)

theorem follows_caseArm (h : OperandsFollow op) :
    Follows (At .operand) (caseArm op) fun _ => At .done :=
  (h.next .all).bind fun _ => (Follows.expectKeyword (.at rfl)).bind fun _ => follows_operand h .all _

theorem follows_caseElse (h : OperandsFollow op) : Follows (At .done) (caseElse op) fun _ => At .done :=
  .bindIf (.eatKeyword (.at rfl)) (follows_operand h .all _) (.pure fun _ _ hp => hp)

theorem follows_caseExpression (h : OperandsFollow op) :
    Follows Ready (caseExpression op) fun _ => At .done := by
  refine (Follows.expectKeyword (.ready rfl)).bind fun _ => (follows_caseBase h).bind fun _ =>
    (Follows.expectKeyword ?_).bind fun _ => (follows_caseArm h).bind fun _ =>
    (Follows.loop (fun _ => .bindIf (.eatKeyword (.at rfl))
      ((follows_caseArm h).bind fun _ => .pure fun _ _ hp => hp) (.pure fun _ _ hp => hp)) _).bind
    fun _ => (follows_caseElse h).bind fun _ => (Follows.expectKeyword (.at rfl)).bind fun _ =>
    .pure fun _ _ hp => hp
  -- A `WHEN` leads to an operand with and without a base in front of it.
  rintro p t ts (rfl | ⟨rfl, -⟩) -
  · rfl
  · rfl

theorem follows_raiseAction : Follows (At .operand) raiseAction fun _ => At .done := by
  refine .bindIf (.eatKeyword (.at rfl)) (.pure fun _ _ hp => hp) <|
    (Follows.expectAnyKeyword (q := .done) (by decide)).bind fun _ =>
    (Follows.expect .comma (.at rfl)).bind fun _ =>
    (Follows.require (q := .done) ?_).bind fun _ => .pure fun _ _ hp => hp
  rintro p t ts rfl ht
  have hliteral : t.isLiteral = true := by simp [Token.isLiteral, eq_of_beq ht]
  exact ⟨Token.isParameter_of_beq ht (by decide), _, .of_isLiteral hliteral, rfl⟩

theorem follows_raise : Follows Ready raise fun _ => At .done :=
  (Follows.expectKeyword (.ready rfl)).bind fun _ => (Follows.expect .opening (.at rfl)).bind fun _ =>
    follows_raiseAction.bind fun _ => follows_close (.at rfl) _

theorem follows_parenthesized (h : OperandsFollow op) :
    Follows Ready (parenthesized op) fun _ => At .done := by
  refine .bindIf (.look front_startsSubquery) ?_ ?_
  · refine .subquery ?_ (.pure fun _ _ hp => hp)
    rintro p ts ⟨hp, hs⟩
    exact ⟨by rw [hp.1, Bool.true_or], hs⟩
  · refine (Follows.expectOpening.pre fun _ _ hp => ⟨.inl hp.1, hp.2⟩).bind fun _ =>
      (follows_list h).bind fun items => (Follows.expect .closing (.at rfl)).bind fun _ => ?_
    split <;> exact .pure fun _ _ hp => hp

/-- A name in front of an operand's other tokens is an operand itself. -/
theorem tokenLeads_name {g : Token → Bool} (hg : ∀ t, g t = true → t.isIdentifier = true)
    (hkeyword : ∀ t k, g t = true → t.keyword = some k →
      Place.beforeOperand (.keyword k) = some .done) : TokenLeads Ready g .done :=
  .of_name hg (.ready rfl) fun t k ht hk => .ready (hkeyword t k ht hk)

/-- Keywords that can name a column or a function are operands. -/
theorem beforeOperand_of_name {k : Keyword}
    (h : (callableKeywords.contains k || !k.isReserved) = true) :
    Place.beforeOperand (.keyword k) = some .done := by
  have hall : ∀ k ∈ Keyword.all, (callableKeywords.contains k || !k.isReserved) = true →
      Place.beforeOperand (.keyword k) = some .done := by
    decide +kernel
  exact hall k (Keyword.mem_all k) h

theorem follows_columnOperand (context : Context) :
    Follows Ready (columnOperand context) fun _ => At .done := by
  have hcolumn : TokenLeads Ready isColumnName .done := by
    refine tokenLeads_name (fun _ ht => (Bool.and_eq_true_iff.1 ht).1) fun t k ht hk => ?_
    have hfree : k.isReserved = false := by
      simpa [hk] using (Bool.and_eq_true_iff.1 ht).2
    exact beforeOperand_of_name (by simp [hfree])
  have hname : TokenLeads (At .name) (·.isIdentifier) .done :=
    .of_name (fun _ ht => ht) (.at rfl) fun _ _ _ _ => .at rfl
  refine Follows.bind (Q := fun _ => At .done) ?_ fun _ => (Follows.ofExcept _).bind fun _ =>
    .pure fun _ _ hp => hp
  exact (Follows.require hcolumn).bind fun _ => .bindIf (.eat .point (.at rfl))
    ((Follows.require hname).bind fun _ => .bindIf (.look (SameFront.head?_any _)) .fail
      (.pure fun _ _ hp => hp.1))
    (.pure fun _ _ hp => hp)

/-! ### Windows -/

theorem follows_frameBound (h : OperandsFollow op) {directions : List Keyword}
    (hd : ∀ k ∈ directions, Place.done.step (.keyword k) = some .done) :
    Follows (At .operand) (frameBound op directions) fun _ => At .done :=
  .bindIf (.eatKeyword (.at rfl))
    ((Follows.expectKeyword (.at rfl)).bind fun _ => .pure fun _ _ hp => hp)
    (.bindIf (.eatKeyword (.at rfl))
      ((Follows.expectAnyKeyword hd).bind fun _ => .pure fun _ _ hp => hp)
      ((h.next .exceptAnd).bind fun _ => (Follows.expectAnyKeyword hd).bind fun _ =>
        .pure fun _ _ hp => hp))

theorem follows_frameExtent (h : OperandsFollow op) :
    Follows (At .operand) (frameExtent op) fun _ => At .done :=
  .bindIf (.eatKeyword (.at rfl))
    ((follows_frameBound h (by decide)).bind fun _ => (Follows.expectKeyword (.at rfl)).bind fun _ =>
      follows_frameBound h (by decide))
    (follows_frameBound h (by decide))

theorem follows_frameExclusion : Follows (At .done) frameExclusion fun _ => At .done := by
  refine .bindIf (.eatKeyword (q := .done) (.at rfl))
    ((Follows.expectAnyKeyword (q := .done) (by decide)).bind fun _ => ?_) (.pure fun _ _ hp => hp)
  split
  · exact (Follows.expectKeyword (.at rfl)).bind fun _ => .pure fun _ _ hp => hp
  · exact (Follows.expectKeyword (.at rfl)).bind fun _ => .pure fun _ _ hp => hp
  · exact .pure fun _ _ hp => hp

/-- In front of the clauses of a window, with or without the name of a base window. -/
def AtClause : Assertion := fun p _ => p = .window ∨ p = .done

theorem follows_openClause {t : Token} {k : Keyword} (hk : t.keyword = some k)
    (hq : Leads AtClause (.keyword k) q) (name : String) (seen : Bool) :
    Follows (fun p ts => AtClause p ts ∧ ts.head? = some t) (openClause name seen t)
      fun _ => At q :=
  .ite .fail <| (Follows.advance (.keyword (Token.isKeyword_iff_keyword.2 hk)) nofun hq).bind
    fun _ => .pure fun _ _ hp => hp

theorem follows_windowClause (h : OperandsFollow op) (seen : WindowClauses) :
    Follows AtClause (windowClause op seen) fun _ => AtClause := by
  have hclause {k : Keyword} {q : Place} (hw : Place.window.step (.keyword k) = some q)
      (hd : Place.done.step (.keyword k) = some q) : Leads AtClause (.keyword k) q := by
    rintro p t ts (rfl | rfl) -
    · exact hw
    · exact hd
  refine Follows.current.bind fun token => ?_
  split
  · next hk =>
    exact (follows_openClause hk (hclause rfl rfl) _ _).bind fun _ =>
      (Follows.expectKeyword (.at rfl)).bind fun _ => (follows_nextList h).bind fun _ =>
      .pure fun _ _ hp => .inr hp
  · next hk =>
    exact (follows_openClause hk (hclause rfl rfl) _ _).bind fun _ =>
      (Follows.expectKeyword (.at rfl)).bind fun _ =>
      ((follows_orderingTerms h).pre fun _ _ => ready_at).bind fun _ => .pure fun _ _ hp => .inr hp
  all_goals first
    | exact .pure fun _ _ hp => hp.1
    | next hk =>
      exact (follows_openClause hk (hclause rfl rfl) _ _).bind fun _ =>
        (follows_frameExtent h).bind fun _ => follows_frameExclusion.bind fun _ =>
        .pure fun _ _ hp => .inr hp

theorem follows_windowDefinition (h : OperandsFollow op) :
    Follows (At .windowed) (windowDefinition op) fun _ => At .done := by
  have hbase : TokenLeads (At .window) isBaseWindow .done := by
    refine .of_name (fun _ ht => (Bool.and_eq_true_iff.1 ht).1) (.at rfl) fun t k ht hk => .at ?_
    have hname := (Bool.and_eq_true_iff.1 ht).2
    have hkeyword := Token.isKeyword_iff_keyword.2 hk
    cases k
    case RANGE => simp [frameUnits, hkeyword] at hname
    case ROWS => simp [frameUnits, hkeyword] at hname
    case GROUPS => simp [frameUnits, hkeyword] at hname
    all_goals rfl
  have hclose : Leads AtClause .closing .done := by
    rintro p t ts (rfl | rfl) -
    · rfl
    · rfl
  refine (Follows.expect .opening (.at rfl)).bind fun _ =>
    Follows.bind (Q := fun _ => AtClause) ((Follows.accept hbase).post fun o p ts hp => ?_) fun _ =>
    (Follows.loop (follows_windowClause h) _).bind fun _ => follows_close hclose _
  cases o with
  | some t => exact .inr hp
  | none => exact .inl hp

theorem follows_overClause (h : OperandsFollow op) :
    Follows (At .windowed) (overClause op) fun _ => At .done := by
  have hname : TokenLeads (At .windowed) (·.isIdentifier) .done :=
    .of_name (fun _ ht => ht) (.at rfl) fun _ _ _ _ => .at rfl
  exact .bindIf (.look (SameFront.head?_any _)) ((follows_windowDefinition h).pre fun _ _ hp => hp.1)
    (((Follows.require hname).pre fun _ _ hp => hp.1).bind fun _ => .pure fun _ _ hp => hp)

/-! ### Functions -/

/-- Behind the arguments of a function, or where there are none. -/
def Listed : Assertion := fun p _ => p = .operand ∨ p = .done

theorem follows_probe (h : OperandsFollow op) :
    Follows (At .operand) (probe op) fun o => cond o.isSome (At .done) (At .operand) :=
  .bindIf (.look front_mayStart)
    (((h.next .all).pre fun _ _ hp => hp.1).bind fun _ => .pure fun _ _ hp => hp)
    (.pure fun _ _ hp => hp.1)

theorem follows_functionArguments (h : OperandsFollow op) :
    Follows (At .operand) (functionArguments op) fun _ => Listed := by
  refine .bindIf (.eat (q := .done) .star (.at rfl)) (.pure fun _ _ hp => .inr hp) <|
    Follows.bind (Q := fun _ => At .operand)
      ((Follows.eatKeyword (q := .operand) (.at rfl)).post fun b p ts hp => ?_) fun distinct =>
    (follows_probe h).bind fun first => ?_
  · cases b <;> exact hp
  · cases first with
    | some _ =>
      refine (Follows.loop (fun _ => .bindIf (.eat .comma (.at rfl)) (follows_operand h .all _)
        (.pure fun _ _ hp => hp)) _).post fun _ _ _ hp => .inr hp
    | none => exact .ite (Follows.current.bind fun _ => .fail) (.pure fun _ _ hp => .inl hp)

theorem follows_filterClause (h : OperandsFollow op) :
    Follows (At .done) (filterClause op) fun _ => At .done :=
  .bindIf (.eatKeyword (.at rfl))
    ((Follows.expect .opening (.at rfl)).bind fun _ => (Follows.expectKeyword (.at rfl)).bind fun _ =>
      (h.next .all).bind fun _ => follows_close (.at rfl) _)
    (.pure fun _ _ hp => hp)

theorem follows_windowOf (h : OperandsFollow op) : Follows (At .done) (windowOf op) fun _ => At .done :=
  .bindIf (.eatKeyword (.at rfl)) (follows_overClause h) (.pure fun _ _ hp => hp)

theorem follows_functionCall (h : OperandsFollow op) :
    Follows (fun p ts => Ready p ts ∧ startsFunction ts = true) (functionCall op)
      fun _ => At .done := by
  have hname : TokenLeads (fun p ts => Ready p ts ∧ startsFunction ts = true) (fun _ => true)
      .done := by
    rintro p t (_ | ⟨paren, ts⟩) ⟨hp, hstarts⟩ -
    · cases hstarts
    · have hname : isFunctionName t = true := (Bool.and_eq_true_iff.1 hstarts).2
      refine tokenLeads_name (g := isFunctionName) (fun t ht => (Bool.and_eq_true_iff.1 ht).1)
        (fun t k ht hk => ?_) p t (paren :: ts) hp hname
      have hcallable := (Bool.and_eq_true_iff.1 ht).2
      rw [hk, Option.all_some] at hcallable
      refine beforeOperand_of_name ?_
      rcases Bool.or_eq_true_iff.1 hcallable with h | h
      · rw [h, Bool.true_or]
      · rw [(Bool.and_eq_true_iff.1 h).1, Bool.or_true]
  have hclose : Leads Listed .closing .done := by
    rintro p t ts (rfl | rfl) -
    · rfl
    · rfl
  exact (Follows.require hname).bind fun _ => (Follows.expect .opening (.at rfl)).bind fun _ =>
    (follows_functionArguments h).bind fun _ => (Follows.expect .closing hclose).bind fun _ =>
    (follows_filterClause h).bind fun _ => (follows_windowOf h).bind fun _ => .pure fun _ _ hp => hp

/-! ### Operands and their clauses -/

theorem follows_simpleOperand (context : Context) (h : OperandsFollow op) (token : Token) :
    Follows (fun p ts => Ready p ts ∧ ts.head? = some token) (simpleOperand context op token)
      fun _ => At .done := by
  unfold simpleOperand
  split
  · exact (follows_cast h).pre fun _ _ hp => hp.1
  · next hk =>
    refine .existence ?_ (.pure fun _ _ hp => hp)
    rintro p ts ⟨hp, hs⟩
    refine ⟨hp, ?_⟩
    rw [hs]
    exact Token.isKeyword_iff_keyword.2 hk
  · exact (follows_caseExpression h).pre fun _ _ hp => hp.1
  · exact follows_raise.pre fun _ _ hp => hp.1
  · next hk =>
    exact (Follows.advance (.keyword (Token.isKeyword_iff_keyword.2 hk)) nofun (.ready rfl)).bind
      fun _ => follows_operand h _ _
  · refine .ite ((follows_parenthesized h).pre fun _ _ hp => hp.1) ?_
    split
    · next hunary =>
      exact (Follows.advance (.unary hunary) nofun (.ready rfl)).bind fun _ => follows_operand h _ _
    · exact (follows_columnOperand context).pre fun _ _ hp => hp.1

theorem follows_primary (context : Context) (h : OperandsFollow op) :
    Follows Ready (primary context op) fun _ => At .done := by
  refine Follows.literalValue.bind fun literal => ?_
  cases literal with
  | some token => exact .pure fun _ _ hp => hp
  | none =>
    refine Follows.current.bind fun token => ?_
    split
    · next htoken => exact .registered htoken fun _ => .pure fun _ _ hp => hp
    · exact .bindIf (.look front_startsFunction)
        ((follows_functionCall h).pre fun _ _ hp => ⟨hp.1.1, hp.2⟩)
        ((follows_simpleOperand context h token).pre fun _ _ hp => hp.1)

theorem follows_inTarget (context : Context) (h : OperandsFollow op) :
    Follows (At .target) (inTarget context op) fun _ => At .done := by
  have hname : TokenLeads (At .target) (·.isIdentifier) .done :=
    .of_name (fun _ ht => ht) (.at rfl) fun _ _ _ _ => .at rfl
  have htable : Follows (At .done) (expect "(") fun _ => Ready :=
    (Follows.expect .opening (.at rfl)).post fun _ _ _ => ready_at
  refine .bindIf (.look front_startsSubquery) (.subquery ?_ (.pure fun _ _ hp => hp)) <|
    .bindIf (.look (SameFront.head?_any _)) (follows_arguments h (Follows.expectOpening.pre ?_)) <|
    ((Follows.require hname).pre fun _ _ hp => hp.1.1).bind fun _ => .bindIf
      (.look (SameFront.head?_any _))
      ((follows_arguments h htable).pre fun _ _ hp => hp.1)
      (.ite (.pure fun _ _ hp => hp.1) .fail)
  · rintro p ts ⟨rfl, hs⟩
    exact ⟨rfl, hs⟩
  · rintro p ts ⟨⟨hp, hs⟩, -⟩
    exact ⟨.inr hp, hs⟩

theorem follows_escapeClause (h : OperandsFollow op) :
    Follows (At .done) (escapeClause op) fun _ => At .done :=
  .bindIf (.eatKeyword (.at rfl)) (follows_operand h _ _) (.pure fun _ _ hp => hp)

theorem follows_distinctFrom : Follows (At .operand) distinctFrom fun _ => At .operand :=
  .bindIf (.eatKeyword (.at rfl))
    ((Follows.expectKeyword (.at rfl)).bind fun _ => .pure fun _ _ hp => hp) (.pure fun _ _ hp => hp)

/-- A keyword that is read whether it is there or not, and leads nowhere else. -/
theorem follows_optional {k : Keyword} (h : p.step (.keyword k) = some p) :
    Follows (At p) (eatKeyword k) fun _ => At p :=
  (Follows.eatKeyword (.at h)).post fun b _ _ hp => by cases b <;> exact hp

theorem follows_trailingClause (context : Context) (h : OperandsFollow op) :
    Follows (At .done) (trailingClause context op) fun _ => At .done := by
  refine Follows.bind (.look SameFront.head?) fun next => ?_
  -- Every clause starts with a keyword.
  have hadvance {expected : String} {k : Keyword} {q : Place}
      (hk : next.bind Token.keyword = some k) (hq : Place.done.step (.keyword k) = some q) :
      Follows (fun p ts => At .done p ts ∧ ts.head? = next) (advance expected) fun _ => At q := by
    obtain ⟨t, rfl, ht⟩ := Option.bind_eq_some_iff.1 hk
    exact Follows.advance (.keyword (Token.isKeyword_iff_keyword.2 ht)) nofun (.at hq)
  split
  · next hk =>
    exact (hadvance hk rfl).bind fun _ => (Follows.collation _).bind fun _ => .pure fun _ _ hp => hp
  · next hk =>
    refine .bindIf (.look (SameFront.second_any _)) ?_ (.pure fun _ _ hp => hp.1.1)
    exact ((hadvance hk rfl).pre fun _ _ hp => hp.1).bind fun _ =>
      (follows_optional rfl).bind fun _ => .pure fun _ _ hp => hp
  · next hk =>
    exact (hadvance hk rfl).bind fun _ => (h.next _).bind fun _ => (follows_escapeClause h).bind
      fun _ => .pure fun _ _ hp => hp
  all_goals first
    | exact .pure fun _ _ hp => hp.1
    | next hk => exact (hadvance hk rfl).bind fun _ => .pure fun _ _ hp => hp
    | next hk => exact (hadvance hk rfl).bind fun _ => follows_operand h _ _
    | next hk =>
      exact (hadvance hk rfl).bind fun _ => (follows_optional rfl).bind fun _ =>
        follows_distinctFrom.bind fun _ => follows_operand h _ _
    | next hk =>
      exact (hadvance hk rfl).bind fun _ => (h.next _).bind fun _ =>
        (Follows.expectKeyword (.at rfl)).bind fun _ => follows_operand h _ _
    | next hk =>
      exact (hadvance hk rfl).bind fun _ => (follows_inTarget context h).bind fun _ =>
        .pure fun _ _ hp => hp

theorem follows_trailingClauses (context : Context) (h : OperandsFollow op) :
    Follows (At .done) (trailingClauses context op) fun _ => At .done :=
  .loop (fun _ => .bindIf (b := trailingClause context op) (B := fun _ => At .done)
    (follows_trailingClause context h) (.pure fun _ _ hp => hp) (.pure fun _ _ hp => hp)) _

theorem follows_chained (h : OperandsFollow op) (chain : Chain) :
    Follows (At .done) (chained op chain) fun _ => At .done := by
  refine .bindIf (.look (SameFront.head?_any _))
    ((Follows.require (q := .operand) ?_).bind fun _ => follows_operand h _ _)
    (.pure fun _ _ hp => hp.1)
  rintro p t ts ⟨rfl, hbinary⟩ -
  have hrole : t.HasRole .binary := .binary (Bool.and_eq_true_iff.1 hbinary).1
  exact ⟨hrole.isParameter nofun, _, hrole, rfl⟩

theorem follows_layer (context : Context) (h : OperandsFollow op) : OperandsFollow (layer context op) :=
  fun chain => (follows_primary context h).bind fun _ => (follows_trailingClauses context h).bind
    fun _ => (follows_chained h chain).bind fun _ => .pure fun _ _ hp => hp

theorem follows_within (context : Context) (depth : Nat) : OperandsFollow (within context depth) := by
  induction depth with
  | zero => exact fun _ => .fail
  | succ depth ih => exact follows_layer context ih

theorem follows_parse (context : Context) : OperandsFollow (parse context) := by
  intro chain p s e t hp h
  obtain ⟨q, read, hq, hpath, hcovers⟩ := follows_within context s.rest.length chain p s e t hp h
  exact ⟨q, read, hq, hpath, hcovers.rest, hcovers.registers, fun read' rest' hread hrest =>
    parse_of_within (hcovers.again read' rest' hread hrest)⟩

end SqliteSchema.Expr
