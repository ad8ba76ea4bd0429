import SqliteSchema.Expr.Unfold
import SqliteSchema.Proofs.Parser.Mirror

/-!
Expressions on tokens that are alike. Every part of an expression mirrors itself where its operands
do, and so do whole expressions, whose nesting is bounded by a number of tokens that need not be the
same. Two contexts may differ as long as they know the same tables and answer alike to references
that are alike.
-/
namespace SqliteSchema.Expr

open SqliteSchema.Parser

variable {c : Comparison} {op op' : Operand} {context context' : Context}

/-! ### References and contexts -/

/-- References whose tokens are alike. -/
structure SameReference (c : Comparison) (r r' : ColumnReference) : Prop where
  table : Option.Rel c.Like r.table r'.table
  column : c.Like r.column r'.column

theorem SameReference.name {r r' : ColumnReference} (h : SameReference c r r') :
    c.Spelled r.name r'.name :=
  h.column.unquoted

/-- Expressions that turned out to be the same. -/
inductive Like (c : Comparison) : Expr → Expr → Prop
  | literal {t t' : Token} (ht : c.Like t t') : Like c (.literal t) (.literal t')
  | parameter (number : Nat) : Like c (.parameter number) (.parameter number)
  | column {r r' : ColumnReference} (hr : SameReference c r r') : Like c (.column r) (.column r')
  | function {name name' : String} (h : c.Spelled name name') :
    Like c (.function name) (.function name')
  | compound : Like c .compound .compound

theorem Like.eq {e e' : Expr} (h : Like c e e') (hv : c.verbatim) (hp : c.placed) : e = e' := by
  cases h with
  | literal ht => rw [ht.eq hv hp]
  | parameter => rfl
  | column hr =>
    obtain ⟨htable, hcolumn⟩ := hr
    rename_i r r'
    obtain ⟨table, column⟩ := r
    obtain ⟨table', column'⟩ := r'
    cases hcolumn.eq hv hp
    cases htable with
    | none => rfl
    | some ht => rw [ht.eq hv hp]
  | function h => rw [h.eq hv]
  | compound => rfl

/-- Contexts that know the same tables and answer alike. -/
structure SameContext (c : Comparison) (context context' : Context) : Prop where
  known : ∀ name name', c.Spelled name name' →
    (context.registry.find? name).isSome = (context'.registry.find? name').isSome
  check : ∀ r r', SameReference c r r' → SameResult c Eq
    (context.scope.check context.registry r) (context'.scope.check context'.registry r')

theorem find?_congr (registry : Registry) {name name' : String} (h : c.Spelled name name') :
    registry.find? name = registry.find? name' := by
  unfold Registry.find? Table.isNamed
  rw [funext fun t : Table => h.sameName_left t.sqlName]

theorem hasColumn_congr (table : Table) {name name' : String} (h : c.Spelled name name') :
    table.hasColumn name = table.hasColumn name' := by
  unfold Table.hasColumn Table.column? Column.isNamed
  rw [funext fun column : Column => h.sameName_left column.sqlName,
    funext fun rowid : String => h.sameName_left rowid]

theorem sameResult_requireColumn (owner : Table) {r r' : ColumnReference}
    (h : SameReference c r r') :
    SameResult c Eq (Scope.requireColumn owner r) (Scope.requireColumn owner r') := by
  unfold Scope.requireColumn
  rw [← hasColumn_congr owner h.name]
  split
  · exact .ok rfl
  · exact .error (.atToken rfl (fun hv => by rw [h.name.eq hv]) h.column)

/-- Entries of the same tables under names that mean the same. -/
structure SameSource (c : Comparison) (s s' : Source) : Prop where
  name : c.Spelled s.name s'.name
  table : s.table = s'.table

section Sources

variable {sources sources' : List Source}

theorem countP_congr_sources (h : List.Forall₂ (SameSource c) sources sources')
    {name name' : String} (hname : c.Spelled name name') :
    sources.countP (·.table.hasColumn name) = sources'.countP (·.table.hasColumn name') := by
  induction h with
  | nil => rfl
  | cons hs _ ih => rw [List.countP_cons, List.countP_cons, ih, hs.table, hasColumn_congr _ hname]

theorem sameResult_requireOneOwner (h : List.Forall₂ (SameSource c) sources sources')
    {r r' : ColumnReference} (hr : SameReference c r r') :
    SameResult c Eq (Scope.requireOneOwner sources r) (Scope.requireOneOwner sources' r') := by
  unfold Scope.requireOneOwner
  rw [← countP_congr_sources h hr.name]
  split
  · exact .error (.atToken rfl (fun hv => by rw [hr.name.eq hv]) hr.column)
  · exact .ok rfl
  · exact .error (.atToken rfl (fun hv => by rw [hr.name.eq hv]) hr.column)

theorem findIdx?_congr_sources (h : List.Forall₂ (SameSource c) sources sources')
    {p p' : Source → Bool} (hp : ∀ s s', SameSource c s s' → p s = p' s') :
    sources.findIdx? p = sources'.findIdx? p' := by
  induction h with
  | nil => rfl
  | cons hs _ ih => rw [List.findIdx?_cons, List.findIdx?_cons, ih, hp _ _ hs]

/-- A qualifier means entries with the same index. -/
theorem position?_congr (h : List.Forall₂ (SameSource c) sources sources')
    {name name' : String} (hname : c.Spelled name name') :
    Source.position? sources name = Source.position? sources' name' := by
  have hnames : ∀ s s', SameSource c s s' → sameName s.name name = sameName s'.name name' :=
    fun s s' hs => (hname.sameName_left s.name).trans (hs.name.sameName_right name')
  have htables : ∀ s s', SameSource c s s' → s.table.isNamed name = s'.table.isNamed name' := by
    intro s s' hs
    rw [hs.table]
    exact hname.sameName_left _
  unfold Source.position?
  rw [findIdx?_congr_sources h hnames, findIdx?_congr_sources h htables]

theorem rel_getElem? (h : List.Forall₂ (SameSource c) sources sources') (i : Nat) :
    Option.Rel (SameSource c) sources[i]? sources'[i]? := by
  induction h generalizing i with
  | nil => exact .none
  | cons hs _ ih =>
    cases i with
    | zero => exact .some hs
    | succ i => exact ih i

theorem rel_find? (h : List.Forall₂ (SameSource c) sources sources')
    {name name' : String} (hname : c.Spelled name name') :
    Option.Rel (SameSource c) (Source.find? sources name) (Source.find? sources' name') := by
  unfold Source.find?
  rw [← position?_congr h hname]
  cases Source.position? sources name with
  | none => exact .none
  | some i => exact rel_getElem? h i

/-- Queries on the same tables under names that mean the same. -/
theorem sameContext_sources (registry : Registry)
    (h : List.Forall₂ (SameSource c) sources sources') :
    SameContext c ⟨registry, .sources sources⟩ ⟨registry, .sources sources'⟩ := by
  constructor
  · intro name name' hname
    rw [find?_congr registry hname]
  · rintro ⟨table, column⟩ ⟨table', column'⟩ hr
    have htable := hr.table
    dsimp only at htable
    cases htable with
    | none => exact sameResult_requireOneOwner h hr
    | @some table table' ht =>
      have hfind := rel_find? h ht.unquoted
      unfold Scope.check
      dsimp only
      generalize Source.find? sources table.unquoted = s,
        Source.find? sources' table'.unquoted = s' at hfind
      cases hfind with
      | none => exact .error (.atToken rfl (fun hv => by rw [ht.unquoted.eq hv]) ht)
      | some hs =>
        dsimp only
        rw [← hs.table]
        exact sameResult_requireColumn _ hr

end Sources

theorem SameContext.refl (context : Context) : SameContext c context context := by
  constructor
  · intro name name' hname
    rw [find?_congr context.registry hname]
  · obtain ⟨registry, scope⟩ := context
    rintro ⟨table, column⟩ ⟨table', column'⟩ hr
    have htable := hr.table
    dsimp only at htable
    cases scope with
    | deferred => exact .ok rfl
    | table owner =>
      cases htable with
      | none => exact sameResult_requireColumn owner hr
      | some ht =>
        unfold Scope.check
        dsimp only
        rw [← find?_congr registry ht.unquoted]
        split
        · exact sameResult_requireColumn _ hr
        · exact .error (.atToken rfl (fun hv => by rw [ht.unquoted.eq hv]) ht)
    | sources entries =>
      have hentries : List.Forall₂ (SameSource c) entries entries :=
        List.forall₂_same.2 fun s _ => ⟨.refl _, rfl⟩
      exact (sameContext_sources registry hentries).check ⟨table, column⟩ ⟨table', column'⟩ hr

/-! ### Operands -/

/-- The operands are the same on tokens that are alike. -/
def OperandsMirror (c : Comparison) (op op' : Operand) : Prop :=
  ∀ chain, Mirrors c (Like c) (op chain) (op' chain)

theorem mirrors_operand (h : OperandsMirror c op op') (chain : Chain) {α : Type} (a : α) :
    Mirrors c Eq (do let _ ← op chain; return a) (do let _ ← op' chain; return a) :=
  (h chain).bind fun _ _ _ => .pure rfl

theorem mirrors_list (h : OperandsMirror c op op') :
    Mirrors c (List.Forall₂ (Like c)) (list op) (list op') :=
  (h .all).separated

theorem mirrors_arguments (h : OperandsMirror c op op') :
    Mirrors c Eq (arguments op) (arguments op') :=
  Mirrors.expect.bind fun _ _ _ => Mirrors.check.seq fun _ => .ite
    (Mirrors.expect.bind fun _ _ _ => .pure rfl)
    ((mirrors_list h).bind fun _ _ _ => Mirrors.expect.bind fun _ _ _ => .pure rfl)

theorem mirrors_nullsOrder : Mirrors c Eq nullsOrder nullsOrder :=
  Mirrors.eatKeyword.seq fun _ => .ite (Mirrors.expectAnyKeyword.seq fun _ => .pure rfl)
    (.pure rfl)

theorem mirrors_orderingTerm (h : OperandsMirror c op op') :
    Mirrors c Eq (orderingTerm op) (orderingTerm op') :=
  (h .all).bind fun _ _ _ => Mirrors.eatAnyKeyword.seq fun _ => mirrors_nullsOrder

theorem mirrors_orderingTerms (h : OperandsMirror c op op') :
    Mirrors c Eq (orderingTerms op) (orderingTerms op') :=
  (mirrors_orderingTerm h).separated.bind fun _ _ _ => .pure rfl

theorem mirrors_cast (h : OperandsMirror c op op') :
    Mirrors c (Like c) (cast op) (cast op') := by
  refine Mirrors.expectKeyword.bind fun _ _ _ => Mirrors.expect.bind fun _ _ _ =>
    (h .all).bind fun _ _ _ => Mirrors.expectKeyword.bind fun _ _ _ =>
    Mirrors.typeName.bind fun type type' htype => ?_
  cases htype with
  | some => exact Mirrors.expect.bind fun _ _ _ => .pure .compound
  | none => exact Mirrors.current.bind fun t t' ht => .fail (.unexpected ht)

theorem mirrors_caseBase (h : OperandsMirror c op op') :
    Mirrors c Eq (caseBase op) (caseBase op') :=
  Mirrors.checkKeyword.seq fun _ => .ite (.pure rfl) (mirrors_operand h .all _)

theorem mirrors_caseArm (h : OperandsMirror c op op') :
    Mirrors c Eq (caseArm op) (caseArm op') :=
  (h .all).bind fun _ _ _ => Mirrors.expectKeyword.bind fun _ _ _ => mirrors_operand h .all _

theorem mirrors_caseElse (h : OperandsMirror c op op') :
    Mirrors c Eq (caseElse op) (caseElse op') :=
  Mirrors.eatKeyword.seq fun _ => .ite (mirrors_operand h .all _) (.pure rfl)

theorem mirrors_caseExpression (h : OperandsMirror c op op') :
    Mirrors c (Like c) (caseExpression op) (caseExpression op') := by
  refine Mirrors.expectKeyword.bind fun _ _ _ => (mirrors_caseBase h).seq fun _ =>
    Mirrors.expectKeyword.bind fun _ _ _ => (mirrors_caseArm h).seq fun _ => .seq
    (.loop (fun _ _ _ => Mirrors.eatKeyword.seq fun _ => ?_) rfl) fun _ =>
    (mirrors_caseElse h).seq fun _ => Mirrors.expectKeyword.bind fun _ _ _ => .pure .compound
  exact .ite ((mirrors_caseArm h).seq fun _ => .pure (.some rfl)) (.pure .none)

theorem mirrors_raise : Mirrors c (Like c) raise raise := by
  have haction : Mirrors c Eq raiseAction raiseAction :=
    Mirrors.eatKeyword.seq fun _ => .ite (.pure rfl)
      (Mirrors.expectAnyKeyword.seq fun _ => Mirrors.expect.bind fun _ _ _ =>
        (Mirrors.require fun _ => rfl).bind fun _ _ _ => .pure rfl)
  exact Mirrors.expectKeyword.bind fun _ _ _ => Mirrors.expect.bind fun _ _ _ =>
    haction.seq fun _ => Mirrors.expect.bind fun _ _ _ => .pure .compound

/-- A group is not taken for a sub-query because of what stands behind a semicolon. -/
theorem mirrors_startsSubquery : Mirrors c Eq (look startsSubquery) (look startsSubquery) := by
  refine .look fun ts ts' h => ?_
  have htwo : ∀ us, startsSubquery us = (us[0]?.any (·.is "(") &&
      us[1]?.any fun t => t.isKeyword .SELECT || t.isKeyword .WITH) := by
    intro us
    rcases us with _ | ⟨t, _ | ⟨u, us⟩⟩ <;> simp [startsSubquery]
  rw [htwo, htwo]
  exact Mirrors.test_two (by simp) (by simp) (fun t ht => by simp [Token.is, ht]) h

theorem isIdentifier_semicolon {t : Token} (ht : t.value = ";") : t.isIdentifier = false := by
  have hinside : Literal.Quoted.inside? [';'] = none := by decide
  have hword : Token.startsWord ';' = false := by decide
  simp [Token.isIdentifier, Token.isQuoted, ht, hinside, hword]

@[simp] theorem isFunctionName_plain (t : Token) :
    isFunctionName t.plain = isFunctionName t := by
  simp [isFunctionName]

theorem startsFunction_eq (ts : List Token) :
    startsFunction ts = (ts[0]?.any isFunctionName && ts[1]?.any (·.is "(")) := by
  rcases ts with _ | ⟨t, _ | ⟨u, ts⟩⟩ <;> simp [startsFunction, Bool.and_comm]

theorem startsFunction_congr {ts ts' : List Token} (h : Near c ts ts') :
    startsFunction ts = startsFunction ts' := by
  rw [startsFunction_eq, startsFunction_eq]
  refine Mirrors.test_two (by simp) (by simp) (fun t ht => ?_) h
  rw [isFunctionName, isIdentifier_semicolon ht, Bool.false_and]

theorem mirrors_parenthesized (h : OperandsMirror c op op') :
    Mirrors c (Like c) (parenthesized op) (parenthesized op') := by
  refine mirrors_startsSubquery.seq fun _ => .ite
    (Mirrors.skipBalanced.bind fun _ _ _ => .pure .compound)
    (Mirrors.expect.bind fun _ _ _ => (mirrors_list h).bind fun items items' hitems =>
      Mirrors.expect.bind fun _ _ _ => ?_)
  rcases hitems with _ | ⟨hfirst, _ | ⟨_, _⟩⟩
  · exact .pure .compound
  · exact .pure hfirst
  · exact .pure .compound

@[simp] theorem isColumnName_plain (t : Token) : isColumnName t.plain = isColumnName t := by
  simp [isColumnName]

theorem mirrors_columnReference :
    Mirrors c (SameReference c) columnReference columnReference := by
  refine (Mirrors.require isColumnName_plain).bind fun t t' ht => Mirrors.eat.seq fun _ => .ite
    (Mirrors.expectIdentifier.bind fun u u' hu => Mirrors.check.seq fun _ => .ite
      (.fail (.atToken rfl (fun _ => rfl) ht)) (.pure ⟨.some ht, hu⟩))
    (.pure ⟨.none, ht⟩)

theorem mirrors_columnOperand (hcontext : SameContext c context context') :
    Mirrors c (Like c) (columnOperand context) (columnOperand context') :=
  mirrors_columnReference.bind fun r r' hr =>
    (Mirrors.ofExcept (hcontext.check r r' hr)).seq fun _ => .pure (.column hr)

theorem mirrors_frameBound (h : OperandsMirror c op op') (directions : List Keyword) :
    Mirrors c Eq (frameBound op directions) (frameBound op' directions) :=
  Mirrors.eatKeyword.seq fun _ => .ite
    (Mirrors.expectKeyword.bind fun _ _ _ => .pure rfl)
    (Mirrors.eatKeyword.seq fun _ => .ite
      (Mirrors.expectAnyKeyword.seq fun _ => .pure rfl)
      ((h .exceptAnd).bind fun _ _ _ => Mirrors.expectAnyKeyword.seq fun _ => .pure rfl))

theorem mirrors_frameExtent (h : OperandsMirror c op op') :
    Mirrors c Eq (frameExtent op) (frameExtent op') :=
  Mirrors.eatKeyword.seq fun _ => .ite
    ((mirrors_frameBound h _).seq fun _ => Mirrors.expectKeyword.bind fun _ _ _ =>
      mirrors_frameBound h _)
    (mirrors_frameBound h _)

theorem mirrors_frameExclusion : Mirrors c Eq frameExclusion frameExclusion := by
  refine Mirrors.eatKeyword.seq fun _ => .ite (Mirrors.expectAnyKeyword.seq fun _ => ?_) (.pure rfl)
  split
  · exact Mirrors.expectKeyword.bind fun _ _ _ => .pure rfl
  · exact Mirrors.expectKeyword.bind fun _ _ _ => .pure rfl
  · exact .pure rfl

theorem mirrors_openClause (name : String) (seen : Bool) {t t' : Token} (ht : c.Like t t') :
    Mirrors c Eq (openClause name seen t) (openClause name seen t') :=
  .ite (.fail (.atToken rfl (fun _ => rfl) ht)) (Mirrors.advance.bind fun _ _ _ => .pure rfl)

theorem mirrors_windowClause (h : OperandsMirror c op op') (seen : WindowClauses) :
    Mirrors c Eq (windowClause op seen) (windowClause op' seen) := by
  refine Mirrors.current.bind fun t t' ht => ?_
  rw [← ht.keyword]
  split
  · exact (mirrors_openClause _ _ ht).seq fun _ => Mirrors.expectKeyword.bind fun _ _ _ =>
      (mirrors_list h).bind fun _ _ _ => .pure rfl
  · exact (mirrors_openClause _ _ ht).seq fun _ => Mirrors.expectKeyword.bind fun _ _ _ =>
      (mirrors_orderingTerms h).seq fun _ => .pure rfl
  all_goals first
    | exact .pure rfl
    | exact (mirrors_openClause _ _ ht).seq fun _ => (mirrors_frameExtent h).seq fun _ =>
        mirrors_frameExclusion.seq fun _ => .pure rfl

theorem isBaseWindow_plain (t : Token) : isBaseWindow t.plain = isBaseWindow t := by
  simp [isBaseWindow, frameUnits]

theorem mirrors_windowDefinition (h : OperandsMirror c op op') :
    Mirrors c Eq (windowDefinition op) (windowDefinition op') := by
  refine Mirrors.expect.bind fun _ _ _ => (Mirrors.accept isBaseWindow_plain).bind fun _ _ _ =>
    .bind (V := Eq) (.loop (V := Eq) (fun seen seen' hs => ?_) rfl) fun _ _ _ =>
    Mirrors.expect.bind fun _ _ _ => .pure rfl
  subst hs
  refine (mirrors_windowClause h seen).imp fun a a' ha => ?_
  subst ha
  cases a with
  | none => exact .none
  | some a => exact .some rfl

theorem mirrors_overClause (h : OperandsMirror c op op') :
    Mirrors c Eq (overClause op) (overClause op') :=
  Mirrors.check.seq fun _ => .ite (mirrors_windowDefinition h)
    (Mirrors.expectIdentifier.bind fun _ _ _ => .pure rfl)

theorem startsExpression_plain (t : Token) : startsExpression t.plain = startsExpression t := by
  simp [startsExpression]

theorem mirrors_probe (h : OperandsMirror c op op') :
    Mirrors c (Option.Rel (Like c)) (probe op) (probe op') := by
  refine .seq (.look fun ts ts' hts => ?_) fun _ => .ite
    ((h .all).bind fun _ _ he => .pure (.some he)) (.pure .none)
  have hstarts : ∀ us, mayStart us = (us.head?.any startsExpression || startsFunction us) := by
    intro us
    cases us <;> simp [mayStart, startsFunction]
  rw [hstarts, hstarts, startsFunction_congr hts, Mirrors.test_head startsExpression_plain hts]

theorem mirrors_functionArguments (h : OperandsMirror c op op') :
    Mirrors c Eq (functionArguments op) (functionArguments op') := by
  refine Mirrors.eat.seq fun _ => .ite (.pure rfl) (Mirrors.eatKeyword.seq fun _ =>
    (mirrors_probe h).bind fun first first' hfirst => ?_)
  cases hfirst with
  | some _ =>
    refine .loop (fun _ _ _ => Mirrors.eat.seq fun _ => ?_) rfl
    exact .ite ((h .all).bind fun _ _ _ => .pure (.some rfl)) (.pure .none)
  | none =>
    exact .ite (Mirrors.current.bind fun t t' ht => .fail (.unexpected ht)) (.pure rfl)

theorem mirrors_filterClause (h : OperandsMirror c op op') :
    Mirrors c Eq (filterClause op) (filterClause op') :=
  Mirrors.eatKeyword.seq fun _ => .ite
    (Mirrors.expect.bind fun _ _ _ => Mirrors.expectKeyword.bind fun _ _ _ =>
      (h .all).bind fun _ _ _ => Mirrors.expect.bind fun _ _ _ => .pure rfl)
    (.pure rfl)

theorem mirrors_windowOf (h : OperandsMirror c op op') :
    Mirrors c Eq (windowOf op) (windowOf op') :=
  Mirrors.eatKeyword.seq fun _ => .ite (mirrors_overClause h) (.pure rfl)

theorem mirrors_functionCall (h : OperandsMirror c op op') :
    Mirrors c (Like c) (functionCall op) (functionCall op') :=
  Mirrors.advance.bind fun _ _ hname => Mirrors.expect.bind fun _ _ _ =>
    (mirrors_functionArguments h).seq fun _ => Mirrors.expect.bind fun _ _ _ =>
    (mirrors_filterClause h).seq fun _ => (mirrors_windowOf h).seq fun _ =>
    .pure (.function hname.unquoted)

theorem mirrors_simpleOperand (hcontext : SameContext c context context')
    (h : OperandsMirror c op op') {t t' : Token} (ht : c.Like t t') :
    Mirrors c (Like c) (simpleOperand context op t) (simpleOperand context' op' t') := by
  have hopen : t'.is "(" = t.is "(" := (ht.is "(").symm
  have hunary : t'.isUnary = t.isUnary := (ht.congr Token.isUnary_plain).symm
  unfold simpleOperand
  rw [← ht.keyword, hopen, hunary]
  split
  · exact mirrors_cast h
  · exact Mirrors.advance.bind fun _ _ _ => Mirrors.skipBalanced.bind fun _ _ _ => .pure .compound
  · exact mirrors_caseExpression h
  · exact mirrors_raise
  · exact Mirrors.advance.bind fun _ _ _ => (h _).bind fun _ _ _ => .pure .compound
  · exact .ite (mirrors_parenthesized h) (.ite
      (Mirrors.advance.bind fun _ _ _ => (h _).bind fun _ _ _ => .pure .compound)
      (mirrors_columnOperand hcontext))

theorem mirrors_boundParameter {t t' : Token} (ht : c.Like t t') (hp : t.isParameter = true) :
    Mirrors c (Like c) (boundParameter t) (boundParameter t') := by
  refine Mirrors.advance.bind fun _ _ _ => (Mirrors.register ht hp).bind fun n n' hn => .pure ?_
  rw [hn]
  exact .parameter n'

theorem mirrors_primary (hcontext : SameContext c context context')
    (h : OperandsMirror c op op') :
    Mirrors c (Like c) (primary context op) (primary context' op') := by
  refine Mirrors.literalValue.bind fun literal literal' hl => ?_
  cases hl with
  | some ht => exact .pure (.literal ht)
  | none =>
    refine Mirrors.current.bind fun t t' ht => ?_
    rw [← ht.congr Token.isParameter_plain]
    by_cases hp : t.isParameter = true
    · rw [if_pos hp, if_pos hp]
      exact mirrors_boundParameter ht hp
    · rw [if_neg hp, if_neg hp]
      exact (Mirrors.look fun _ _ h => startsFunction_congr h).seq fun _ => .ite
        (mirrors_functionCall h) (mirrors_simpleOperand hcontext h ht)

theorem mirrors_inTarget (hcontext : SameContext c context context')
    (h : OperandsMirror c op op') :
    Mirrors c Eq (inTarget context op) (inTarget context' op') := by
  refine mirrors_startsSubquery.seq fun _ => .ite (Mirrors.skipBalanced.bind fun _ _ _ => .pure rfl)
    (Mirrors.check.seq fun _ => .ite (mirrors_arguments h)
      (Mirrors.expectIdentifier.bind fun t t' ht => Mirrors.check.seq fun _ =>
        .ite (mirrors_arguments h) ?_))
  have hname := ht.unquoted
  rw [← hcontext.known _ _ hname]
  exact .ite (.pure rfl) (.fail (.atToken rfl (fun hv => by rw [hname.eq hv]) ht))

theorem mirrors_escapeClause (h : OperandsMirror c op op') :
    Mirrors c Eq (escapeClause op) (escapeClause op') :=
  Mirrors.eatKeyword.seq fun _ => .ite (mirrors_operand h _ _) (.pure rfl)

theorem mirrors_distinctFrom : Mirrors c Eq distinctFrom distinctFrom :=
  Mirrors.eatKeyword.seq fun _ => .ite (Mirrors.expectKeyword.bind fun _ _ _ => .pure rfl)
    (.pure rfl)

theorem mirrors_trailingClause (hcontext : SameContext c context context')
    (h : OperandsMirror c op op') :
    Mirrors c Eq (trailingClause context op) (trailingClause context' op') := by
  -- Only a `NOT` makes the parser look at the token behind it.
  let second : Token → Bool := fun t => negatable.any t.isKeyword
  let negated : Parser Bool := do
    if ← look fun ts => ts[0]?.any (·.isKeyword .NOT) && ts[1]?.any second then
      let _ ← advance "NOT"
      let _ ← eatKeyword .NULL
      return true
    else return false
  have hnegated : Mirrors c Eq negated negated := by
    refine .seq (.look fun ts ts' hts => ?_) fun _ => .ite
      (Mirrors.advance.bind fun _ _ _ => Mirrors.eatKeyword.seq fun _ => .pure rfl) (.pure rfl)
    have hsecond (t : Token) : second t.plain = second t := by
      change negatable.any t.plain.isKeyword = negatable.any t.isKeyword
      rw [funext t.isKeyword_plain]
    exact Mirrors.test_two (fun t => t.isKeyword_plain .NOT) hsecond
      (fun t ht => Token.isKeyword_semicolon ht .NOT) hts
  have hkeyword {t : Token} (ht : t.isKeyword .NOT = true) :
      (some t).bind Token.keyword = some .NOT :=
    Token.isKeyword_iff_keyword.1 ht
  have hguard {s : ParseState} {t : Token} (hs : s.rest.head? = some t)
      (ht : t.isKeyword .NOT = true) : s.rest[0]?.any (·.isKeyword .NOT) = true := by
    rw [← List.head?_eq_getElem?, hs]
    exact ht
  refine Mirrors.peek_cases (b := (·.isKeyword .NOT)) (r := negated)
    (fun t => t.isKeyword_plain .NOT) ?_ ?_ hnegated fun t t' ht hnot => ?_
  · intro s t hs ht
    rw [hkeyword ht]
    exact Mirrors.look_guarded (hguard hs ht)
  · intro s t hs ht
    rw [hkeyword ht]
    exact Mirrors.look_guarded (hguard hs ht)
  · have hsame : t'.bind Token.keyword = t.bind Token.keyword := by
      cases ht with
      | none => rfl
      | some ht => exact ht.keyword.symm
    rw [hsame]
    split
    · exact Mirrors.advance.bind fun _ _ _ => Mirrors.collation.bind fun _ _ _ => .pure rfl
    · next hk =>
      obtain ⟨u, rfl, hu⟩ := Option.bind_eq_some_iff.1 hk
      rw [Option.any_some, Token.isKeyword_iff_keyword.2 hu] at hnot
      cases hnot
    · exact Mirrors.advance.bind fun _ _ _ => (h _).bind fun _ _ _ =>
        (mirrors_escapeClause h).seq fun _ => .pure rfl
    all_goals first
      | exact .pure rfl
      | exact Mirrors.advance.bind fun _ _ _ => .pure rfl
      | exact Mirrors.advance.bind fun _ _ _ => mirrors_operand h _ _
      | exact Mirrors.advance.bind fun _ _ _ => Mirrors.eatKeyword.seq fun _ =>
          mirrors_distinctFrom.seq fun _ => mirrors_operand h _ _
      | exact Mirrors.advance.bind fun _ _ _ => (h _).bind fun _ _ _ =>
          Mirrors.expectKeyword.bind fun _ _ _ => mirrors_operand h _ _
      | exact Mirrors.advance.bind fun _ _ _ => (mirrors_inTarget hcontext h).seq fun _ =>
          .pure rfl

theorem mirrors_trailingClauses (hcontext : SameContext c context context')
    (h : OperandsMirror c op op') :
    Mirrors c Eq (trailingClauses context op) (trailingClauses context' op') := by
  refine .loop (fun _ _ _ => (mirrors_trailingClause hcontext h).seq fun _ => ?_) rfl
  exact .ite (.pure (.some rfl)) (.pure .none)

@[simp] theorem admits_plain (chain : Chain) (t : Token) :
    chain.admits t.plain = chain.admits t := by
  cases chain <;> simp [Chain.admits]

theorem mirrors_chained (h : OperandsMirror c op op') (chain : Chain) :
    Mirrors c Eq (chained op chain) (chained op' chain) :=
  (Mirrors.test (by simp)).seq fun _ => .ite
    (Mirrors.advance.bind fun _ _ _ => mirrors_operand h _ _) (.pure rfl)

theorem mirrors_layer (hcontext : SameContext c context context')
    (h : OperandsMirror c op op') :
    OperandsMirror c (layer context op) (layer context' op') := fun chain =>
  (mirrors_primary hcontext h).bind fun first first' hfirst =>
    (mirrors_trailingClauses hcontext h).seq fun clauses =>
    (mirrors_chained h chain).seq fun more => .pure (by
      split
      · exact .compound
      · exact hfirst)

theorem mirrors_within (hcontext : SameContext c context context') (depth : Nat) :
    OperandsMirror c (within context depth) (within context' depth) := by
  induction depth with
  | zero => exact fun _ => .fail (.refl _)
  | succ depth ih => exact mirrors_layer hcontext ih

/-- The tokens ahead may be more than the ones that are alike, and depth does not matter. -/
theorem mirrors_parse (hcontext : SameContext c context context') :
    OperandsMirror c (parse context) (parse context') := by
  intro chain
  constructor
  · intro s a t hs
    exact (mirrors_within hcontext s.rest.length chain).suffix s a t hs
  · intro w w' s s' hw hs hin
    have hmirrors := mirrors_within hcontext (max s.rest.length s'.rest.length) chain
    rw [parse_eq_within context chain (Nat.le_max_left _ _)] at hin ⊢
    rw [parse_eq_within context' chain (Nat.le_max_right _ _)]
    exact hmirrors.mirror w w' s s' hw hs hin

theorem mirrors_deeper (context : Context) {depth depth' : Nat} (h : depth ≤ depth') :
    OperandsMirror .success (within context depth) (within context depth') := by
  induction depth generalizing depth' with
  | zero =>
    refine fun chain => ⟨fun s a t ha => ?_, fun w w' s s' _ _ _ => .excused trivial⟩
    cases ha
  | succ depth ih =>
    obtain ⟨d, rfl⟩ : ∃ d, depth' = d + 1 := ⟨depth' - 1, by omega⟩
    exact mirrors_layer (.refl context) (ih (Nat.le_of_succ_le_succ h))

/-- An expression that is read at some depth is read. -/
theorem parse_of_within {context : Context} {chain : Chain} {depth : Nat} {s t : ParseState}
    {e : Expr} (h : within context depth chain s = .ok e t) :
    parse context chain s = .ok e t := by
  rw [parse_eq_within context chain (Nat.le_max_right depth s.rest.length)]
  have hmatch := (mirrors_deeper context (Nat.le_max_left depth s.rest.length) chain).mirror [] []
    s s .nil (Alike.refl s)
  rw [h] at hmatch
  obtain ⟨e', t', hdeeper, he, ht⟩ := (hmatch List.nil_suffix).of_ok
  rw [hdeeper, he.eq trivial trivial, ht.eq trivial trivial]

end SqliteSchema.Expr
