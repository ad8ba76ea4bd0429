import SqliteSchema.Expr.Parse
import SqliteSchema.Parser.Agree

/-!
Why the nesting of expressions is bounded by the number of tokens. Every part of an expression
uses the parser of its operands only behind a token of its own, so that parsers which agree on
fewer tokens give the same layer. Hence `parse` satisfies the equation that one would like to
define it by, `parse_eq_layer`.
-/
namespace SqliteSchema.Expr

open SqliteSchema.Parser

variable {n : Nat} {op op' : Operand}

/-- Two parsers of operands agree on at most `n` tokens and read at least one on success. -/
def OperandsAgree (n : Nat) (op op' : Operand) : Prop :=
  ∀ chain, AgreeReading n (op chain) (op' chain)

theorem OperandsAgree.mono {m : Nat} (h : OperandsAgree n op op') (hm : m ≤ n) :
    OperandsAgree m op op' :=
  fun chain => (h chain).mono hm

theorem agree_operand (h : OperandsAgree n op op') (chain : Chain) {α : Type} (a : α) :
    Agree n (do let _ ← op chain; return a) (do let _ ← op' chain; return a) :=
  (h chain).agree.bind fun _ => .pure _

theorem agree_list (h : OperandsAgree n op op') : AgreeReading n (list op) (list op') :=
  (h .all).separated

theorem agree_arguments (h : OperandsAgree n op op') : Agree n (arguments op) (arguments op') :=
  (AgreeReading.expect _).agree.bind fun _ => (Agree.look _).bind fun _ => .ite
    ((AgreeReading.expect _).agree.bind fun _ => .pure _)
    ((agree_list h).agree.bind fun _ => (AgreeReading.expect _).agree.bind fun _ => .pure _)

theorem agree_nullsOrder : Agree n nullsOrder nullsOrder :=
  (Agree.eatKeyword _).bind fun _ => .ite
    ((Agree.expectAnyKeyword _).bind fun _ => .pure _) (.pure _)

theorem agree_orderingTerm (h : OperandsAgree n op op') :
    AgreeReading n (orderingTerm op) (orderingTerm op') :=
  (h .all).bind fun _ => (Agree.eatAnyKeyword _).bind fun _ => agree_nullsOrder

theorem agree_orderingTerms (h : OperandsAgree n op op') :
    AgreeReading n (orderingTerms op) (orderingTerms op') :=
  (agree_orderingTerm h).separated.bind fun _ => .pure _

theorem agree_cast (h : OperandsAgree n op op') : AgreeReading (n + 1) (cast op) (cast op') := by
  refine (AgreeReading.expectKeyword _).bindShorter fun _ =>
    (AgreeReading.expect _).agree.bind fun _ => (h .all).agree.bind fun _ =>
    (AgreeReading.expectKeyword _).agree.bind fun _ => Agree.typeName.bind fun type => ?_
  cases type with
  | some type => exact (AgreeReading.expect _).agree.bind fun _ => .pure _
  | none => exact (Agree.current _).bind fun _ => (AgreeReading.fail _).agree

theorem agree_caseBase (h : OperandsAgree n op op') : Agree n (caseBase op) (caseBase op') :=
  (Agree.look _).bind fun _ => .ite (.pure _) (agree_operand h .all _)

theorem agree_caseArm (h : OperandsAgree n op op') : Agree n (caseArm op) (caseArm op') :=
  (h .all).agree.bind fun _ => (AgreeReading.expectKeyword _).agree.bind fun _ =>
    agree_operand h .all _

theorem agree_caseElse (h : OperandsAgree n op op') : Agree n (caseElse op) (caseElse op') :=
  (Agree.eatKeyword _).bind fun _ => .ite (agree_operand h .all _) (.pure _)

theorem agree_caseExpression (h : OperandsAgree n op op') :
    AgreeReading (n + 1) (caseExpression op) (caseExpression op') :=
  (AgreeReading.expectKeyword _).bindShorter fun _ => (agree_caseBase h).bind fun _ =>
    (AgreeReading.expectKeyword _).agree.bind fun _ => (agree_caseArm h).bind fun _ =>
    (Agree.loop (fun _ => (Agree.eatKeyword _).bind fun _ => .ite
      ((agree_caseArm h).bind fun _ => .pure _) (.pure _)) _).bind fun _ =>
    (agree_caseElse h).bind fun _ => (AgreeReading.expectKeyword _).agree.bind fun _ => .pure _

theorem agree_raise : AgreeReading n raise raise := by
  refine (AgreeReading.expectKeyword _).bind fun _ => (AgreeReading.expect _).agree.bind fun _ =>
    Agree.bind ?_ fun _ => (AgreeReading.expect _).agree.bind fun _ => .pure _
  exact (Agree.eatKeyword _).bind fun _ => .ite (.pure _)
    ((Agree.expectAnyKeyword _).bind fun _ => (AgreeReading.expect _).agree.bind fun _ =>
      (AgreeReading.require _ _).agree.bind fun _ => .pure _)

theorem agree_parenthesized (h : OperandsAgree n op op') :
    AgreeReading (n + 1) (parenthesized op) (parenthesized op') := by
  refine (Agree.look _).bindReading fun _ => .ite
    (AgreeReading.skipBalanced.bind fun _ => .pure _)
    ((AgreeReading.expect _).bindShorter fun _ => (agree_list h).agree.bind fun items =>
      (AgreeReading.expect _).agree.bind fun _ => ?_)
  split <;> exact .pure _

theorem agree_columnOperand (context : Context) :
    AgreeReading n (columnOperand context) (columnOperand context) := by
  refine AgreeReading.bind ?_ fun _ => (Agree.ofExcept _).bind fun _ => .pure _
  exact (AgreeReading.require _ _).bind fun _ => (Agree.eat _).bind fun _ => .ite
    ((AgreeReading.expectIdentifier _).agree.bind fun _ => (Agree.look _).bind fun _ => .ite
      (AgreeReading.fail _).agree (.pure _))
    (.pure _)

theorem agree_frameBound (h : OperandsAgree n op op') (directions : List Keyword) :
    Agree n (frameBound op directions) (frameBound op' directions) :=
  (Agree.eatKeyword _).bind fun _ => .ite
    ((AgreeReading.expectKeyword _).agree.bind fun _ => .pure _)
    ((Agree.eatKeyword _).bind fun _ => .ite
      ((Agree.expectAnyKeyword _).bind fun _ => .pure _)
      ((h .exceptAnd).agree.bind fun _ => (Agree.expectAnyKeyword _).bind fun _ => .pure _))

theorem agree_frameExtent (h : OperandsAgree n op op') :
    Agree n (frameExtent op) (frameExtent op') :=
  (Agree.eatKeyword _).bind fun _ => .ite
    ((agree_frameBound h _).bind fun _ => (AgreeReading.expectKeyword _).agree.bind fun _ =>
      agree_frameBound h _)
    (agree_frameBound h _)

theorem agree_frameExclusion : Agree n frameExclusion frameExclusion := by
  refine (Agree.eatKeyword _).bind fun _ => .ite
    ((Agree.expectAnyKeyword _).bind fun _ => ?_) (.pure _)
  split
  · exact (AgreeReading.expectKeyword _).agree.bind fun _ => .pure _
  · exact (AgreeReading.expectKeyword _).agree.bind fun _ => .pure _
  · exact .pure _

theorem agree_openClause (name : String) (seen : Bool) (token : Token) :
    Agree n (openClause name seen token) (openClause name seen token) :=
  .ite (AgreeReading.fail _).agree ((AgreeReading.advance _).agree.bind fun _ => .pure _)

theorem agree_windowClause (h : OperandsAgree n op op') (seen : WindowClauses) :
    Agree n (windowClause op seen) (windowClause op' seen) := by
  refine (Agree.current _).bind fun token => ?_
  split
  · exact (agree_openClause _ _ _).bind fun _ => (AgreeReading.expectKeyword _).agree.bind fun _ =>
      (agree_list h).agree.bind fun _ => .pure _
  · exact (agree_openClause _ _ _).bind fun _ => (AgreeReading.expectKeyword _).agree.bind fun _ =>
      (agree_orderingTerms h).agree.bind fun _ => .pure _
  all_goals first
    | exact .pure _
    | exact (agree_openClause _ _ _).bind fun _ => (agree_frameExtent h).bind fun _ =>
        agree_frameExclusion.bind fun _ => .pure _

theorem agree_windowDefinition (h : OperandsAgree n op op') :
    Agree n (windowDefinition op) (windowDefinition op') :=
  (AgreeReading.expect _).agree.bind fun _ => (Agree.accept _).bind fun _ =>
    (Agree.loop (agree_windowClause h) _).bind fun _ =>
    (AgreeReading.expect _).agree.bind fun _ => .pure _

theorem agree_overClause (h : OperandsAgree n op op') : Agree n (overClause op) (overClause op') :=
  (Agree.look _).bind fun _ => .ite (agree_windowDefinition h)
    ((AgreeReading.expectIdentifier _).agree.bind fun _ => .pure _)

theorem agree_probe (h : OperandsAgree n op op') : Agree n (probe op) (probe op') :=
  (Agree.look _).bind fun _ => .ite ((h .all).agree.bind fun _ => .pure _) (.pure _)

theorem agree_functionArguments (h : OperandsAgree n op op') :
    Agree n (functionArguments op) (functionArguments op') := by
  refine (Agree.eat _).bind fun _ => .ite (.pure _) ((Agree.eatKeyword _).bind fun _ =>
    (agree_probe h).bind fun first => ?_)
  cases first with
  | some _ =>
    exact .loop (fun _ => (Agree.eat _).bind fun _ => .ite (agree_operand h .all _) (.pure _)) _
  | none =>
    exact .ite ((Agree.current _).bind fun _ => (AgreeReading.fail _).agree) (.pure _)

theorem agree_filterClause (h : OperandsAgree n op op') :
    Agree n (filterClause op) (filterClause op') :=
  (Agree.eatKeyword _).bind fun _ => .ite
    ((AgreeReading.expect _).agree.bind fun _ => (AgreeReading.expectKeyword _).agree.bind fun _ =>
      (h .all).agree.bind fun _ => (AgreeReading.expect _).agree.bind fun _ => .pure _)
    (.pure _)

theorem agree_windowOf (h : OperandsAgree n op op') : Agree n (windowOf op) (windowOf op') :=
  (Agree.eatKeyword _).bind fun _ => .ite (agree_overClause h) (.pure _)

theorem agree_functionCall (h : OperandsAgree n op op') :
    AgreeReading (n + 1) (functionCall op) (functionCall op') :=
  (AgreeReading.advance _).bindShorter fun _ => (AgreeReading.expect _).agree.bind fun _ =>
    (agree_functionArguments h).bind fun _ => (AgreeReading.expect _).agree.bind fun _ =>
    (agree_filterClause h).bind fun _ => (agree_windowOf h).bind fun _ => .pure _

theorem agree_simpleOperand (context : Context) (h : OperandsAgree n op op') (token : Token) :
    AgreeReading (n + 1) (simpleOperand context op token) (simpleOperand context op' token) := by
  unfold simpleOperand
  split
  · exact agree_cast h
  · exact (AgreeReading.advance _).bindShorter fun _ =>
      AgreeReading.skipBalanced.agree.bind fun _ => .pure _
  · exact agree_caseExpression h
  · exact agree_raise
  · exact (AgreeReading.advance _).bindShorter fun _ => agree_operand h _ _
  · exact .ite (agree_parenthesized h) (.ite
      ((AgreeReading.advance _).bindShorter fun _ => agree_operand h _ _)
      (agree_columnOperand context))

theorem agree_boundParameter (token : Token) :
    AgreeReading n (boundParameter token) (boundParameter token) :=
  (AgreeReading.advance _).bind fun _ => (Agree.register _).bind fun _ => .pure _

/-- What stands at the front of an expression reads a token, literals included. -/
theorem agree_primary (context : Context) (h : OperandsAgree n op op') :
    AgreeReading (n + 1) (primary context op) (primary context op') := by
  intro s hs
  unfold primary
  rw [bind_apply, bind_apply]
  cases hv : literalValue s with
  | error e t => exact ⟨rfl, fun _ _ h => by cases h⟩
  | ok literal t =>
    have ht := (Agree.literalValue (n := n + 1) s hs).2 literal t hv
    cases literal with
    | some token =>
      refine ⟨rfl, fun a u hu => ?_⟩
      cases hu
      refine ⟨ht, ?_⟩
      unfold literalValue accept at hv
      split at hv
      · cases hv
      · next hr => split at hv <;> cases hv; simp [hr]
    | none =>
      have key : AgreeReading (n + 1)
          (do
            let token ← current "an expression"
            if token.isParameter then boundParameter token
            else if ← look startsFunction then functionCall op
            else simpleOperand context op token)
          (do
            let token ← current "an expression"
            if token.isParameter then boundParameter token
            else if ← look startsFunction then functionCall op'
            else simpleOperand context op' token) :=
        (Agree.current _).bindReading fun token => .ite (agree_boundParameter token)
          ((Agree.look _).bindReading fun _ => .ite (agree_functionCall h)
            (agree_simpleOperand context h token))
      obtain ⟨h₁, h₂⟩ := key t (Nat.le_trans ht.length_le hs)
      refine ⟨h₁, fun a u hu => ?_⟩
      obtain ⟨h₃, h₄⟩ := h₂ a u hu
      exact ⟨h₃.trans ht, Nat.lt_of_lt_of_le h₄ ht.length_le⟩

theorem agree_inTarget (context : Context) (h : OperandsAgree n op op') :
    Agree n (inTarget context op) (inTarget context op') :=
  (Agree.look _).bind fun _ => .ite (AgreeReading.skipBalanced.agree.bind fun _ => .pure _)
    ((Agree.look _).bind fun _ => .ite (agree_arguments h)
      ((AgreeReading.expectIdentifier _).agree.bind fun _ => (Agree.look _).bind fun _ => .ite
        (agree_arguments h) (.ite (.pure _) (AgreeReading.fail _).agree)))

theorem agree_escapeClause (h : OperandsAgree n op op') :
    Agree n (escapeClause op) (escapeClause op') :=
  (Agree.eatKeyword _).bind fun _ => .ite (agree_operand h _ _) (.pure _)

theorem agree_distinctFrom : Agree n distinctFrom distinctFrom :=
  (Agree.eatKeyword _).bind fun _ => .ite
    ((AgreeReading.expectKeyword _).agree.bind fun _ => .pure _) (.pure _)

theorem agree_trailingClause (context : Context) (h : OperandsAgree n op op') :
    Agree n (trailingClause context op) (trailingClause context op') := by
  refine (Agree.look _).bind fun token => ?_
  split
  · exact (AgreeReading.advance _).agree.bind fun _ =>
      (AgreeReading.collation _).agree.bind fun _ => .pure _
  · exact (Agree.look _).bind fun _ => .ite
      ((AgreeReading.advance _).agree.bind fun _ => (Agree.eatKeyword _).bind fun _ => .pure _)
      (.pure _)
  · exact (AgreeReading.advance _).agree.bind fun _ => (h _).agree.bind fun _ =>
      (agree_escapeClause h).bind fun _ => .pure _
  all_goals first
    | exact .pure _
    | exact (AgreeReading.advance _).agree.bind fun _ => .pure _
    | exact (AgreeReading.advance _).agree.bind fun _ => agree_operand h _ _
    | exact (AgreeReading.advance _).agree.bind fun _ => (Agree.eatKeyword _).bind fun _ =>
        agree_distinctFrom.bind fun _ => agree_operand h _ _
    | exact (AgreeReading.advance _).agree.bind fun _ => (h _).agree.bind fun _ =>
        (AgreeReading.expectKeyword _).agree.bind fun _ => agree_operand h _ _
    | exact (AgreeReading.advance _).agree.bind fun _ => (agree_inTarget context h).bind fun _ =>
        .pure _

theorem agree_trailingClauses (context : Context) (h : OperandsAgree n op op') :
    Agree n (trailingClauses context op) (trailingClauses context op') :=
  .loop (fun _ => (agree_trailingClause context h).bind fun _ => .ite (.pure _) (.pure _)) _

theorem agree_chained (h : OperandsAgree n op op') (chain : Chain) :
    Agree n (chained op chain) (chained op' chain) :=
  (Agree.look _).bind fun _ => .ite
    ((AgreeReading.advance _).agree.bind fun _ => agree_operand h _ _) (.pure _)

theorem agree_layer (context : Context) (h : OperandsAgree n op op') :
    OperandsAgree (n + 1) (layer context op) (layer context op') := fun chain =>
  (agree_primary context h).bindShorter fun _ => (agree_trailingClauses context h).bind fun _ =>
    (agree_chained h chain).bind fun _ => .pure _

theorem layer_apply_nil (context : Context) (operand : Operand) (chain : Chain) {s : ParseState}
    (h : s.rest = []) :
    layer context operand chain s = .error (.endOfInput "an expression") s := by
  have hl : literalValue s = .ok none s := by simp [literalValue, accept, h]
  have hc : current "an expression" s = .error (.endOfInput "an expression") s := by
    simp [current, h]
  rw [layer, bind_apply, primary, bind_apply, hl]
  dsimp only
  rw [bind_apply, hc]

theorem within_apply_nil (context : Context) (depth : Nat) (chain : Chain) {s : ParseState}
    (h : s.rest = []) :
    within context depth chain s = .error (.endOfInput "an expression") s := by
  cases depth with
  | zero => rfl
  | succ depth => exact layer_apply_nil context _ chain h

/-- All depths from the number of tokens on are alike. -/
theorem agree_within (context : Context) {j k : Nat} (hj : n ≤ j) (hk : n ≤ k) :
    OperandsAgree n (within context j) (within context k) := by
  induction n generalizing j k with
  | zero =>
    intro chain s hs
    have h : s.rest = [] := List.eq_nil_of_length_eq_zero (Nat.le_zero.1 hs)
    rw [within_apply_nil context j chain h, within_apply_nil context k chain h]
    exact ⟨rfl, fun _ _ h => by cases h⟩
  | succ n ih =>
    obtain ⟨j, rfl⟩ : ∃ i, j = i + 1 := ⟨j - 1, by omega⟩
    obtain ⟨k, rfl⟩ : ∃ i, k = i + 1 := ⟨k - 1, by omega⟩
    exact agree_layer context (ih (by omega) (by omega))

theorem agree_parse (context : Context) : OperandsAgree n (within context n) (parse context) :=
  fun chain s hs => agree_within context hs (Nat.le_refl _) chain s (Nat.le_refl _)

/-- Enough levels of nesting are as good as all of them. -/
theorem parse_eq_within (context : Context) (chain : Chain) {s : ParseState}
    (h : s.rest.length ≤ n) : parse context chain s = within context n chain s :=
  (agree_within context (Nat.le_refl _) h chain s (Nat.le_refl _)).1

/-- The operands of an expression are expressions of the same kind. -/
theorem parse_eq_layer (context : Context) (chain : Chain) :
    parse context chain = layer context (parse context) chain := by
  funext s
  unfold parse
  cases hs : s.rest with
  | nil =>
    have h := layer_apply_nil context (parse context) chain hs
    exact h.symm
  | cons t rest =>
    exact (agree_layer context (agree_parse context) chain s (by simp [hs])).1

end SqliteSchema.Expr
