import SqliteSchema.Expr.Parse
import SqliteSchema.Proofs.Parser.Points

/-!
Expressions point into their tokens. A column that is returned is made of them, since it may be
looked up later.
-/
namespace SqliteSchema

/-- The reference is made of these tokens. -/
structure ColumnReference.PointsInto (ts : List Token) (r : ColumnReference) : Prop where
  column : r.column ∈ ts
  table : ∀ t, r.table = some t → t ∈ ts

namespace Scope

variable {ts : List Token} {r : ColumnReference} {e : ParseError}

theorem pointsInto_requireColumn {table : Table} (hr : r.PointsInto ts)
    (h : requireColumn table r = .error e) : e.PointsInto ts := by
  unfold requireColumn at h
  split at h
  · cases h
  · cases h
    exact .token _ hr.column nofun

theorem pointsInto_requireOneOwner {sources : List Source} (hr : r.PointsInto ts)
    (h : requireOneOwner sources r = .error e) : e.PointsInto ts := by
  unfold requireOneOwner at h
  split at h
  · cases h
    exact .token _ hr.column nofun
  · cases h
  · cases h
    exact .token _ hr.column nofun

/-- A reference is refused at its column or at its table. -/
theorem pointsInto_check {registry : Registry} {scope : Scope} (hr : r.PointsInto ts)
    (h : scope.check registry r = .error e) : e.PointsInto ts := by
  unfold check at h
  split at h
  · cases h
  · exact pointsInto_requireColumn hr h
  · next hq =>
    split at h
    · exact pointsInto_requireColumn hr h
    · cases h
      exact .token _ (hr.table _ hq) nofun
  · exact pointsInto_requireOneOwner hr h
  · next hq =>
    split at h
    · exact pointsInto_requireColumn hr h
    · cases h
      exact .token _ (hr.table _ hq) nofun

end Scope

namespace Expr

open SqliteSchema.Parser

variable {ts : List Token} {op : Operand}

/-- A column is made of these tokens. -/
def MadeOf (ts : List Token) (e : Expr) : Prop := ∀ r, e = .column r → r.PointsInto ts

theorem madeOf_compound : compound.MadeOf ts := nofun

def OperandsPoint (ts : List Token) (op : Operand) : Prop :=
  ∀ chain, Points ts [] (MadeOf ts) (op chain)

theorem points_operand (h : OperandsPoint ts op) (chain : Chain) {α : Type} (a : α) :
    PointsInto ts (do let _ ← op chain; return a) :=
  (h chain).seq fun _ => .pure trivial

theorem points_list (h : OperandsPoint ts op) :
    Points ts [] (fun items => ∀ e ∈ items, e.MadeOf ts) (list op) :=
  (h .all).separated

theorem points_arguments (h : OperandsPoint ts op) : PointsInto ts (arguments op) :=
  Points.expect.seq fun _ => Points.lookAny.seq fun _ => .ite
    (fun _ => Points.expect.seq fun _ => .pure trivial)
    (fun _ => (points_list h).seq fun _ => Points.expect.seq fun _ => .pure trivial)

theorem points_nullsOrder : PointsInto ts nullsOrder :=
  Points.eatKeyword.seq fun _ => .ite
    (fun _ => Points.expectAnyKeyword.seq fun _ => .pure trivial) (fun _ => .pure trivial)

theorem points_orderingTerm (h : OperandsPoint ts op) : PointsInto ts (orderingTerm op) :=
  (h .all).seq fun _ => Points.eatAnyKeyword.seq fun _ => points_nullsOrder

theorem points_orderingTerms (h : OperandsPoint ts op) : PointsInto ts (orderingTerms op) :=
  (points_orderingTerm h).separated.seq fun _ => .pure trivial

theorem points_cast (h : OperandsPoint ts op) : Points ts [] (MadeOf ts) (cast op) := by
  refine Points.expectKeyword.seq fun _ => Points.expect.seq fun _ => (h .all).seq fun _ =>
    Points.expectKeyword.seq fun _ => Points.typeName.seq fun type => ?_
  cases type with
  | some type => exact Points.expect.seq fun _ => .pure madeOf_compound
  | none => exact Points.current.bind fun t ht => .unexpected ht

theorem points_caseBase (h : OperandsPoint ts op) : PointsInto ts (caseBase op) :=
  Points.lookAny.seq fun _ => .ite (fun _ => .pure trivial) (fun _ => points_operand h .all _)

theorem points_caseArm (h : OperandsPoint ts op) : PointsInto ts (caseArm op) :=
  (h .all).seq fun _ => Points.expectKeyword.seq fun _ => points_operand h .all _

theorem points_caseElse (h : OperandsPoint ts op) : PointsInto ts (caseElse op) :=
  Points.eatKeyword.seq fun _ => .ite (fun _ => points_operand h .all _) (fun _ => .pure trivial)

theorem points_caseExpression (h : OperandsPoint ts op) :
    Points ts [] (MadeOf ts) (caseExpression op) := by
  refine Points.expectKeyword.seq fun _ => (points_caseBase h).seq fun _ =>
    Points.expectKeyword.seq fun _ => (points_caseArm h).seq fun _ =>
    Points.seq (.loop (V := fun _ => True) (fun _ _ => Points.eatKeyword.seq fun _ => ?_) trivial)
      fun _ => (points_caseElse h).seq fun _ => Points.expectKeyword.seq fun _ =>
      .pure madeOf_compound
  exact .ite (fun _ => (points_caseArm h).seq fun _ => .pure fun _ _ => trivial)
    (fun _ => .pure nofun)

theorem points_raise : Points ts [] (MadeOf ts) raise := by
  have haction : PointsInto ts raiseAction :=
    Points.eatKeyword.seq fun _ => .ite (fun _ => .pure trivial) (fun _ =>
      Points.expectAnyKeyword.seq fun _ => Points.expect.seq fun _ =>
      Points.require.seq fun _ => .pure trivial)
  exact Points.expectKeyword.seq fun _ => Points.expect.seq fun _ => haction.seq fun _ =>
    Points.expect.seq fun _ => .pure madeOf_compound

theorem points_parenthesized (h : OperandsPoint ts op) :
    Points ts [] (MadeOf ts) (parenthesized op) := by
  refine Points.lookAny.seq fun _ => .ite
    (fun _ => Points.skipBalanced.seq fun _ => .pure madeOf_compound)
    (fun _ => Points.expect.seq fun _ => (points_list h).bind fun items hitems =>
      Points.expect.seq fun _ => ?_)
  split
  · exact .pure (hitems _ List.mem_cons_self)
  · exact .pure madeOf_compound

theorem points_columnReference :
    Points ts [] (ColumnReference.PointsInto ts) columnReference := by
  refine Points.require.bind fun first hfirst => Points.eat.seq fun _ => .ite (fun _ => ?_)
    (fun _ => .pure ⟨hfirst.1, nofun⟩)
  refine Points.expectIdentifier.bind fun name hname => Points.lookAny.seq fun _ => .ite
    (fun _ => .failAt hfirst.1 nofun) (fun _ => .pure ⟨hname, ?_⟩)
  rintro _ ⟨⟩
  exact hfirst.1

theorem points_columnOperand (context : Context) :
    Points ts [] (MadeOf ts) (columnOperand context) := by
  refine points_columnReference.bind fun r hr => Points.seq
    (V := fun _ => True) (.ofExcept (fun _ he => Scope.pointsInto_check hr he) fun _ _ => trivial)
    fun _ => .pure ?_
  rintro _ ⟨⟩
  exact hr

/-! ### Windows -/

theorem points_frameBound (h : OperandsPoint ts op) (directions : List Keyword) :
    PointsInto ts (frameBound op directions) :=
  Points.eatKeyword.seq fun _ => .ite (fun _ => Points.expectKeyword.seq fun _ => .pure trivial)
    (fun _ => Points.eatKeyword.seq fun _ => .ite
      (fun _ => Points.expectAnyKeyword.seq fun _ => .pure trivial)
      (fun _ => (h _).seq fun _ => Points.expectAnyKeyword.seq fun _ => .pure trivial))

theorem points_frameExtent (h : OperandsPoint ts op) : PointsInto ts (frameExtent op) :=
  Points.eatKeyword.seq fun _ => .ite
    (fun _ => (points_frameBound h _).seq fun _ => Points.expectKeyword.seq fun _ =>
      points_frameBound h _)
    (fun _ => points_frameBound h _)

theorem points_frameExclusion : PointsInto ts frameExclusion := by
  refine Points.eatKeyword.seq fun _ => .ite (fun _ => Points.expectAnyKeyword.seq fun k => ?_)
    (fun _ => .pure trivial)
  split
  · exact Points.expectKeyword.seq fun _ => .pure trivial
  · exact Points.expectKeyword.seq fun _ => .pure trivial
  · exact .pure trivial

theorem points_openClause (name : String) (seen : Bool) {t : Token} (ht : t ∈ ts) :
    PointsInto ts (openClause name seen t) :=
  .ite (fun _ => .failAt ht nofun) (fun _ => Points.advance.seq fun _ => .pure trivial)

theorem points_windowClause (h : OperandsPoint ts op) (seen : WindowClauses) :
    PointsInto ts (windowClause op seen) := by
  refine Points.current.bind fun t ht => ?_
  have hframe : PointsInto ts (do
      openClause "A frame specification" seen.frame t
      frameExtent op
      frameExclusion
      return some { seen with frame := true }) :=
    (points_openClause _ _ ht).seq fun _ => (points_frameExtent h).seq fun _ =>
      points_frameExclusion.seq fun _ => .pure trivial
  split
  · exact (points_openClause _ _ ht).seq fun _ => Points.expectKeyword.seq fun _ =>
      (points_list h).seq fun _ => .pure trivial
  · exact (points_openClause _ _ ht).seq fun _ => Points.expectKeyword.seq fun _ =>
      (points_orderingTerms h).seq fun _ => .pure trivial
  · exact hframe
  · exact hframe
  · exact hframe
  · exact .pure trivial

theorem points_windowDefinition (h : OperandsPoint ts op) :
    PointsInto ts (windowDefinition op) :=
  Points.expect.seq fun _ => Points.accept.seq fun _ =>
    Points.seq (.loop (V := fun _ => True)
      (fun seen _ => (points_windowClause h seen).imp fun _ _ _ _ => trivial) trivial) fun _ =>
    Points.expect.seq fun _ => .pure trivial

theorem points_overClause (h : OperandsPoint ts op) : PointsInto ts (overClause op) :=
  Points.lookAny.seq fun _ => .ite (fun _ => points_windowDefinition h)
    (fun _ => Points.expectIdentifier.seq fun _ => .pure trivial)

/-! ### Operands -/

theorem points_functionArguments (h : OperandsPoint ts op) :
    PointsInto ts (functionArguments op) := by
  have hprobe : PointsInto ts (probe op) :=
    Points.lookAny.seq fun _ => .ite (fun _ => (h .all).seq fun _ => .pure trivial)
      (fun _ => .pure trivial)
  refine Points.eat.seq fun _ => .ite (fun _ => .pure trivial) (fun _ =>
    Points.eatKeyword.seq fun _ => hprobe.seq fun first => ?_)
  cases first with
  | some _ =>
    refine .loop (fun _ _ => Points.eat.seq fun _ => ?_) trivial
    exact .ite (fun _ => (h .all).seq fun _ => .pure fun _ _ => trivial) (fun _ => .pure nofun)
  | none =>
    exact .ite (fun _ => Points.current.bind fun t ht => .unexpected ht) (fun _ => .pure trivial)

theorem points_filterClause (h : OperandsPoint ts op) : PointsInto ts (filterClause op) :=
  Points.eatKeyword.seq fun _ => .ite
    (fun _ => Points.expect.seq fun _ => Points.expectKeyword.seq fun _ => (h .all).seq fun _ =>
      Points.expect.seq fun _ => .pure trivial)
    (fun _ => .pure trivial)

theorem points_functionCall (h : OperandsPoint ts op) :
    Points ts [] (MadeOf ts) (functionCall op) := by
  have hwindow : PointsInto ts (windowOf op) :=
    Points.eatKeyword.seq fun _ => .ite (fun _ => points_overClause h) (fun _ => .pure trivial)
  exact Points.advance.seq fun _ => Points.expect.seq fun _ =>
    (points_functionArguments h).seq fun _ => Points.expect.seq fun _ =>
    (points_filterClause h).seq fun _ => hwindow.seq fun _ => .pure nofun

theorem points_simpleOperand (context : Context) (h : OperandsPoint ts op) (t : Token) :
    Points ts [] (MadeOf ts) (simpleOperand context op t) := by
  unfold simpleOperand
  split
  · exact points_cast h
  · exact Points.advance.seq fun _ => Points.skipBalanced.seq fun _ => .pure madeOf_compound
  · exact points_caseExpression h
  · exact points_raise
  · exact Points.advance.seq fun _ => (h _).seq fun _ => .pure madeOf_compound
  · exact .ite (fun _ => points_parenthesized h) (fun _ => .ite
      (fun _ => Points.advance.seq fun _ => (h _).seq fun _ => .pure madeOf_compound)
      (fun _ => points_columnOperand context))

theorem points_primary (context : Context) (h : OperandsPoint ts op) :
    Points ts [] (MadeOf ts) (primary context op) := by
  refine Points.literalValue.seq fun literal => ?_
  cases literal with
  | some token => exact .pure nofun
  | none =>
    refine Points.current.bind fun t ht => .ite (fun hparameter => ?_) (fun _ =>
      Points.lookAny.seq fun _ => .ite (fun _ => points_functionCall h)
        (fun _ => points_simpleOperand context h t))
    exact Points.advance.seq fun _ => (Points.register ht hparameter).seq fun _ => .pure nofun

/-! ### Whole expressions -/

theorem points_inTarget (context : Context) (h : OperandsPoint ts op) :
    PointsInto ts (inTarget context op) :=
  Points.lookAny.seq fun _ => .ite (fun _ => Points.skipBalanced.seq fun _ => .pure trivial)
    (fun _ => Points.lookAny.seq fun _ => .ite (fun _ => points_arguments h)
      (fun _ => Points.expectIdentifier.bind fun _ ht => Points.lookAny.seq fun _ => .ite
        (fun _ => points_arguments h)
        (fun _ => .ite (fun _ => .pure trivial) (fun _ => .failAt ht nofun))))

theorem points_trailingClause (context : Context) (h : OperandsPoint ts op) :
    PointsInto ts (trailingClause context op) := by
  have hescape : PointsInto ts (escapeClause op) :=
    Points.eatKeyword.seq fun _ => .ite (fun _ => points_operand h _ _) (fun _ => .pure trivial)
  have hdistinct : PointsInto ts distinctFrom :=
    Points.eatKeyword.seq fun _ => .ite (fun _ => Points.expectKeyword.seq fun _ => .pure trivial)
      (fun _ => .pure trivial)
  refine Points.peek.seq fun t => ?_
  split
  · exact Points.advance.seq fun _ => Points.collation.seq fun _ => .pure trivial
  · exact Points.lookAny.seq fun _ => .ite
      (fun _ => Points.advance.seq fun _ => Points.eatKeyword.seq fun _ => .pure trivial)
      (fun _ => .pure trivial)
  · exact Points.advance.seq fun _ => (h _).seq fun _ => hescape.seq fun _ => .pure trivial
  all_goals first
    | exact .pure trivial
    | exact Points.advance.seq fun _ => .pure trivial
    | exact Points.advance.seq fun _ => points_operand h _ _
    | exact Points.advance.seq fun _ => Points.eatKeyword.seq fun _ => hdistinct.seq fun _ =>
        points_operand h _ _
    | exact Points.advance.seq fun _ => (h _).seq fun _ => Points.expectKeyword.seq fun _ =>
        points_operand h _ _
    | exact Points.advance.seq fun _ => (points_inTarget context h).seq fun _ => .pure trivial

theorem points_trailingClauses (context : Context) (h : OperandsPoint ts op) :
    PointsInto ts (trailingClauses context op) := by
  refine .loop (fun _ _ => (points_trailingClause context h).seq fun _ => ?_) trivial
  exact .ite (fun _ => .pure fun _ _ => trivial) (fun _ => .pure nofun)

theorem points_layer (context : Context) (h : OperandsPoint ts op) :
    OperandsPoint ts (layer context op) := by
  intro chain
  have hchained : PointsInto ts (chained op chain) :=
    Points.lookAny.seq fun _ => .ite
      (fun _ => Points.advance.seq fun _ => points_operand h _ _) (fun _ => .pure trivial)
  refine (points_primary context h).bind fun first hfirst =>
    (points_trailingClauses context h).seq fun clauses => hchained.seq fun more => .pure ?_
  split
  · exact madeOf_compound
  · exact hfirst

theorem points_within (context : Context) (depth : Nat) :
    OperandsPoint ts (within context depth) := by
  induction depth with
  | zero => exact fun _ => .fail (.ending _)
  | succ depth ih => exact points_layer context ih

/-- Expressions point into their tokens. -/
theorem points_parse (context : Context) : OperandsPoint ts (parse context) := by
  intro chain s hs
  cases points_within context s.rest.length chain s hs with
  | error read left hsplit hrun hnoted he => exact .error read left hsplit hrun hnoted he
  | ok read hsplit hrun hnoted hparameters hV => exact .ok read hsplit hrun hnoted hparameters hV

end Expr

end SqliteSchema
