import SqliteSchema.Proofs.Expr.Progress

/-!
Chains of binary operators. Behind an operator the parser of expressions is called again, which
reads the next operand and whatever operators follow it. A chain that is read in this way is read
flat: operand after operand, for as long as an operator is next.
-/
namespace SqliteSchema.Expr

open SqliteSchema.Parser

variable {context : Context} {chain : Chain}

/-- Reads an operator and the operand behind it, if an operator is next. -/
def nextOperand (context : Context) (operator : Token → Bool) : Parser (Option Bool) := do
  if ← look (·.head?.any operator) then
    let _ ← advance "an operator"
    let _ ← parse context .none
    return some true
  else return none

/-- Operands with operators between them, one after the other. -/
def flat (context : Context) (operator : Token → Bool) : Parser Expr := do
  let first ← parse context .none
  let more ← loop (fun _ => nextOperand context operator) false
  return if more then .compound else first

theorem chained_apply (operand : Operand) (chain : Chain) (s : ParseState) :
    chained operand chain s =
      if s.rest.head?.any fun t => t.isBinary && chain.admits t then
        (do let _ ← advance "an operator"; let _ ← operand chain; return true : Parser Bool) s
      else .ok false s := by
  rw [chained, bind_apply, look]
  dsimp only
  split <;> rfl

theorem nextOperand_apply (operator : Token → Bool) (s : ParseState) :
    nextOperand context operator s =
      if s.rest.head?.any operator then
        (do
          let _ ← advance "an operator"
          let _ ← parse context .none
          return some true : Parser (Option Bool)) s
      else .ok none s := by
  rw [nextOperand, bind_apply, look]
  dsimp only
  split <;> rfl

theorem chained_none (operand : Operand) : chained operand .none = pure false := by
  funext s
  have hnone : (s.rest.head?.any fun t => t.isBinary && Chain.none.admits t) = false := by
    simp [Chain.admits]
  rw [chained_apply, hnone]
  rfl

/-- An expression is an operand and, behind an operator, another expression. -/
theorem parse_eq_chained (context : Context) (chain : Chain) :
    parse context chain = (do
      let first ← parse context .none
      let more ← chained (parse context) chain
      return if more then .compound else first) := by
  have hoperand : parse context .none = (do
      let first ← primary context (parse context)
      let clauses ← trailingClauses context (parse context)
      return if clauses then .compound else first) := by
    rw [parse_eq_layer, layer, chained_none]
    simp only [pure_bind, Bool.or_false]
  rw [parse_eq_layer, layer, hoperand]
  simp only [bind_assoc, pure_bind]
  refine congrArg (_ >>= ·) (funext fun first => congrArg (_ >>= ·) (funext fun clauses =>
    congrArg (_ >>= ·) (funext fun more => ?_)))
  cases clauses <;> cases more <;> rfl

/-- What the right-hand side of an operator reads, further rounds of the loop read. -/
theorem chained_eq_loop (context : Context) (chain : Chain) (b : Bool) (s : ParseState) :
    (do let more ← chained (parse context) chain; return b || more : Parser Bool) s =
      loop (fun _ => nextOperand context fun t => t.isBinary && chain.admits t) b s := by
  induction hn : s.rest.length using Nat.strongRecOn generalizing b s with
  | ind n ih =>
    rw [bind_apply, chained_apply, loop, nextOperand_apply]
    by_cases hoperator : (s.rest.head?.any fun t => t.isBinary && chain.admits t) = true
    · rw [if_pos hoperator, if_pos hoperator, bind_apply, bind_apply]
      cases hadvance : advance "an operator" s with
      | error e t => rfl
      | ok w t =>
        have ht := (AgreeReading.advance _ s (Nat.le_refl _)).2 w t hadvance
        dsimp only
        rw [bind_apply, bind_apply, parse_eq_chained, bind_apply]
        cases hfirst : parse context .none t with
        | error e u => rfl
        | ok first u =>
          have hu := advances_parse context .none t first u hfirst trivial
          have hlt : u.rest.length < s.rest.length := Nat.lt_trans hu.2 ht.2
          -- The round has found an operator, whatever was found before.
          have hloop := ih _ (hn ▸ hlt) true u rfl
          dsimp only
          rw [bind_apply] at hloop ⊢
          change _ = if u.rest.length < s.rest.length then _ else _
          rw [if_pos hlt, ← hloop]
          cases hmore : chained (parse context) chain u with
          | error e v => rfl
          | ok more v => cases b <;> rfl
    · rw [if_neg hoperator, if_neg hoperator]
      change EStateM.Result.ok (b || false) s = .ok b s
      rw [Bool.or_false]

/-- An expression with operators of all kinds, or with all but `AND`, is read by the flat loop: the
outcomes are the same, be they errors or not, and so are the states behind them. -/
theorem parse_eq_flat (context : Context) :
    parse context .all = flat context Token.isBinary ∧
      parse context .exceptAnd = flat context fun t => t.isBinary && !t.isKeyword .AND := by
  have hchain (chain : Chain) :
      parse context chain = flat context fun t => t.isBinary && chain.admits t := by
    have hmore : chained (parse context) chain =
        loop (fun _ => nextOperand context fun t => t.isBinary && chain.admits t) false := by
      funext s
      rw [← chained_eq_loop]
      simp only [Bool.false_or, bind_pure]
    rw [parse_eq_chained, hmore]
    rfl
  have hall : (fun t : Token => t.isBinary && Chain.all.admits t) = Token.isBinary := by
    funext t
    exact Bool.and_true _
  refine ⟨?_, hchain .exceptAnd⟩
  rw [hchain .all, hall]

end SqliteSchema.Expr
