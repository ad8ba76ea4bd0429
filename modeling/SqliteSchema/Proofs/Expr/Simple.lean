import SqliteSchema.Proofs.Expr.Chaining
import SqliteSchema.Proofs.Parameter.Numbering
import SqliteSchema.Proofs.Parser.Local

/-!
Expressions that stand for a single operand. A literal, a bind parameter or a column is all there is
between the parentheses of such an expression: whatever reads more tokens is a function or a
compound.
-/
namespace SqliteSchema

namespace Parser

variable {α : Type} {s t : ParseState} {item : Parser α}

/-- Items that are read one after the other, with commas between them. -/
inductive Listed (item : Parser α) : ParseState → List α → ParseState → Prop
  | single {a : α} {s t : ParseState} : item s = .ok a t → Listed item s [a] t
  | cons {a : α} {as : List α} {comma : Token} {s u v t : ParseState} :
    item s = .ok a u → comma.is "," = true → u.rest = comma :: v.rest →
      v = { u with rest := v.rest } → Listed item v as t → Listed item s (a :: as) t

theorem listed_loop (hkeeps : ∀ s a t, item s = .ok a t → t.rest <:+ s.rest) (first : List α)
    {a : α} {as : List α} {u : ParseState} (ha : item s = .ok a u)
    (h : loop (Expr.nextItem item) (first ++ [a]) u = .ok as t) :
    ∃ more, as = first ++ more ∧ Listed item s more t := by
  induction hn : u.rest.length using Nat.strongRecOn generalizing first a s u with
  | ind n ih =>
    rw [Parser.loop] at h
    cases hround : Expr.nextItem item (first ++ [a]) u with
    | error e v => simp [hround] at h
    | ok r v =>
      obtain ⟨comma, v', hcomma, hnext⟩ := bind_eq_ok hround
      rw [hround] at h
      cases comma with
      | false =>
        obtain rfl := eat_eq_false hcomma
        cases hnext
        cases h
        exact ⟨[a], rfl, .single ha⟩
      | true =>
        obtain ⟨w, hrest, hw, hv'⟩ := eat_eq_true hcomma
        obtain ⟨b, x, hb, hx⟩ := bind_eq_ok hnext
        cases hx
        have hsuffix := (hkeeps v' b v hb).length_le
        have hlt : v.rest.length < u.rest.length := by
          rw [hrest, List.length_cons]
          omega
        dsimp only at h
        rw [if_pos hlt] at h
        obtain ⟨more, rfl, hmore⟩ := ih _ (hn ▸ hlt) (first ++ [a]) hb h rfl
        exact ⟨a :: more, by simp, .cons ha hw hrest hv' hmore⟩

theorem listed_of_separated (hkeeps : ∀ s a t, item s = .ok a t → t.rest <:+ s.rest)
    {as : List α} (h : separated item s = .ok as t) : Listed item s as t := by
  obtain ⟨a, u, ha, hloop⟩ := bind_eq_ok h
  obtain ⟨more, rfl, hmore⟩ := listed_loop hkeeps [] ha hloop
  exact hmore

end Parser

namespace Expr

open SqliteSchema.Parser

variable {context : Context} {op : Operand} {chain : Chain} {s t : ParseState} {e : Expr}
  {o c : Token} {ts inside : List Token}

/-- A literal, a bind parameter or a column. -/
def IsSimple : Expr → Prop
  | literal _ | parameter _ | column _ => True
  | function _ | compound => False

/-- These tokens are the reference and nothing else. -/
inductive SpellsReference : List Token → ColumnReference → Prop
  | column {w : Token} : isColumnName w = true → SpellsReference [w] ⟨none, w⟩
  | qualified {q point w : Token} : isColumnName q = true → point.is "." = true →
    w.isIdentifier = true → SpellsReference [q, point, w] ⟨some q, w⟩

/-- These tokens are the operand and nothing else. A bind parameter is registered by it. -/
inductive SpellsOperand : List Token → Parameters → Expr → Parameters → Prop
  | literal {w : Token} {ps : Parameters} : isLiteralValue w = true →
    SpellsOperand [w] ps (.literal w) ps
  | parameter {w : Token} {ps ps' : Parameters} {n : Nat} : w.isParameter = true →
    ps.register w.value = .ok (n, ps') → SpellsOperand [w] ps (.parameter n) ps'
  | column {ts : List Token} {r : ColumnReference} {ps : Parameters} : SpellsReference ts r →
    SpellsOperand ts ps (.column r) ps

/-- The tokens stand inside as many opening parentheses as closing ones. -/
def Enclosed (inside ts : List Token) : Prop :=
  ∃ opening closing : List Token, ts = opening ++ inside ++ closing ∧
    opening.length = closing.length ∧ (∀ w ∈ opening, w.is "(" = true) ∧
    ∀ w ∈ closing, w.is ")" = true

theorem Enclosed.refl (ts : List Token) : Enclosed ts ts := ⟨[], [], by simp, rfl, nofun, nofun⟩

theorem Enclosed.group (h : Enclosed inside ts) (ho : o.is "(" = true) (hc : c.is ")" = true) :
    Enclosed inside (o :: ts ++ [c]) := by
  obtain ⟨opening, closing, rfl, hlength, hopening, hclosing⟩ := h
  refine ⟨o :: opening, closing ++ [c], by simp, by simp [hlength], ?_, fun w hw => ?_⟩
  · exact List.forall_mem_cons.2 ⟨ho, hopening⟩
  · rcases List.mem_append.1 hw with hw | hw
    · exact hclosing w hw
    · exact List.mem_singleton.1 hw ▸ hc

/-- Between two states stands one operand in any number of parentheses. -/
def ReadsSimple (s : ParseState) (e : Expr) (t : ParseState) : Prop :=
  ∃ ts inside, s.rest = ts ++ t.rest ∧ Enclosed inside ts ∧
    SpellsOperand inside s.parameters e t.parameters ∧ t.warnings = s.warnings

/-! ### Productions -/

/-- A simple expression that the parser returns is all that it has read, if this holds of the
expressions behind the next token. -/
def Simply (op : Operand) (p : Parser Expr) : Prop :=
  ∀ s e t, p s = .ok e t → e.IsSimple →
    (∀ u v, u.rest.length < s.rest.length → op .all u = .ok e v → ReadsSimple u e v) →
    ReadsSimple s e t

namespace Simply

variable {p q : Parser Expr}

theorem of_ensures (h : Ensures p fun e => ¬e.IsSimple) : Simply op p :=
  fun s e t hok he => absurd he (h s e t hok)

theorem of_compound (h : Ensures p (· = .compound)) : Simply op p :=
  of_ensures (h.imp fun _ he => he ▸ id)

theorem ite {b : Prop} [Decidable b] (hp : b → Simply op p) (hq : ¬b → Simply op q) :
    Simply op (if b then p else q) := by
  split
  · next h => exact hp h
  · next h => exact hq h

theorem lookIf {test : List Token → Bool} (hp : Simply op p) (hq : Simply op q) :
    Simply op (do if ← look test then p else q) := by
  intro s
  change ∀ e t, (if test s.rest then p else q) s = .ok e t → _
  exact ite (fun _ => hp) (fun _ => hq) s

end Simply

theorem ensures_cast (op : Operand) : Ensures (cast op) (· = .compound) := by
  refine .after fun _ => .after fun _ => .after fun _ => .after fun _ => .after fun type => ?_
  cases type with
  | some _ => exact .after fun _ => .pure rfl
  | none => exact .after fun _ => .fail

theorem ensures_caseExpression (op : Operand) : Ensures (caseExpression op) (· = .compound) :=
  .after fun _ => .after fun _ => .after fun _ => .after fun _ => .after fun _ => .after fun _ =>
    .after fun _ => .pure rfl

theorem ensures_raise : Ensures raise (· = .compound) :=
  .after fun _ => .after fun _ => .after fun _ => .after fun _ => .pure rfl

theorem ensures_functionCall (op : Operand) : Ensures (functionCall op) fun e => ¬e.IsSimple :=
  .after fun _ => .after fun _ => .after fun _ => .after fun _ => .after fun _ => .after fun _ =>
    .pure id

/-- With and without a table in front of the column. -/
theorem columnReference_eq_ok {r : ColumnReference} (h : columnReference s = .ok r t) :
    ∃ ts, s.rest = ts ++ t.rest ∧ SpellsReference ts r ∧ t = { s with rest := t.rest } := by
  obtain ⟨first, u, hfirst, hbehind⟩ := bind_eq_ok h
  obtain ⟨hrest, hname, hu⟩ := require_eq_ok hfirst
  obtain ⟨point, v, hpoint, hr⟩ := bind_eq_ok hbehind
  cases point with
  | false =>
    obtain rfl := eat_eq_false hpoint
    cases hr
    exact ⟨[first], hrest, .column hname, hu⟩
  | true =>
    obtain ⟨w, hurest, hw, hv⟩ := eat_eq_true hpoint
    obtain ⟨column, x, hcolumn, hend⟩ := bind_eq_ok hr
    obtain ⟨hvrest, hid, hx⟩ := require_eq_ok hcolumn
    obtain ⟨more, x', hmore, hlast⟩ := bind_eq_ok hend
    cases hmore
    dsimp only at hlast
    split at hlast
    · cases hlast
    · cases hlast
      refine ⟨[first, w, column], by simp [hrest, hurest, hvrest], .qualified hname hw hid, ?_⟩
      rw [hx, hv, hu]

theorem simply_columnOperand (context : Context) : Simply op (columnOperand context) := by
  intro s e t h _ _
  obtain ⟨r, u, hr, hcheck⟩ := bind_eq_ok h
  obtain ⟨⟨⟩, v, hv, he⟩ := bind_eq_ok hcheck
  obtain rfl : v = u := by
    cases hc : context.scope.check context.registry r with
    | error f =>
      rw [hc] at hv
      cases hv
    | ok =>
      rw [hc] at hv
      cases hv
      rfl
  cases he
  obtain ⟨ts, hrest, hspelled, hu⟩ := columnReference_eq_ok hr
  refine ⟨ts, ts, hrest, .refl ts, ?_, by rw [hu]⟩
  rw [hu]
  exact .column hspelled

/-- A single expression in parentheses stands for itself; nothing else in parentheses is simple. -/
theorem simply_parenthesized (hop : ∀ n, OperandsAgree n op op) :
    Simply op (parenthesized op) := by
  refine .lookIf (.of_compound (.after fun _ => .pure rfl)) fun s e t h he ih => ?_
  obtain ⟨o, u, ho, hbehind⟩ := bind_eq_ok h
  obtain ⟨hrest, hopens, hu⟩ := require_eq_ok ho
  obtain ⟨items, v, hitems, hend⟩ := bind_eq_ok hbehind
  obtain ⟨c, x, hc, hvalue⟩ := bind_eq_ok hend
  obtain ⟨hvrest, hcloses, hx⟩ := require_eq_ok hc
  cases listed_of_separated (fun _ _ _ => Agree.suffix fun n => (hop n .all).agree) hitems with
  | single hsingle =>
    cases hvalue
    obtain ⟨ts, inside, hinside, henclosed, hspelled, hwarnings⟩ :=
      ih u v (by rw [hrest, List.length_cons]; omega) hsingle
    refine ⟨o :: ts ++ [c], inside, by simp [hrest, hinside, hvrest],
      henclosed.group hopens hcloses, ?_, by rw [hx, hwarnings, hu]⟩
    rw [hu] at hspelled
    rw [hx]
    exact hspelled
  | cons _ _ _ _ hmore =>
    cases hmore <;>
    · cases hvalue
      exact he.elim

theorem simply_simpleOperand (context : Context) (hop : ∀ n, OperandsAgree n op op)
    (token : Token) : Simply op (simpleOperand context op token) := by
  unfold simpleOperand
  split
  · exact .of_compound (ensures_cast op)
  · exact .of_compound (.after fun _ => .after fun _ => .pure rfl)
  · exact .of_compound (ensures_caseExpression op)
  · exact .of_compound ensures_raise
  · exact .of_compound (.after fun _ => .after fun _ => .pure rfl)
  · exact .ite (fun _ => simply_parenthesized hop) fun _ =>
      .ite (fun _ => .of_compound (.after fun _ => .after fun _ => .pure rfl)) fun _ =>
      simply_columnOperand context

theorem simply_boundParameter {token : Token} (htoken : token.isParameter = true)
    (hs : s.rest.head? = some token) (h : boundParameter token s = .ok e t) :
    ReadsSimple s e t := by
  obtain ⟨w, u, hw, hbehind⟩ := bind_eq_ok h
  obtain ⟨number, v, hregister, he⟩ := bind_eq_ok hbehind
  cases he
  obtain ⟨hrest, -, hu⟩ := require_eq_ok hw
  obtain rfl : w = token := by simpa [hrest] using hs
  obtain ⟨hnumber, ht⟩ := register_eq_ok hregister
  refine ⟨[w], [w], ?_, .refl _, .parameter htoken ?_, ?_⟩
  · rw [hrest, ht]
    rfl
  · rw [hu] at hnumber
    exact hnumber
  · rw [ht, hu]

theorem simply_primary (context : Context) (hop : ∀ n, OperandsAgree n op op) :
    Simply op (primary context op) := by
  intro s e t h he ih
  obtain ⟨value, u, hvalue, hbehind⟩ := bind_eq_ok h
  cases value with
  | some token =>
    cases hbehind
    obtain ⟨hrest, hliteral, ht⟩ := accept_eq_some hvalue
    exact ⟨[token], [token], hrest, .refl _, by rw [ht]; exact .literal hliteral, by rw [ht]⟩
  | none =>
    obtain rfl := accept_eq_none hvalue
    obtain ⟨token, v, hcurrent, hoperand⟩ := bind_eq_ok hbehind
    obtain ⟨rfl, hhead⟩ := current_eq_ok hcurrent
    by_cases htoken : token.isParameter = true
    · rw [if_pos htoken] at hoperand
      exact simply_boundParameter htoken hhead hoperand
    · rw [if_neg htoken] at hoperand
      exact Simply.lookIf (.of_ensures (ensures_functionCall op))
        (simply_simpleOperand context hop token) _ e t hoperand he ih

/-! ### Clauses behind an operand -/

/-- Where nothing is found nothing is read. -/
def Stays (p : Parser Bool) : Prop := ∀ s t, p s = .ok false t → t = s

theorem Stays.of_ensures {p : Parser Bool} (h : Ensures p (· = true)) : Stays p := by
  intro s t hok
  cases h s false t hok

theorem Stays.pure (b : Bool) : Stays (pure b) := by
  intro s t hok
  cases hok
  rfl

theorem Stays.ite {b : Prop} [Decidable b] {p q : Parser Bool} (hp : Stays p) (hq : Stays q) :
    Stays (if b then p else q) := by
  split
  · exact hp
  · exact hq

theorem Stays.look {α : Type} {g : List Token → α} {f : α → Parser Bool} (hf : ∀ a, Stays (f a)) :
    Stays (look g >>= f) :=
  fun s t h => hf (g s.rest) s t h

theorem stays_trailingClause (context : Context) (op : Operand) :
    Stays (trailingClause context op) := by
  refine .look fun next => ?_
  split
  case h_2 =>
    exact .look fun _ => .ite (.of_ensures (.after fun _ => .after fun _ => .pure rfl)) (.pure _)
  all_goals
    first
      | exact .pure _
      | exact .of_ensures (.after fun _ => .pure rfl)
      | exact .of_ensures (.after fun _ => .after fun _ => .pure rfl)
      | exact .of_ensures (.after fun _ => .after fun _ => .after fun _ => .pure rfl)
      | exact .of_ensures (.after fun _ => .after fun _ => .after fun _ => .after fun _ => .pure rfl)

theorem stays_trailingClauses (context : Context) (op : Operand) :
    Stays (trailingClauses context op) := by
  have htrue : Ensures (loop (trailingRound context op) true) (· = true) := by
    refine .loop (fun _ _ => .after fun read => ?_) rfl
    split
    · exact .pure fun b hb => (Option.some.inj hb).symm
    · exact .pure nofun
  intro s t h
  change loop (trailingRound context op) false s = _ at h
  rw [Parser.loop] at h
  cases hround : trailingRound context op false s with
  | error e u =>
    rw [hround] at h
    cases h
  | ok r u =>
    rw [hround] at h
    obtain ⟨read, v, hread, hr⟩ := bind_eq_ok hround
    cases read with
    | false =>
      cases hr
      cases h
      exact stays_trailingClause context op s _ hread
    | true =>
      cases hr
      dsimp only at h
      split at h
      · cases htrue _ _ _ h
      · cases h

theorem stays_chained (op : Operand) (chain : Chain) : Stays (chained op chain) :=
  .look fun _ => .ite (.of_ensures (.after fun _ => .after fun _ => .pure rfl)) (.pure _)

/-! ### Expressions -/

/-- The tokens of a simple expression are those of its operand and parentheses around them. -/
theorem readsSimple_parse (context : Context) (chain : Chain)
    (h : parse context chain s = .ok e t) (he : e.IsSimple) : ReadsSimple s e t := by
  induction hn : s.rest.length using Nat.strongRecOn generalizing chain s t with
  | ind n ih =>
    obtain ⟨first, u, clauses, v, more, hfirst, hv, hmore, rfl⟩ := parse_eq_ok.1 h
    cases clauses with
    | true => exact he.elim
    | false =>
      cases more with
      | true => exact he.elim
      | false =>
        obtain rfl := stays_trailingClauses context _ u _ hv
        obtain rfl := stays_chained _ chain _ _ hmore
        exact simply_primary context (operandsAgree_parse context) s _ _ hfirst he
          fun u v hlt hu => ih _ (hn ▸ hlt) .all hu rfl

end Expr

end SqliteSchema
