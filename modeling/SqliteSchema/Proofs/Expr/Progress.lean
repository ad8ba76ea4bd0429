import Mathlib.Data.List.Chain
import Mathlib.Logic.Function.Iterate
import SqliteSchema.Expr.Unfold
import SqliteSchema.Proofs.Parser.Ensures

/-!
Expressions are read to an end. The call of an expression makes nested calls at later tokens only,
so that the recursion is over after as many levels as there are tokens ahead, and no loop goes round
without reading a token.
-/
namespace SqliteSchema

namespace Parser

variable {α β : Type} {p : Parser α} {V : α → Prop} {U : β → Prop}

/-- Success with a value that satisfies `V` costs at least one token. -/
def AdvancesTo (V : α → Prop) (p : Parser α) : Prop :=
  ∀ s a t, p s = .ok a t → V a → t.rest <:+ s.rest ∧ t.rest.length < s.rest.length

/-- Success costs at least one token. -/
abbrev Advances (p : Parser α) : Prop := AdvancesTo (fun _ => True) p

/-- A round behind which the loop goes on costs at least one token. -/
def RoundsAdvance (round : α → Parser (Option α)) : Prop :=
  ∀ a, AdvancesTo (fun r => r.isSome = true) (round a)

namespace AdvancesTo

theorem of_reading (h : ∀ n, AgreeReading n p p) : AdvancesTo V p :=
  fun s a t ha _ => (h s.rest.length s (Nat.le_refl _)).2 a t ha

theorem pure {a : α} (h : ¬V a) : AdvancesTo V (pure a) := by
  intro s b t hb hV
  cases hb
  exact absurd hV h

theorem ite {c : Prop} [Decidable c] {q : Parser α} (hp : AdvancesTo V p) (hq : AdvancesTo V q) :
    AdvancesTo V (if c then p else q) := by
  split
  · exact hp
  · exact hq

/-- Behind a parser that puts no token back. -/
theorem after {f : α → Parser β} (hp : ∀ n, Agree n p p) (hf : ∀ a, AdvancesTo U (f a)) :
    AdvancesTo U (p >>= f) := by
  intro s b u h hU
  obtain ⟨a, t, ha, hb⟩ := bind_eq_ok h
  have ht := (hp s.rest.length s (Nat.le_refl _)).2 a t ha
  obtain ⟨hu, hlt⟩ := hf a t b u hb hU
  exact ⟨hu.trans ht, Nat.lt_of_lt_of_le hlt ht.length_le⟩

end AdvancesTo

end Parser

namespace Expr

open SqliteSchema.Parser

variable {context : Context} {chain : Chain} {op : Operand} {s : ParseState}

/-! ### Nested calls -/

theorem operandsAgree_parse (context : Context) (n : Nat) :
    OperandsAgree n (parse context) (parse context) := by
  intro chain s hs
  obtain ⟨heq, hok⟩ := agree_parse context chain s hs
  exact ⟨rfl, fun e t h => hok e t (heq.trans h)⟩

theorem advances_parse (context : Context) (chain : Chain) : Advances (parse context chain) :=
  .of_reading fun n => operandsAgree_parse context n chain

/-- A call of the parser of expressions: how far operators reach, and the state it starts from. -/
abbrev Call := Chain × ParseState

/-- Does what `op` does, but for one call. -/
def answering (op : Operand) (call : Call) (r : EStateM.Result ParseError ParseState Expr) :
    Operand := fun chain s => if (chain, s) = call then r else op chain s

/-- The first call makes the second one: what the nested call comes to makes a difference to it.
No error is caught, so that a nested call makes a difference already by failing. -/
def Calls (context : Context) (call nested : Call) : Prop :=
  ∃ r, layer context (answering (parse context) nested r) call.1 call.2 ≠
    parse context call.1 call.2

/-- A call that fails because a nested call does. -/
theorem calls_of_failure {call nested : Call} (e : ParseError)
    (hok : (success? (parse context call.1 call.2)).isSome = true)
    (hfails : success? (layer context (answering (parse context) nested (.error e nested.2))
      call.1 call.2) = none) : Calls context call nested := by
  refine ⟨.error e nested.2, fun heq => ?_⟩
  rw [← heq, hfails] at hok
  cases hok

/-- An expression is an operand, the clauses behind it and the operators that go on with it. -/
theorem parse_eq_ok {t : ParseState} {e : Expr} :
    parse context chain s = .ok e t ↔ ∃ first u clauses v more,
      primary context (parse context) s = .ok first u ∧
      trailingClauses context (parse context) u = .ok clauses v ∧
      chained (parse context) chain v = .ok more t ∧
      (if clauses || more then .compound else first) = e := by
  rw [parse_eq_layer]
  constructor
  · intro h
    obtain ⟨first, u, hfirst, h⟩ := bind_eq_ok h
    obtain ⟨clauses, v, hclauses, h⟩ := bind_eq_ok h
    obtain ⟨more, w, hmore, h⟩ := bind_eq_ok h
    obtain ⟨he, rfl⟩ := EStateM.Result.ok.inj h
    exact ⟨first, u, clauses, v, more, hfirst, hclauses, hmore, he⟩
  · rintro ⟨first, u, clauses, v, more, hfirst, hclauses, hmore, rfl⟩
    rw [layer, bind_apply, hfirst]
    dsimp only
    rw [bind_apply, hclauses]
    dsimp only
    rw [bind_apply, hmore]
    rfl

/-- An expression does not depend on what operands come to where no token is read yet. -/
theorem layer_eq_parse
    (h : ∀ chain t, t.rest.length < s.rest.length → op chain t = parse context chain t) :
    layer context op chain s = parse context chain s := by
  cases hs : s.rest with
  | nil =>
    rw [parse_eq_layer, layer_apply_nil context op chain hs, layer_apply_nil context _ chain hs]
  | cons w rest =>
    have hagree : OperandsAgree rest.length (parse context) op := by
      intro chain t ht
      refine ⟨(h chain t ?_).symm, (operandsAgree_parse context _ chain t ht).2⟩
      rw [hs, List.length_cons]
      omega
    rw [parse_eq_layer]
    exact (agree_layer context hagree chain s (Nat.le_of_eq (by rw [hs, List.length_cons]))).1.symm

/-- A nested call starts at a later token. -/
theorem Calls.shorter {call nested : Call} (h : Calls context call nested) :
    nested.2.rest.length < call.2.rest.length := by
  obtain ⟨r, hr⟩ := h
  by_contra hle
  refine hr (layer_eq_parse fun chain t ht => ?_)
  rw [answering, if_neg]
  rintro rfl
  exact hle ht

theorem length_calls_le {call : Call} {calls : List Call}
    (h : List.IsChain (Calls context) (call :: calls)) : calls.length ≤ call.2.rest.length := by
  induction calls generalizing call with
  | nil => exact Nat.zero_le _
  | cons nested calls ih =>
    obtain ⟨hcall, hrest⟩ := List.isChain_cons_cons.1 h
    have hnested := ih hrest
    have hlt := hcall.shorter
    rw [List.length_cons]
    omega

/-- Where the recursion has gone as deep as there are tokens ahead, it does not matter what the
calls below come to: there are none. -/
theorem iterate_layer (op : Operand) {n : Nat} (hn : s.rest.length ≤ n) :
    (layer context)^[n + 1] op chain s = parse context chain s := by
  induction n generalizing chain s with
  | zero => exact layer_eq_parse fun chain t ht => absurd ht (by omega)
  | succ n ih =>
    rw [Function.iterate_succ_apply']
    exact layer_eq_parse fun chain t ht => ih (by omega)

/-! ### Loops -/

def trailingRound (context : Context) (op : Operand) (_ : Bool) : Parser (Option Bool) := do
  if ← trailingClause context op then return some true else return none

def nextItem {α : Type} (item : Parser α) (items : List α) : Parser (Option (List α)) := do
  if ← eat "," then return some (items ++ [← item]) else return none

def nextArm (op : Operand) (_ : Unit) : Parser (Option Unit) := do
  if ← eatKeyword .WHEN then return some (← caseArm op) else return none

def nextArgument (op : Operand) (_ : Unit) : Parser (Option Unit) := do
  if ← eat "," then
    let _ ← op .all
    return some ()
  else return none

theorem reading_caseArm (h : ∀ n, OperandsAgree n op op) (n : Nat) :
    AgreeReading n (caseArm op) (caseArm op) :=
  (h n .all).bind fun _ => (AgreeReading.expectKeyword _).agree.bind fun _ =>
    agree_operand (h n) .all _

theorem advances_trailingClause (h : ∀ n, OperandsAgree n op op) :
    AdvancesTo (· = true) (trailingClause context op) := by
  refine .after (fun _ => .look _) fun token => ?_
  split
  · exact .of_reading fun n => (AgreeReading.advance _).bind fun _ =>
      (AgreeReading.collation _).agree.bind fun _ => .pure _
  · exact .after (fun _ => .look _) fun _ => .ite
      (.of_reading fun n => (AgreeReading.advance _).bind fun _ =>
        (Agree.eatKeyword _).bind fun _ => .pure _)
      (.pure nofun)
  · exact .of_reading fun n => (AgreeReading.advance _).bind fun _ => (h n _).agree.bind fun _ =>
      (agree_escapeClause (h n)).bind fun _ => .pure _
  all_goals first
    | exact .pure nofun
    | exact .of_reading fun n => (AgreeReading.advance _).bind fun _ => .pure _
    | exact .of_reading fun n => (AgreeReading.advance _).bind fun _ => agree_operand (h n) _ _
    | exact .of_reading fun n => (AgreeReading.advance _).bind fun _ =>
        (Agree.eatKeyword _).bind fun _ => agree_distinctFrom.bind fun _ => agree_operand (h n) _ _
    | exact .of_reading fun n => (AgreeReading.advance _).bind fun _ => (h n _).agree.bind fun _ =>
        (AgreeReading.expectKeyword _).agree.bind fun _ => agree_operand (h n) _ _
    | exact .of_reading fun n => (AgreeReading.advance _).bind fun _ =>
        (agree_inTarget context (h n)).bind fun _ => .pure _

theorem advances_windowClause (h : ∀ n, OperandsAgree n op op) :
    RoundsAdvance (windowClause op) := by
  intro seen
  have hopen (name : String) (seen : Bool) (token : Token) (n : Nat) :
      AgreeReading n (openClause name seen token) (openClause name seen token) :=
    .ite (.fail _) ((AgreeReading.advance _).bind fun _ => .pure _)
  refine .after (fun _ => .current _) fun token => ?_
  split
  · exact .of_reading fun n => (hopen _ _ _ n).bind fun _ =>
      (AgreeReading.expectKeyword _).agree.bind fun _ => (agree_list (h n)).agree.bind fun _ =>
      .pure _
  · exact .of_reading fun n => (hopen _ _ _ n).bind fun _ =>
      (AgreeReading.expectKeyword _).agree.bind fun _ =>
      (agree_orderingTerms (h n)).agree.bind fun _ => .pure _
  all_goals first
    | exact .pure nofun
    | exact .of_reading fun n => (hopen _ _ _ n).bind fun _ =>
        (agree_frameExtent (h n)).bind fun _ => agree_frameExclusion.bind fun _ => .pure _

/-- Each loop of an expression is a loop over rounds that read at least one token. Lists, ordering
terms and the arms of a `CASE` start with one more item in front of the loop, which does so too. -/
structure LoopsAdvance (context : Context) (op : Operand) : Prop where
  trailingClauses_eq : trailingClauses context op = loop (trailingRound context op) false
  trailing : RoundsAdvance (trailingRound context op)
  separated_eq {α : Type} (item : Parser α) : separated item = (do
    let first ← item
    loop (nextItem item) [first])
  list_eq : list op = separated (op .all)
  item : Advances (op .all)
  items : RoundsAdvance (nextItem (op .all))
  orderingTerms_eq : orderingTerms op = (do let _ ← separated (orderingTerm op))
  term : Advances (orderingTerm op)
  terms : RoundsAdvance (nextItem (orderingTerm op))
  caseExpression_eq : caseExpression op = (do
    let _ ← expectKeyword .CASE
    caseBase op
    let _ ← expectKeyword .WHEN
    caseArm op
    loop (nextArm op) ()
    caseElse op
    let _ ← expectKeyword .END
    return .compound)
  arm : Advances (caseArm op)
  arms : RoundsAdvance (nextArm op)
  functionArguments_eq : functionArguments op = (do
    if ← eat "*" then pure ()
    else
      let distinct ← eatKeyword .DISTINCT
      match ← probe op with
      | some _ => loop (nextArgument op) ()
      | none =>
        if distinct then fail (.unexpected "an expression" (← current "an expression"))
        else pure ())
  arguments : RoundsAdvance (nextArgument op)
  windowDefinition_eq : windowDefinition op = (do
    let _ ← expect "("
    let _ ← accept isBaseWindow
    let _ ← loop (windowClause op) {}
    let _ ← expect ")")
  window : RoundsAdvance (windowClause op)

theorem roundsAdvance_nextItem {α : Type} {item : Parser α}
    (h : ∀ n, AgreeReading n item item) : RoundsAdvance (nextItem item) := fun _ =>
  .after (fun _ => .eat _) fun _ => .ite
    (.of_reading fun n => (h n).bind fun _ => .pure _) (.pure nofun)

theorem roundsAdvance_trailingRound (h : ∀ n, OperandsAgree n op op) :
    RoundsAdvance (trailingRound context op) := by
  intro _ s r t hr hsome
  obtain ⟨read, u, hread, hround⟩ := bind_eq_ok hr
  cases read with
  | false =>
    cases hround
    cases hsome
  | true =>
    cases hround
    exact advances_trailingClause h s true t hread rfl

theorem loopsAdvance (h : ∀ n, OperandsAgree n op op) : LoopsAdvance context op where
  trailingClauses_eq := rfl
  trailing := roundsAdvance_trailingRound h
  separated_eq _ := rfl
  list_eq := rfl
  item := .of_reading fun n => h n .all
  items := roundsAdvance_nextItem fun n => h n .all
  orderingTerms_eq := rfl
  term := .of_reading fun n => agree_orderingTerm (h n)
  terms := roundsAdvance_nextItem fun n => agree_orderingTerm (h n)
  caseExpression_eq := rfl
  arm := .of_reading (reading_caseArm h)
  arms _ := .after (fun _ => .eatKeyword _) fun _ => .ite
    (.of_reading fun n => (reading_caseArm h n).bind fun _ => .pure _) (.pure nofun)
  functionArguments_eq := rfl
  arguments _ := .after (fun _ => .eat _) fun _ => .ite
    (.of_reading fun n => (h n .all).bind fun _ => .pure _) (.pure nofun)
  windowDefinition_eq := rfl
  window := advances_windowClause h

/-! ### Termination -/

/-- Reading an expression ends, whatever the tokens are: as many levels of recursion as there are
tokens ahead decide what comes of it. Success moves the cursor forward and not beyond the end,
each nested call starts at a later token than the call that makes it, and every round of a loop
reads a token. -/
theorem parse_progress (context : Context) (chain : Chain) {tokens : List Token} {s : ParseState}
    (hs : s.rest <:+ tokens) :
    (∀ (op : Operand) (n : Nat), s.rest.length ≤ n →
      (layer context)^[n + 1] op chain s = parse context chain s) ∧
    (∀ e t, parse context chain s = .ok e t →
      t.rest <:+ tokens ∧ s.index tokens < t.index tokens ∧ t.index tokens ≤ tokens.length) ∧
    (∀ nested, Calls context (chain, s) nested → s.index tokens < nested.2.index tokens) ∧
    (∀ calls, List.IsChain (Calls context) ((chain, s) :: calls) →
      calls.length ≤ s.rest.length) ∧
    LoopsAdvance context (parse context) := by
  have hlater {t : ParseState} (ht : t.rest.length < s.rest.length) :
      s.index tokens < t.index tokens := by
    have hle := hs.length_le
    unfold ParseState.index
    omega
  refine ⟨fun op n hn => iterate_layer op hn, fun e t h => ?_, fun nested h => hlater h.shorter,
    fun calls h => length_calls_le h, loopsAdvance (operandsAgree_parse context)⟩
  obtain ⟨hsuffix, hlt⟩ := advances_parse context chain s e t h trivial
  exact ⟨hsuffix.trans hs, hlater hlt, Nat.sub_le _ _⟩

/-- A sign in front of a `NOT` in the middle of some tokens: two calls, one inside the other. -/
theorem parse_progress_signs :
    let context : Context := ⟨{}, .deferred⟩
    let word (value : String) (n : Nat) : Token := ⟨value, .other, ⟨n, 0, n⟩⟩
    let tokens := [word "," 0, ⟨"-", .operator true true, ⟨1, 0, 1⟩⟩, word "NOT" 2, word "x" 3]
    let state (n : Nat) : ParseState := { rest := tokens.drop n }
    (state 1).rest <:+ tokens ∧
      (∃ e, parse context .all (state 1) = .ok e (state 4) ∧
        (state 1).index tokens < (state 4).index tokens ∧
        (state 4).index tokens ≤ tokens.length) ∧
      List.IsChain (Calls context) [(.all, state 1), (.none, state 2), (.none, state 3)] ∧
      (state 1).index tokens < (state 2).index tokens ∧
      [(Chain.none, state 2), (Chain.none, state 3)].length ≤ (state 1).rest.length ∧
      ∀ op, (layer context)^[4] op .all (state 1) = parse context .all (state 1) := by
  intro context word tokens state
  have hs : (state 1).rest <:+ tokens := List.drop_suffix 1 tokens
  obtain ⟨hdepth, hsuccess, hlater, hcalls, -⟩ := parse_progress context .all hs
  have hparse : parse context .all (state 1) = .ok .compound (state 4) :=
    eq_ok_of_success? (by decide +kernel)
  have houter : Calls context (.all, state 1) (.none, state 2) :=
    calls_of_failure (.endOfInput "") (by decide +kernel) (by decide +kernel)
  have hinner : Calls context (.none, state 2) (.none, state 3) :=
    calls_of_failure (.endOfInput "") (by decide +kernel) (by decide +kernel)
  have hchain := List.isChain_cons_cons.2
    ⟨houter, List.isChain_cons_cons.2 ⟨hinner, List.isChain_singleton _⟩⟩
  obtain ⟨-, hindex⟩ := hsuccess .compound (state 4) hparse
  exact ⟨hs, ⟨.compound, hparse, hindex⟩, hchain, hlater _ houter, hcalls _ hchain,
    fun op => hdepth op 3 (Nat.le_refl 3)⟩

end Expr

end SqliteSchema
