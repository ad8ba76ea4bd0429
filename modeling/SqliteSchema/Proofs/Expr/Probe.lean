import SqliteSchema.Proofs.Expr.Progress

/-!
The probe for an expression. Where an argument may be missing, the next two tokens decide whether
one is read, and a table of their own judges them. It turns no expression away.
-/
namespace SqliteSchema.Expr

open SqliteSchema.Parser

variable {context : Context} {op : Operand} {s t : ParseState} {w : Token} {e : Expr}

/-! ### Tokens that start no expression -/

/-- What a token is not that starts no expression by itself. -/
structure StartsNothing (w : Token) : Prop where
  literal : w.isLiteral = false
  opening : w.is "(" = false
  unary : w.isUnary = false
  parameter : w.isParameter = false
  reserved : ∀ k, w.keyword = some k →
    k ∉ [Keyword.CAST, .EXISTS, .CASE, .RAISE, .NOT, .NULL] ∧ k.isReserved = true
  name : w.keyword = none → w.isIdentifier = false

theorem startsNothing (h : startsExpression w = false) : StartsNothing w := by
  simp only [startsExpression, Bool.or_eq_false_iff] at h
  obtain ⟨⟨⟨⟨hliteral, hopening⟩, hunary⟩, hparameter⟩, hword⟩ := h
  refine ⟨hliteral, hopening, hunary, hparameter, fun k hk => ?_, fun hk => ?_⟩
  · simpa [hk] using hword
  · simpa [hk] using hword

namespace StartsNothing

/-- Of the keywords that are values only `NULL` is reserved. -/
theorem isLiteralValue (h : StartsNothing w) : isLiteralValue w = false := by
  have hfree : ∀ k ∈ literalKeywords, k = .NULL ∨ k.isReserved = false := by decide
  rw [Parser.isLiteralValue, h.literal, Bool.false_or, Bool.eq_false_iff]
  intro hany
  obtain ⟨k, hmem, hk⟩ := List.any_eq_true.1 hany
  obtain ⟨hopens, hreserved⟩ := h.reserved k (Token.isKeyword_iff_keyword.1 hk)
  rcases hfree k hmem with rfl | hfree
  · exact hopens (by decide)
  · rw [hreserved] at hfree
    cases hfree

theorem isColumnName (h : StartsNothing w) : isColumnName w = false := by
  cases hk : w.keyword with
  | none => rw [Expr.isColumnName, h.name hk, Bool.false_and]
  | some k =>
    rw [Expr.isColumnName, hk, Option.any_some, (h.reserved k hk).2, Bool.not_true, Bool.and_false]

end StartsNothing

/-! ### Operands that are turned away -/

theorem literalValue_eq_none (h : ∀ w, s.rest.head? = some w → isLiteralValue w = false) :
    literalValue s = .ok none s := by
  unfold literalValue accept
  split
  · rfl
  · next w rest hs => exact if_neg (Bool.eq_false_iff.1 (h w (by rw [hs, List.head?_cons])))

theorem columnOperand_eq_error (hs : s.rest.head? = some w) (h : isColumnName w = false) :
    columnOperand context s = .error (.unexpected "an expression" w) s := by
  obtain ⟨rest, hs⟩ := List.head?_eq_some_iff.1 hs
  have hrequire : require "an expression" isColumnName s =
      .error (.unexpected "an expression" w) s := by
    unfold require
    rw [hs]
    exact if_neg (Bool.eq_false_iff.1 h)
  rw [columnOperand, bind_apply, columnReference, bind_apply, hrequire]

/-- No keyword opens an operand but those of the table. -/
theorem simpleOperand_eq_columnOperand (h : StartsNothing w) :
    simpleOperand context op w = columnOperand context := by
  unfold simpleOperand
  split
  case h_6 => rw [if_neg (Bool.eq_false_iff.1 h.opening), if_neg (Bool.eq_false_iff.1 h.unary)]
  all_goals
    next hk => exact absurd (h.reserved _ hk).1 (by decide)

/-- Where the table sees no expression no operand is read. -/
theorem primary_eq_error (context : Context) (op : Operand) (h : mayStart s.rest = false) :
    ∃ e, primary context op s = .error e s := by
  cases hs : s.rest with
  | nil =>
    have hcurrent : current "an expression" s = .error (.endOfInput "an expression") s := by
      simp [current, hs]
    have hvalue : literalValue s = .ok none s := literalValue_eq_none (by simp [hs])
    refine ⟨.endOfInput "an expression", ?_⟩
    rw [primary, bind_apply, hvalue]
    dsimp only
    rw [bind_apply, hcurrent]
  | cons w rest =>
    rw [hs, mayStart, Bool.or_eq_false_iff] at h
    have hw := startsNothing h.1
    have hcurrent : current "an expression" s = .ok w s := by simp [current, hs]
    have hfunction : look startsFunction s = .ok false s := by rw [look, hs, h.2]
    have hvalue : literalValue s = .ok none s := literalValue_eq_none fun t ht => by
      obtain rfl : w = t := by simpa [hs] using ht
      exact hw.isLiteralValue
    refine ⟨.unexpected "an expression" w, ?_⟩
    rw [primary, bind_apply, hvalue]
    dsimp only
    rw [bind_apply, hcurrent]
    dsimp only
    rw [if_neg (Bool.eq_false_iff.1 hw.parameter), bind_apply, hfunction]
    dsimp only
    rw [if_neg Bool.false_ne_true, simpleOperand_eq_columnOperand hw,
      columnOperand_eq_error (by rw [hs, List.head?_cons]) hw.isColumnName]

theorem parse_eq_error (context : Context) (chain : Chain) (h : mayStart s.rest = false) :
    ∃ e, parse context chain s = .error e s := by
  obtain ⟨e, he⟩ := primary_eq_error context (parse context) h
  refine ⟨e, ?_⟩
  rw [parse_eq_layer, layer, bind_apply, he]

/-! ### The probe -/

theorem probe_apply (op : Operand) (s : ParseState) :
    probe op s = if mayStart s.rest then (some <$> op .all) s else .ok none s := by
  rw [probe, bind_apply, look]
  dsimp only
  split <;> rfl

theorem map_some_eq_ok {p : Parser Expr} (h : p s = .ok e t) :
    (some <$> p) s = .ok (some e) t := by
  rw [map_eq_pure_bind, bind_apply, h]
  rfl

/-- An argument that can be read is read. -/
theorem functionArguments_eq_loop {distinct : Bool} {u : ParseState}
    (hstar : s.rest.head?.any (·.is "*") = false)
    (hdistinct : eatKeyword .DISTINCT s = .ok distinct u)
    (hparse : parse context .all u = .ok e t) :
    functionArguments (parse context) s = loop (nextArgument (parse context)) () t := by
  have hnostar : eat "*" s = .ok false s := by
    cases hs : s.rest with
    | nil => simp [eat, accept, bind_apply, hs]; rfl
    | cons w rest =>
      rw [hs, List.head?_cons, Option.any_some] at hstar
      simp [eat, accept, bind_apply, hs, hstar]; rfl
  have hprobe : probe (parse context) u = .ok (some e) t := by
    have hstarts : mayStart u.rest = true := by
      by_contra hnot
      obtain ⟨f, hf⟩ := parse_eq_error context .all (Bool.eq_false_iff.2 hnot)
      rw [hf] at hparse
      cases hparse
    rw [probe_apply, if_pos hstarts, map_some_eq_ok hparse]
  rw [functionArguments, bind_apply, hnostar]
  dsimp only
  rw [if_neg Bool.false_ne_true, bind_apply, hdistinct]
  dsimp only
  rw [bind_apply, hprobe]
  rfl

/-- The probe misses no expression: where it finds none, nothing is changed and none can be read;
everywhere else it comes to what the parser of expressions comes to. So an argument of a function
that can be read is read, with and without a `DISTINCT` in front of it. -/
theorem probe_eq_parse (context : Context) (s : ParseState) :
    (∀ t, probe (parse context) s = .ok none t →
      t = s ∧ ∃ e u, parse context .all s = .error e u) ∧
    ((∀ t, probe (parse context) s ≠ .ok none t) →
      probe (parse context) s = (some <$> parse context .all) s) ∧
    (∀ distinct u e t, s.rest.head?.any (·.is "*") = false →
      eatKeyword .DISTINCT s = .ok distinct u → parse context .all u = .ok e t →
      functionArguments (parse context) s = loop (nextArgument (parse context)) () t) := by
  by_cases hstarts : mayStart s.rest = true
  · have hprobe : probe (parse context) s = (some <$> parse context .all) s := by
      rw [probe_apply, if_pos hstarts]
    refine ⟨fun t ht => ?_, fun _ => hprobe, fun _ _ _ _ => functionArguments_eq_loop⟩
    rw [hprobe, map_eq_pure_bind] at ht
    obtain ⟨e, u, -, he⟩ := bind_eq_ok ht
    cases he
  · have hprobe : probe (parse context) s = .ok none s := by
      rw [probe_apply, if_neg hstarts]
    refine ⟨fun t ht => ?_, fun hsome => absurd hprobe (hsome s),
      fun _ _ _ _ => functionArguments_eq_loop⟩
    rw [hprobe] at ht
    cases ht
    obtain ⟨e, he⟩ := parse_eq_error context .all (Bool.eq_false_iff.2 hstarts)
    exact ⟨rfl, e, s, he⟩

/-- A reserved word in front of a parenthesis, behind a `DISTINCT`; and no argument at all. -/
theorem probe_eq_parse_callable :
    let context : Context := ⟨{}, .deferred⟩
    let word (value : String) (n : Nat) : Token := ⟨value, .other, ⟨n, 0, n⟩⟩
    let tokens := [word "DISTINCT" 0, word "LIKE" 1, word "(" 2, word "x" 3, word ")" 4, word ")" 5]
    let state (n : Nat) : ParseState := { rest := tokens.drop n }
    parse context .all (state 1) = .ok (.function "LIKE") (state 5) ∧
      functionArguments (parse context) (state 0) =
        loop (nextArgument (parse context)) () (state 5) ∧
      probe (parse context) (state 1) = (some <$> parse context .all) (state 1) ∧
      probe (parse context) (state 5) = .ok none (state 5) ∧
      ∃ e u, parse context .all (state 5) = .error e u := by
  intro context word tokens state
  have hparse : parse context .all (state 1) = .ok (.function "LIKE") (state 5) :=
    eq_ok_of_success? (by decide +kernel)
  have hdistinct : eatKeyword .DISTINCT (state 0) = .ok true (state 1) :=
    eq_ok_of_success? (by decide +kernel)
  have hsome : probe (parse context) (state 1) = .ok (some (.function "LIKE")) (state 5) :=
    eq_ok_of_success? (by decide +kernel)
  have hnone : probe (parse context) (state 5) = .ok none (state 5) :=
    eq_ok_of_success? (by decide +kernel)
  obtain ⟨-, -, harguments⟩ := probe_eq_parse context (state 0)
  obtain ⟨-, hprobe, -⟩ := probe_eq_parse context (state 1)
  obtain ⟨hfails, -, -⟩ := probe_eq_parse context (state 5)
  refine ⟨hparse, harguments true (state 1) _ (state 5) (by decide) hdistinct hparse,
    hprobe fun t ht => ?_, hnone, (hfails (state 5) hnone).2⟩
  cases hsome.symm.trans ht

end SqliteSchema.Expr
