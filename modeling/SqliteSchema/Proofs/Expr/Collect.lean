import SqliteSchema.Proofs.Expr.Scan
import SqliteSchema.Proofs.Parameter.Unique

/-!
The bind parameters of an expression. Each of them is registered once where it is read, unless a
group hides it that is passed over; and which groups are passed over is told by the tokens alone.
-/
namespace SqliteSchema.Expr

open SqliteSchema.Parser

variable {P : List Token → Prop} {s t : ParseState} {e : Expr}

theorem collects_parse (context : Context) (P : List Token → Prop) (chain : Chain) :
    Collects P (parse context chain) :=
  (follows_parse context chain).scans.collects

theorem collects_orderingTerms (context : Context) : Collects P (orderingTerms (parse context)) :=
  (follows_orderingTerms (follows_parse context)).scans.collects

/-- An expression registers the bind parameters among the tokens that it reads, in their order and
each of them once, except for those in groups that are passed over. These are the groups behind
`EXISTS` and those that start with the first word of a query where an operand or the right-hand
side of an `IN` stands; the tokens of a text can be cut into groups and other tokens in this one
way only. -/
theorem registered_of_parse (context : Context) (chain : Chain)
    (h : parse context chain s = .ok e t) :
    ∃ read : List Stretch, s.rest = read.flatMap Stretch.tokens ++ t.rest ∧
      Place.Path .operand read .done ∧
      s.parameters.registerAll (read.flatMap Stretch.shown) = .ok t.parameters ∧
      ((∀ w ∈ read.flatMap Stretch.tokens, w.IsRegular) → ∀ read' q,
        Place.Path .operand read' q →
        read'.flatMap Stretch.tokens = read.flatMap Stretch.tokens → read' = read) := by
  obtain ⟨q, read, hq, hpath, hcovers⟩ :=
    follows_parse context chain .operand s e t (ready_at rfl) h
  obtain rfl : q = .done := hq
  refine ⟨read, hcovers.rest, hpath, hcovers.registers, fun hregular read' q' hpath' htokens => ?_⟩
  exact (path_unique hpath hpath' htokens.symm hregular).symm

/-- Parameters in arguments, in a window and behind `IN`, and three groups that are passed over. -/
theorem registered_of_parse_groups :
    let context : Context := ⟨{}, .deferred⟩
    let text :=
      "f(?, (SELECT :a)) OVER (ORDER BY :b) IN (?7, (WITH ?)) AND NOT EXISTS (?) OR ? - :b"
    ∃ ts e t, Token.tokenize text = .ok ts ∧
      parse context .all { rest := ts, parameters := ⟨[⟨4, "param4", none⟩], 4⟩ } = .ok e t ∧
      t.parameters.entries.map (fun p => (p.number, p.outputName)) =
        [(4, "param4"), (5, "param5"), (6, "b"), (7, "param7"), (8, "param8")] ∧
      ∃ read : List Stretch, ts = read.flatMap Stretch.tokens ++ t.rest ∧
        Place.Path .operand read .done ∧
        Parameters.registerAll ⟨[⟨4, "param4", none⟩], 4⟩ (read.flatMap Stretch.shown) =
          .ok t.parameters ∧
        ∀ read' q, Place.Path .operand read' q →
          read'.flatMap Stretch.tokens = read.flatMap Stretch.tokens → read' = read := by
  intro context text
  have hparse : (Token.tokenize text).map (fun ts =>
      match parse context .all { rest := ts, parameters := ⟨[⟨4, "param4", none⟩], 4⟩ } with
      | .ok _ t => t.parameters.entries.map fun p => (p.number, p.outputName)
      | .error _ _ => []) =
      .ok [(4, "param4"), (5, "param5"), (6, "b"), (7, "param7"), (8, "param8")] := by
    decide +kernel
  cases htokens : Token.tokenize text with
  | error f =>
    rw [htokens] at hparse
    cases hparse
  | ok ts =>
    rw [htokens] at hparse
    have hnumbers := Except.ok.inj hparse
    dsimp only at hnumbers
    split at hnumbers
    · next e t ht =>
      obtain ⟨read, hrest, hpath, hregister, hunique⟩ := registered_of_parse context .all ht
      refine ⟨ts, e, t, rfl, ht, hnumbers, read, hrest, hpath, hregister, hunique fun w hw => ?_⟩
      refine Token.isRegular_of_tokenize htokens w ?_
      rw [show ts = _ from hrest]
      exact List.mem_append_left _ hw
    · cases hnumbers

end SqliteSchema.Expr
