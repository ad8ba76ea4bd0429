import Mathlib.Data.List.Perm.Basic
import SqliteSchema.Proofs.Schema.Constraint

/-!
Columns with their constraints in another order. The constraints of a column are cut into clauses as
they are read, and each clause says and reports the same wherever it stands. So the clauses can be
put in another order, and the table differs in the order of its foreign keys at most.
-/
namespace SqliteSchema

/-- A mark that is neither a word nor quoted names nothing. -/
theorem Token.isIdentifier_eq_false {t : Token} (hstart : ¬ t.value.toList.head?.any startsWord)
    (hquoted : Literal.Quoted.inside? t.value.toList = none) : t.isIdentifier = false := by
  simp [isIdentifier, isQuoted, hstart, hquoted]

namespace Definition

open SqliteSchema.Parser

/-- The constraints of a column, cut into clauses: from a table and a state to the table and the
state behind them. -/
inductive Clauses (earlier : Registry) (index : Nat) :
    Table → ParseState → List (List Token) → Table → ParseState → Prop
  | nil {t : Table} {s : ParseState}
    (hstop : s.rest.head?.any (fun t => !t.is "," && !t.is ")") = false) :
    Clauses earlier index t s [] t s
  | cons {t t' t'' : Table} {s s' s'' : ParseState} {c : List Token} {cs : List (List Token)}
    (hclause : clause earlier index t s = .ok t' s') (hrest : s.rest = c ++ s'.rest)
    (hmore : Clauses earlier index t' s' cs t'' s'') : Clauses earlier index t s (c :: cs) t'' s''

variable {earlier : Registry} {index : Nat} {t t' outline : Table} {s s' : ParseState}
  {v : List Token} {cs cs' : List (List Token)} {ps : Parameters}
  {xs : List (Effect × List Warning)}

/-- A comma or a closing parenthesis ends whatever stands before it. -/
theorem ends_of_stop {w : List Token}
    (h : w.head?.any (fun t => !t.is "," && !t.is ")") = false) : Ends w ∧ EndsType w := by
  cases w with
  | nil => exact ⟨.nil, misses_nil, misses_nil⟩
  | cons t w =>
    have hvalue : t.value = "," ∨ t.value = ")" := by
      rw [List.head?_cons, Option.any_some, Bool.and_eq_false_iff, Bool.not_eq_false',
        Bool.not_eq_false'] at h
      exact h.imp Token.value_of_is Token.value_of_is
    have hword (k : Keyword) : t.isKeyword k = false := by
      refine Token.isKeyword_eq_false ?_ k
      rcases hvalue with hvalue | hvalue <;> rw [hvalue] <;> decide +kernel
    have hparen : t.is "(" = false := by
      rcases hvalue with hvalue | hvalue <;> simp [Token.is, hvalue]
    have hname : t.isIdentifier = false := by
      apply Token.isIdentifier_eq_false <;> rcases hvalue with hvalue | hvalue <;>
        rw [hvalue] <;> decide +kernel
    refine ⟨⟨?_, ?_⟩, ?_, hparen⟩
    · change continues t = false
      rw [continues, hparen, Bool.false_or]
      exact List.any_eq_false.2 fun k _ => Bool.eq_false_iff.1 (hword k)
    · simp [startsDeferrable, hword]
    · change isTypeWord t = false
      rw [isTypeWord, hname, Bool.false_and]

/-- A round reads one clause, unless it stops. -/
theorem clauseRound_eq (earlier : Registry) (index : Nat) (t : Table) (s : ParseState) :
    clauseRound earlier index t s =
      if s.rest.head?.any (fun t => !t.is "," && !t.is ")") then
        (clause earlier index t >>= fun t => pure (some t)) s
      else .ok none s := by
  unfold clauseRound clause
  rw [bind_apply]
  dsimp only [look]
  split
  · simp only [bind_assoc]
  · rfl

theorem clauseRound_of_clause (h : clause earlier index t s = .ok t' s') :
    clauseRound earlier index t s = .ok (some t') s' := by
  rw [clauseRound_eq, if_pos (opens_of_clause h).goesOn, bind_apply, h]
  rfl

/-- The constraints of a column are read as clauses. -/
theorem columnConstraints_eq_ok : columnConstraints earlier index t s = .ok t' s' ↔
    ∃ cs, Clauses earlier index t s cs t' s' := by
  rw [columnConstraints_eq]
  constructor
  · intro h
    induction hn : s.rest.length using Nat.strongRecOn generalizing s t with
    | ind n ih =>
      rw [Parser.loop] at h
      cases hround : clauseRound earlier index t s with
      | error e u => simp [hround] at h
      | ok r u =>
        have hcases := hround
        rw [hround] at h
        rw [clauseRound_eq] at hcases
        split at hcases
        · obtain ⟨t₁, u₁, hclause, hend⟩ := bind_eq_ok hcases
          cases hend
          have hlength := length_lt_of_clauseRound hround
          obtain ⟨cs, hmore⟩ := ih _ (hn ▸ hlength) ((if_pos hlength).symm.trans h) rfl
          obtain ⟨c, hrest⟩ := Agree.suffix
            (local_clause (B := True) .nil .nil earlier index t).keeps hclause
          exact ⟨c :: cs, .cons hclause hrest.symm hmore⟩
        · next hstop =>
          cases hcases
          cases h
          exact ⟨[], .nil (Bool.eq_false_iff.2 hstop)⟩
  · rintro ⟨cs, h⟩
    induction h with
    | nil hstop =>
      rw [Parser.loop, clauseRound_eq, if_neg (Bool.eq_false_iff.1 hstop)]
    | cons hclause hrest hmore ih =>
      have hround := clauseRound_of_clause hclause
      rw [Parser.loop, hround]
      exact (if_pos (length_lt_of_clauseRound hround)).trans ih

namespace Clauses

theorem rest (h : Clauses earlier index t s cs t' s') : s.rest = cs.flatten ++ s'.rest := by
  induction h with
  | nil hstop => rfl
  | cons hclause hrest hmore ih => rw [hrest, ih, List.flatten_cons, List.append_assoc]

theorem stop (h : Clauses earlier index t s cs t' s') :
    s'.rest.head?.any (fun t => !t.is "," && !t.is ")") = false := by
  induction h with
  | nil hstop => exact hstop
  | cons _ _ _ ih => exact ih

theorem ends (h : Clauses earlier index t s cs t' s') : Ends s.rest ∧ EndsType s.rest := by
  cases h with
  | nil hstop => exact ends_of_stop hstop
  | cons hclause => exact ⟨(opens_of_clause hclause).ends, (opens_of_clause hclause).endsType⟩

/-- Clauses that were read say and report something by themselves. -/
theorem exists_acts (h : Clauses earlier index t s cs t' s') (hindex : index < t.columns.length)
    (hnone : ∀ c ∈ cs, ∀ t ∈ c, t.isParameter = false) (hother : ∀ c ∈ cs, refersTo t c = false) :
    s'.parameters = s.parameters ∧
      ∃ xs, List.Forall₂ (Acts earlier index t.outline s.parameters) cs xs ∧
        s'.warnings = s.warnings ++ xs.flatMap (·.2) ∧
        Effect.applyAll index t (xs.map (·.1)) = .ok t' := by
  induction h with
  | nil hstop => exact ⟨rfl, [], .nil, (List.append_nil _).symm, rfl⟩
  | @cons t t' t'' s s' s'' c cs hclause hrest hmore ih =>
    obtain ⟨hnone, hnone'⟩ := List.forall_mem_cons.1 hnone
    obtain ⟨hother, hother'⟩ := List.forall_mem_cons.1 hother
    obtain ⟨rest, ps, ws⟩ := s
    obtain ⟨rest', ps', ws'⟩ := s'
    obtain rfl : rest = c ++ rest' := hrest
    obtain ⟨rfl, x, hx, hws, happly⟩ := Definition.exists_acts hclause hmore.ends.1 hnone hother
    obtain ⟨houtline, hlength⟩ := Effect.outline_of_apply hindex happly
    obtain ⟨hps, xs, hxs, hws', happly'⟩ := ih (hlength ▸ hindex) hnone' fun c hc =>
      (congrArg (fun t : Table => refersTo t c) houtline).trans (hother' c hc)
    refine ⟨hps, x :: xs, .cons hx (houtline ▸ hxs), ?_,
      Effect.applyAll_cons.2 ⟨t', happly, happly'⟩⟩
    rw [hws', List.flatMap_cons, ← List.append_assoc]
    exact congrArg (· ++ _) hws

/-- Clauses are read wherever their table accepts what they say. -/
theorem of_acts (h : List.Forall₂ (Acts earlier index outline ps) cs xs)
    (hstop : v.head?.any (fun t => !t.is "," && !t.is ")") = false) (houtline : t.outline = outline)
    (hindex : index < t.columns.length)
    (happly : Effect.applyAll index t (xs.map (·.1)) = .ok t') (ws : List Warning) :
    Clauses earlier index t ⟨cs.flatten ++ v, ps, ws⟩ cs t'
      ⟨v, ps, ws ++ xs.flatMap (·.2)⟩ := by
  induction h generalizing t ws with
  | nil =>
    cases happly
    rw [List.flatMap_nil, List.append_nil]
    exact .nil hstop
  | @cons c x cs xs hc hcs ih =>
    obtain ⟨u, hu, happly⟩ := Effect.applyAll_cons.1 happly
    obtain ⟨houtline', hlength⟩ := Effect.outline_of_apply hindex hu
    have hmore := ih (houtline'.trans houtline) (hlength ▸ hindex) happly (ws ++ x.2)
    rw [List.flatten_cons, List.append_assoc c, List.flatMap_cons, ← List.append_assoc ws]
    exact .cons (hc.run houtline hmore.ends.1 hu ws) rfl hmore

theorem countP_isCollation (h : List.Forall₂ (Acts earlier index outline ps) cs xs) :
    (xs.map (·.1)).countP Effect.isCollation = cs.countP collates := by
  induction h with
  | nil => rfl
  | cons hx _ ih => rw [List.map_cons, List.countP_cons, List.countP_cons, ih, hx.collates]

/-- In another order the clauses are read as well. -/
theorem perm (h : Clauses earlier index t s cs t' s') (hindex : index < t.columns.length)
    (hnone : ∀ c ∈ cs, ∀ t ∈ c, t.isParameter = false) (hother : ∀ c ∈ cs, refersTo t c = false)
    (hcollation : cs.countP collates ≤ 1) (hperm : cs'.Perm cs) :
    ∃ u ws, t'.Rekeyed List.Perm u ∧ ws.Perm s'.warnings ∧
      Clauses earlier index t { s with rest := cs'.flatten ++ s'.rest } cs' u
        { s' with warnings := ws } := by
  -- What the clauses say changes places with them, and the table takes it in any order.
  obtain ⟨hps, xs, hxs, hws, happly⟩ := h.exists_acts hindex hnone hother
  obtain ⟨xs', hxs', hperm'⟩ := List.perm_comp_forall₂ hperm hxs
  have hcount := countP_isCollation hxs
  obtain ⟨u, hu, hkeys⟩ := Effect.applyAll_perm (List.getElem?_eq_getElem hindex)
    (hperm'.map (·.1)) (hcount ▸ hcollation) happly
  refine ⟨u, s.warnings ++ xs'.flatMap (·.2), hkeys, ?_, ?_⟩
  · rw [hws]
    exact (hperm'.flatMap_right _).append_left _
  · rw [hps]
    exact of_acts hxs' h.stop rfl hindex hu s.warnings

end Clauses

end Definition

end SqliteSchema
