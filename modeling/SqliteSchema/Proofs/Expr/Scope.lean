import SqliteSchema.Proofs.Expr.Mirror

/-!
Scopes only reject. An expression is read in the same way whether its column references are checked
or not: a check may end the run, and it decides nothing else. Hence what is accepted under a scope
is accepted without one, with the same result.
-/
namespace SqliteSchema

/-- What a scope says of a reference that it rejects. -/
def Scope.refusals : List ErrorCode := [.unknownTable, .unknownColumn, .ambiguousColumn]

/-- Two runs do the same, unless the first one ends with a rejected reference. -/
def Comparison.unscoped : Comparison := ⟨True, True, (· ∈ Scope.refusals)⟩

namespace Scope

theorem code_of_requireColumn {table : Table} {r : ColumnReference} {e : ParseError}
    (h : requireColumn table r = .error e) : e.code ∈ refusals := by
  unfold requireColumn at h
  split at h
  · cases h
  · cases h
    simp [ParseError.atToken, ParseError.ofToken, Fault.code, refusals]

theorem code_of_requireOneOwner {sources : List Source} {r : ColumnReference} {e : ParseError}
    (h : requireOneOwner sources r = .error e) : e.code ∈ refusals := by
  unfold requireOneOwner at h
  split at h
  · cases h
    simp [ParseError.atToken, ParseError.ofToken, Fault.code, refusals]
  · cases h
  · cases h
    simp [ParseError.atToken, ParseError.ofToken, Fault.code, refusals]

theorem code_of_check {registry : Registry} {scope : Scope} {r : ColumnReference} {e : ParseError}
    (h : scope.check registry r = .error e) : e.code ∈ refusals := by
  have hunknown (fault : Fault) (hcode : fault.code = .unknownTable) (t : Token) :
      (ParseError.atToken fault t).code ∈ refusals := by
    simp [ParseError.atToken, ParseError.ofToken, hcode, refusals]
  unfold check at h
  split at h
  · cases h
  · exact code_of_requireColumn h
  · split at h
    · exact code_of_requireColumn h
    · cases h
      exact hunknown _ rfl _
  · exact code_of_requireOneOwner h
  · split at h
    · exact code_of_requireColumn h
    · cases h
      exact hunknown _ rfl _

end Scope

namespace Expr

open SqliteSchema.Parser

variable {s t : ParseState}

/-- The same tables are known, and references that are alike may be rejected. -/
theorem sameContext_deferred (registry : Registry) (scope : Scope) :
    SameContext .unscoped ⟨registry, scope⟩ ⟨registry, .deferred⟩ := by
  constructor
  · intro name name' hname
    rw [find?_congr registry hname]
  · intro r r' _
    cases hcheck : scope.check registry r with
    | ok => exact .ok rfl
    | error e => exact .excused (Scope.code_of_check hcheck)

theorem Like.eq_of_unscoped {e e' : Expr} (h : Like .unscoped e e') : e = e' := by
  cases h with
  | literal ht => rw [ht.eq trivial trivial]
  | parameter => rfl
  | @column r r' hr =>
    obtain ⟨table, column⟩ := r
    obtain ⟨table', column'⟩ := r'
    have hcolumn : column = column' := hr.column.eq trivial trivial
    have htable := hr.table
    dsimp only at htable
    cases htable with
    | none => rw [hcolumn]
    | some ht => rw [hcolumn, ht.eq trivial trivial]
  | function h => rw [h.eq trivial]
  | compound => rfl

end Expr

theorem Parser.eq_of_sameWarnings {ws ws' : List Warning}
    (h : List.Forall₂ Comparison.unscoped.SameWarning ws ws') : ws = ws' := by
  rw [← List.forall₂_eq_eq_eq]
  exact h.imp fun _ _ hw => hw.eq trivial trivial

theorem Parser.Alike.eq_of_unscoped {s t : ParseState} (h : Alike .unscoped [] [] s t) : s = t := by
  obtain ⟨rest, parameters, warnings⟩ := s
  obtain ⟨rest', parameters', warnings'⟩ := t
  obtain ⟨hahead, hparameters, hwarnings⟩ := h
  dsimp only at hahead hparameters hwarnings
  have hrest : rest = rest' := by
    induction hahead with
    | stop => rfl
    | cons ht _ ih => rw [ht.eq trivial trivial, ih]
  rw [hrest, hparameters, eq_of_sameWarnings hwarnings]

namespace Expr

open SqliteSchema.Parser

/-- Two runs that do the same unless a reference is rejected. -/
theorem narrows_of_match {r r' : EStateM.Result ParseError ParseState Expr}
    (h : Match .unscoped [] [] (Like .unscoped) r r') :
    (∀ e t, r = .ok e t → r' = .ok e t) ∧
    (∀ e t f u, r' = .ok e t → r = .error f u →
      f.code = .unknownTable ∨ f.code = .unknownColumn ∨ f.code = .ambiguousColumn) ∧
    (∀ e t, r' = .error e t → ∃ f u, r = .error f u ∧
      (f.code ∈ Scope.refusals ∨ f = e ∧ u.warnings = t.warnings)) := by
  cases h with
  | ok hV hstate =>
    rw [hV.eq_of_unscoped, hstate.eq_of_unscoped]
    refine ⟨fun e t h => h, ?_, ?_⟩
    · intro e t f u _ h
      cases h
    · intro e t h
      cases h
  | error he hwarnings =>
    refine ⟨?_, ?_, ?_⟩
    · intro e t h
      cases h
    · intro e t f u h
      cases h
    · intro e t h
      cases h
      exact ⟨_, _, rfl, .inr ⟨he.eq trivial trivial, eq_of_sameWarnings hwarnings⟩⟩
  | excused he =>
    refine ⟨?_, ?_, ?_⟩
    · intro e t h
      cases h
    · intro e t f u _ h
      cases h
      simpa [Comparison.unscoped, Scope.refusals] using he
    · intro e t _
      exact ⟨_, _, rfl, .inl he⟩

/-- What a scope accepts is accepted without it, with the same result and the same tokens ahead,
parameters and warnings. What is accepted without a scope fails under it with a rejected reference
or not at all, and what fails without a scope fails under it, with the same error unless a reference
was rejected before. -/
theorem parse_deferred (registry : Registry) (scope : Scope) (chain : Chain) (s : ParseState) :
    (∀ e t, parse ⟨registry, scope⟩ chain s = .ok e t →
      parse ⟨registry, .deferred⟩ chain s = .ok e t) ∧
    (∀ e t f u, parse ⟨registry, .deferred⟩ chain s = .ok e t →
      parse ⟨registry, scope⟩ chain s = .error f u →
      f.code = .unknownTable ∨ f.code = .unknownColumn ∨ f.code = .ambiguousColumn) ∧
    (∀ e t, parse ⟨registry, .deferred⟩ chain s = .error e t →
      ∃ f u, parse ⟨registry, scope⟩ chain s = .error f u ∧
        (f.code ∈ Scope.refusals ∨ f = e ∧ u.warnings = t.warnings)) := by
  have hmirrors := mirrors_parse (sameContext_deferred registry scope) chain
  have hwithin : Within [] (parse ⟨registry, scope⟩ chain s) := by
    cases parse ⟨registry, scope⟩ chain s with
    | ok => exact List.nil_suffix
    | error => rfl
  exact narrows_of_match (hmirrors.mirror [] [] s s .nil (Alike.refl s) hwithin)

/-- A parameter behind a column of the table, a column that there is not, and a missing operand. -/
theorem parse_deferred_sources :
    let table : Table := { Table.named 0 "t" with columns := [Column.declare 0 "a" "INTEGER"] }
    let registry : Registry := ⟨[table]⟩
    let scope : Scope := .sources [⟨"s", table⟩]
    let word (value : String) (n : Nat) : Token := ⟨value, .other, ⟨n, 0, n⟩⟩
    let plus : Token := ⟨"+", .operator true true, ⟨3, 0, 3⟩⟩
    let column := [word "s" 0, word "." 1, word "a" 2, plus]
    let number : Parameters := ⟨[⟨1, "p", some ":p"⟩], 1⟩
    (parse ⟨registry, scope⟩ .all ⟨column ++ [word ":p" 4], {}, []⟩ =
        .ok .compound ⟨[], number, []⟩ ∧
      parse ⟨registry, .deferred⟩ .all ⟨column ++ [word ":p" 4], {}, []⟩ =
        .ok .compound ⟨[], number, []⟩) ∧
    (∃ f u, parse ⟨registry, scope⟩ .all ⟨column ++ [word "b" 4], {}, []⟩ = .error f u ∧
      parse ⟨registry, .deferred⟩ .all ⟨column ++ [word "b" 4], {}, []⟩ =
        .ok .compound ⟨[], {}, []⟩ ∧
      (f.code = .unknownTable ∨ f.code = .unknownColumn ∨ f.code = .ambiguousColumn)) ∧
    (∃ e t f u, parse ⟨registry, .deferred⟩ .all ⟨column, {}, []⟩ = .error e t ∧
      parse ⟨registry, scope⟩ .all ⟨column, {}, []⟩ = .error f u) := by
  intro table registry scope word plus column number
  have hnarrows (last : List Token) := parse_deferred registry scope .all ⟨column ++ last, {}, []⟩
  have hknown : parse ⟨registry, scope⟩ .all ⟨column ++ [word ":p" 4], {}, []⟩ =
      .ok .compound ⟨[], number, []⟩ :=
    eq_ok_of_success? (by decide +kernel)
  have hunknown : parse ⟨registry, .deferred⟩ .all ⟨column ++ [word "b" 4], {}, []⟩ =
      .ok .compound ⟨[], {}, []⟩ :=
    eq_ok_of_success? (by decide +kernel)
  obtain ⟨f, u, hrefused⟩ := eq_error_of_success?
    (r := parse ⟨registry, scope⟩ .all ⟨column ++ [word "b" 4], {}, []⟩) (by decide +kernel)
  obtain ⟨e, t, hmissing⟩ := eq_error_of_success?
    (r := parse ⟨registry, .deferred⟩ .all ⟨column, {}, []⟩) (by decide +kernel)
  obtain ⟨g, v, hfails, -⟩ := (hnarrows []).2.2 e t hmissing
  exact ⟨⟨hknown, (hnarrows _).1 _ _ hknown⟩,
    ⟨f, u, hrefused, hunknown, (hnarrows _).2.1 _ _ f u hunknown hrefused⟩,
    ⟨e, t, g, v, hmissing, hfails⟩⟩

end Expr

end SqliteSchema
