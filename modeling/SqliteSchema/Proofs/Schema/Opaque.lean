import SqliteSchema.Proofs.Parameter.Stretch
import SqliteSchema.Proofs.Schema.Site

/-!
Groups in a schema that are passed over. The tables are the same whatever stands in the parentheses
behind a `CHECK` and in those of a generated column, as long as the parentheses in there are
balanced.
-/
namespace SqliteSchema

namespace Parser

variable {ks : List Keyword} {s t : ParseState}

/-- Reads these keywords. -/
def keywords : List Keyword → Parser Unit
  | [] => return ()
  | k :: ks => do
    let _ ← expectKeyword k
    keywords ks

theorem keywords_eq_ok (h : keywords ks s = .ok () t) :
    ∃ ws, List.Forall₂ (fun k (w : Token) => w.isKeyword k = true) ks ws ∧
      s.rest = ws ++ t.rest ∧ t = { s with rest := t.rest } := by
  induction ks generalizing s with
  | nil =>
    cases h
    exact ⟨[], .nil, rfl, rfl⟩
  | cons k ks ih =>
    obtain ⟨w, u, hw, hmore⟩ := bind_eq_ok h
    obtain ⟨hrest, hkeyword, hu⟩ := require_eq_ok hw
    obtain ⟨ws, hws, hmore, ht⟩ := ih hmore
    refine ⟨w :: ws, .cons hkeyword hws, by rw [hrest, hmore, List.cons_append], ?_⟩
    rw [ht, hu]

theorem keywords_apply {ws rest : List Token}
    (h : List.Forall₂ (fun k (w : Token) => w.isKeyword k = true) ks ws)
    (hs : s.rest = ws ++ rest) : keywords ks s = .ok () { s with rest := rest } := by
  induction h generalizing s with
  | nil =>
    obtain rfl : s.rest = rest := hs
    rfl
  | @cons k w ks ws hkeyword _ ih =>
    have hfirst : expectKeyword k s = .ok w { s with rest := ws ++ rest } := by
      unfold expectKeyword require
      rw [hs]
      exact if_pos hkeyword
    rw [keywords, bind_apply, hfirst]
    exact ih rfl

theorem Mirrors.keywords {c : Comparison} (ks : List Keyword) :
    Mirrors c Eq (keywords ks) (keywords ks) := by
  induction ks with
  | nil => exact pure rfl
  | cons k ks ih => exact expectKeyword.bind fun _ _ _ => ih

end Parser

namespace Definition

open SqliteSchema.Parser

variable {source : List Char} {registry : Registry} {s t u : ParseState}

/-! ### Where groups are passed over -/

/-- A table constraint up to its first word, behind its name. -/
def constraintOpening : Parser Unit := do
  let first ← current "a column definition or table constraint"
  if startsConstraint first then constraintName
  else fail (.unexpected "a table constraint" first)

/-- A column constraint up to its first word, behind its name. -/
def clauseOpening : Parser Unit := do
  if ← look (·.head?.any fun t => !t.is "," && !t.is ")") then constraintName
  else fail (.endOfInput "a column constraint")

/-- Up to the first word of a table constraint. -/
def upToConstraint (source : List Char) (registry : Registry) (n k : Nat) :
    Parser Unfinished := do
  let x ← upToItem source registry n k
  let _ ← expect (separator k)
  constraintOpening
  return x

/-- Up to the first word of a column constraint that has `j` others before it. -/
def upToClause (source : List Char) (registry : Registry) (n k j : Nat) :
    Parser (Unfinished × Table) := do
  let x ← upToItem source registry n k
  let _ ← expect (separator k)
  let column ← columnOpening x.body
  let table ← rounds (clauseRound x.earlier x.body.table.columns.length) j column
  clauseOpening
  return (x, table)

/-- What opens the group of a column constraint that is passed over. -/
def groupWords : List (List Keyword) := [[.CHECK], [.AS], [.GENERATED, .ALWAYS, .AS]]

/-- The schema that is read from `s` passes over a group at `u`: that of a table constraint, or that
of a column constraint or of a generated column. -/
inductive PassesOver (source : List Char) (registry : Registry) (s : ParseState) :
    ParseState → Prop
  | constraint {n k : Nat} {x : Unfinished} {u : ParseState}
    (h : (do
      let x ← upToConstraint source registry n k
      keywords [.CHECK]
      return x) s = .ok x u) : PassesOver source registry s u
  | clause {n k j : Nat} {words : List Keyword} {x : Unfinished × Table} {u : ParseState}
    (hwords : words ∈ groupWords)
    (h : (do
      let x ← upToClause source registry n k j
      keywords words
      return x) s = .ok x u) : PassesOver source registry s u

/-- A place where schemas have a group: how they are read up to the words in front of it, and how
they are read behind it. -/
structure Site (registry : Registry) (α : Type) where
  upTo : List Char → Parser α
  words : List Keyword
  behind : List Char → α → Parser Registry
  Same : α → α → Prop
  words_ne : words ≠ []
  resumes : ∀ source, Resumes (schema source registry) (do
    let x ← upTo source
    keywords words
    return x) fun x => skipBalanced >>= fun _ => behind source x
  mirrors_upTo : ∀ source source', Mirrors .text Same (upTo source) (upTo source')
  mirrors_behind : ∀ source source' x x', Same x x' →
    Mirrors .text Registry.SameTables (behind source x) (behind source' x')

theorem mirrors_constraintOpening : Mirrors .text Eq constraintOpening constraintOpening := by
  refine Mirrors.current.bind fun t t' ht => ?_
  cases Comparison.like_text_iff.1 ht with
  | intro v k p q => exact .ite mirrors_constraintName (mirrors_fail ⟨rfl, rfl⟩)

theorem mirrors_clauseOpening : Mirrors .text Eq clauseOpening clauseOpening :=
  (Mirrors.test (by simp)).seq fun _ => .ite mirrors_constraintName (.fail (.refl _))

/-! ### Going on at a group -/

/-- A table constraint is taken up at the group behind `CHECK`. -/
theorem resumes_constraint (earlier : Registry) (body : Body) :
    Resumes (bodyItem earlier body) (do
      constraintOpening
      keywords [.CHECK]) fun _ =>
        skipBalanced >>= fun _ => pure { body with constrained := true } := by
  have hopening : Resumes (bodyItem earlier body) constraintOpening fun _ => do
      let token ← advance "a table constraint"
      return ⟨← tableConstraint earlier body.table token, true⟩ := by
    unfold bodyItem constraintOpening
    refine (Resumes.refl (current _) _).bind fun first => ?_
    exact Resumes.ite (Resumes.refl _ _)
  refine hopening.bind fun _ => (Resumes.advance fun w hw => ?_).bind fun _ => .done rfl
  rw [tableConstraint, Token.isKeyword_iff_keyword.1 hw]
  simp only [bind_assoc, pure_bind]

theorem resumes_clauseOpening (earlier : Registry) (index : Nat) (table : Table) :
    Resumes (clauseRound earlier index table) clauseOpening fun _ => do
      let token ← advance "a column constraint"
      return some (← columnConstraint earlier table index token) := by
  unfold clauseRound clauseOpening
  refine (Resumes.refl (look _) _).bind fun more => ?_
  exact Resumes.ite (Resumes.refl _ _)

/-- What may stand behind a group. -/
def groupEnding : List Keyword → Parser Unit
  | [.CHECK] => return ()
  | _ => do
    let _ ← eatAnyKeyword [.STORED, .VIRTUAL]

/-- A column constraint is taken up at its group. -/
theorem resumes_clause (earlier : Registry) (index : Nat) (table : Table) {words : List Keyword}
    (hwords : words ∈ groupWords) :
    Resumes (clauseRound earlier index table) (do
      clauseOpening
      keywords words) fun _ => do
        let _ ← skipBalanced
        groupEnding words
        return some table := by
  refine (resumes_clauseOpening earlier index table).bind fun _ => ?_
  simp only [groupWords, List.mem_cons, List.not_mem_nil, or_false] at hwords
  rcases hwords with rfl | rfl | rfl
  · refine (Resumes.advance fun w hw => ?_).bind fun _ => .done rfl
    rw [columnConstraint, Token.isKeyword_iff_keyword.1 hw]
    simp only [groupEnding, bind_assoc, pure_bind]
  · refine (Resumes.advance fun w hw => ?_).bind fun _ => .done rfl
    rw [columnConstraint, Token.isKeyword_iff_keyword.1 hw]
    simp only [generatedColumn, groupEnding, bind_assoc, pure_bind]
  · refine (Resumes.advance (k := fun _ => keywords [.ALWAYS, .AS] >>= fun _ => skipBalanced >>=
      fun _ => groupEnding [.GENERATED, .ALWAYS, .AS] >>= fun _ => pure (some table)) fun w hw =>
      ?_).bind fun _ => Resumes.refl _ _
    rw [columnConstraint, Token.isKeyword_iff_keyword.1 hw]
    simp only [keywords, generatedColumn, groupEnding, bind_assoc, pure_bind]

theorem mirrors_groupEnding (words : List Keyword) :
    Mirrors .text Eq (groupEnding words) (groupEnding words) := by
  unfold groupEnding
  split
  · exact .pure rfl
  · exact Mirrors.eatAnyKeyword.seq fun _ => .pure rfl

def constraintSite (registry : Registry) (n k : Nat) : Site registry Unfinished where
  upTo source := upToConstraint source registry n k
  words := [.CHECK]
  behind source x := behindItem source x { x.body with constrained := true }
  Same := Unfinished.Same
  words_ne := nofun
  resumes source := by
    have hitem := (resumes_item source registry n k).keep fun x =>
      (resumes_constraint x.earlier x.body).left (behindItem source x)
    simpa only [upToConstraint, bind_assoc, pure_bind] using hitem
  mirrors_upTo source source' := (mirrors_upToItem source source' registry n k).bind
    fun _ _ hx => Mirrors.expect.bind fun _ _ _ => mirrors_constraintOpening.seq fun _ => .pure hx
  mirrors_behind source source' x x' hx := mirrors_behindItem_same source source'
    hx.earlier (by rw [hx.body])

/-- Behind the group of a column constraint: the rest of the column, and what follows it. -/
def behindClause (source : List Char) (words : List Keyword) (x : Unfinished × Table) :
    Parser Registry := do
  groupEnding words
  let table ← columnConstraints x.1.earlier x.1.body.table.columns.length x.2
  behindItem source x.1 { x.1.body with table := table }

def clauseSite (registry : Registry) (n k j : Nat) {words : List Keyword}
    (hwords : words ∈ groupWords) : Site registry (Unfinished × Table) where
  upTo source := upToClause source registry n k j
  words := words
  behind source := behindClause source words
  Same x x' := x.1.Same x'.1 ∧ x.2 = x'.2
  words_ne := by
    rintro rfl
    simp [groupWords] at hwords
  resumes source := by
    have hclause (earlier : Registry) (index : Nat) (table : Table) :
        Resumes (columnConstraints earlier index table)
          (clauseOpening >>= fun _ => keywords words) fun _ =>
            skipBalanced >>= fun _ => groupEnding words >>= fun _ =>
              columnConstraints earlier index table := by
      refine (Resumes.round (q := fun _ => skipBalanced >>= fun _ => groupEnding words >>= fun _ =>
        pure table) (fun _ _ _ => length_lt_of_clauseRound)
        ((resumes_clause earlier index table hwords).congr fun _ => ?_)).congr fun _ => ?_
      · simp only [bind_assoc, pure_bind]
      · simp only [bind_assoc, pure_bind]
        rfl
    have hitem := (resumes_item source registry n k).bind fun x =>
      ((resumes_columnOpening x.earlier x.body).left (behindItem source x)).bind fun column =>
      (((Resumes.rounds (fun _ _ _ _ => length_lt_of_clauseRound) j column).left _).left _).bind
      fun table => (((hclause x.earlier x.body.table.columns.length table).left _).left _).bind
      fun _ => .done (b := (x, table))
        (l := fun x => skipBalanced >>= fun _ => behindClause source words x) (by
        simp only [behindClause, bind_assoc, pure_bind])
    simpa only [upToClause, bind_assoc, pure_bind] using hitem
  mirrors_upTo source source' := by
    refine (mirrors_upToItem source source' registry n k).bind fun x x' hx =>
      Mirrors.expect.bind fun _ _ _ => ?_
    have hbody : x.body.Rekeyed Eq x'.body := hx.body ▸ ⟨.refl _, rfl⟩
    have hround (index : Nat) (table table' : Table) (ht : table.Rekeyed Eq table') :=
      mirrors_clauseRound hx.earlier.sameShapes ht index
    rw [← hx.body]
    exact (mirrors_columnOpening ⟨.refl _, rfl⟩).bind fun _ _ hcolumn =>
      (Mirrors.rounds (hround _) j hcolumn).bind fun _ _ ht => mirrors_clauseOpening.seq fun _ =>
      .pure ⟨hx, ht.eq⟩
  mirrors_behind source source' x x' hx := by
    rw [behindClause, behindClause, ← hx.1.body, ← hx.2]
    exact (mirrors_groupEnding words).seq fun _ =>
      (mirrors_columnConstraints hx.1.earlier.sameShapes _ (.refl x.2)).bind fun _ _ ht =>
      mirrors_behindItem_same source source' hx.1.earlier (by rw [ht.eq])

/-! ### Other groups -/

variable {α : Type}

theorem PassesOver.exists_site (h : PassesOver source registry s u) :
    ∃ (α : Type) (site : Site registry α) (x : α), (do
      let x ← site.upTo source
      keywords site.words
      return x) s = .ok x u := by
  cases h with
  | @constraint n k x _ h => exact ⟨_, constraintSite registry n k, x, h⟩
  | @clause n k j words x _ hwords h => exact ⟨_, clauseSite registry n k j hwords, x, h⟩

/-- In front of words and a group the next two tokens do not hang on what is in the group. -/
theorem near_words {c : Comparison} {ks : List Keyword} {ws ts ts' us : List Token}
    {opening : Token} (hks : ks ≠ [])
    (hws : List.Forall₂ (fun k (w : Token) => w.isKeyword k = true) ks ws)
    (hopening : opening.is "(" = true) (h : List.Forall₂ c.Like (ws ++ opening :: ts') us) :
    Near c (ws ++ opening :: ts) us := by
  cases hws with
  | nil => exact absurd rfl hks
  | cons _ hmore =>
    obtain ⟨u, us, hu, h', rfl⟩ := List.forall₂_cons_left_iff.1 h
    cases hmore with
    | nil =>
      obtain ⟨v, vs, hv, -, rfl⟩ := List.forall₂_cons_left_iff.1 h'
      exact .two hu hv (Token.is_of_is hopening)
    | @cons k _ _ _ hsecond =>
      have hpoint : ".".toLower ≠ k.text := by
        intro htext
        have hnone : Keyword.ofText? ".".toLower = none := by decide +kernel
        rw [htext, Keyword.ofText?_text] at hnone
        cases hnone
      obtain ⟨v, vs, hv, -, rfl⟩ := List.forall₂_cons_left_iff.1 h'
      exact .two hu hv (Token.is_of_isKeyword hsecond hpoint)

/-- A schema in which a group that it passes over has other tokens in it. -/
theorem Site.schema_refilled (site : Site registry α) {x : α} {v s' : ParseState} {r : Registry}
    {source' : List Char} {ws front rest inside : List Token} {g : Group}
    (h : schema source registry s = .ok r t) (hx : site.upTo source s = .ok x v)
    (hfront : s.rest = front ++ v.rest) (hv : v.rest = ws ++ (g.tokens ++ rest))
    (hws : List.Forall₂ (fun k (w : Token) => w.isKeyword k = true) site.words ws)
    (hinside : Balanced inside)
    (hrest : List.Forall₂ Comparison.text.Like
      (front ++ (ws ++ ((g.refill inside hinside).tokens ++ rest))) s'.rest)
    (hparameters : s.parameters = s'.parameters)
    (hwarnings : List.Forall₂ Comparison.text.SameWarning s.warnings s'.warnings) :
    ∃ r' t', schema source' registry s' = .ok r' t' ∧ r.SameTables r' ∧
      List.Forall₂ Comparison.text.SameWarning t.warnings t'.warnings := by
  obtain ⟨front', more, hs', hfront', hmore⟩ := List.exists_append_of_forall₂ hrest
  have hnear : Near .text v.rest more := by
    rw [hv]
    exact near_words site.words_ne hws g.opens hmore
  obtain ⟨x', v', hx', hsame, rfl, hparameters', hwarnings'⟩ :=
    (site.mirrors_upTo source source').moved hx hfront hs' hfront' hnear hparameters hwarnings
  have hall : schema source registry s =
      (skipBalanced >>= fun _ => site.behind source x) { v with rest := g.tokens ++ rest } := by
    refine site.resumes source s x _ ?_
    rw [bind_apply, hx]
    dsimp only
    rw [bind_apply, keywords_apply hws hv]
    rfl
  have hrun : (keywords site.words >>= fun _ => skipBalanced >>= fun _ => site.behind source x)
      { v with rest := ws ++ ((g.refill inside hinside).tokens ++ rest) } = .ok r t := by
    rw [h, bind_apply, skipBalanced_group g v rest] at hall
    rw [bind_apply, keywords_apply hws rfl]
    dsimp only
    rw [bind_apply, skipBalanced_group (g.refill inside hinside) v rest]
    exact hall.symm
  obtain ⟨r', t', hbehind, hr, ht⟩ := ((Mirrors.keywords site.words).seq fun _ =>
    Mirrors.skipBalanced.bind fun _ _ _ => site.mirrors_behind source source' x x' hsame).of_ok
    hrun hmore hparameters' hwarnings'
  obtain ⟨_, u', hkeywords, hgroup⟩ := bind_eq_ok hbehind
  refine ⟨r', t', (site.resumes source' s' x' u' ?_).trans hgroup, hr, ht⟩
  rw [bind_apply, hx']
  dsimp only
  rw [bind_apply, hkeywords]
  rfl

/-- A schema that is accepted is accepted with other tokens in a group that it passes over, and its
tables are the same except for their texts. -/
theorem refilled_of_schema {ts : List Token} {r : Registry} {ws : List Warning}
    (h : (schema source registry).run ts = .ok (r, ws))
    (hu : PassesOver source registry { rest := ts } u) :
    ∃ front g rest, ts = front ++ Group.tokens g ++ rest ∧ u.rest = g.tokens ++ rest ∧
      ∀ inside source' ts', Balanced inside →
        List.Forall₂ Token.Same (front ++ (g.opening :: (inside ++ [g.closing])) ++ rest) ts' →
        ∃ r' ws', (schema source' registry).run ts' = .ok (r', ws') ∧ r.SameTables r' ∧
          ws'.map (fun w => (w.code, w.message)) = ws.map fun w => (w.code, w.message) := by
  obtain ⟨α, site, x, hx⟩ := hu.exists_site
  obtain ⟨t, hschema, rfl⟩ := run_eq_ok h
  obtain ⟨x', v, hx', hmore⟩ := bind_eq_ok hx
  obtain ⟨_, u', hkeywords, hend⟩ := bind_eq_ok hmore
  cases hend
  obtain ⟨words, hwords, hv, hu'⟩ := keywords_eq_ok hkeywords
  obtain ⟨front, hfront⟩ := (site.mirrors_upTo source source).suffix _ x v hx'
  have hall := site.resumes source _ x u hx
  rw [hschema] at hall
  obtain ⟨inside, w, hskip, -⟩ := bind_eq_ok hall.symm
  obtain ⟨g, hg, -⟩ := skipBalanced_eq_ok hskip
  rw [hg] at hv
  refine ⟨front ++ words, g, w.rest, ?_, hg, fun inside source' ts' hinside hts' => ?_⟩
  · rw [List.append_assoc, List.append_assoc, ← hv]
    exact hfront.symm
  · rw [List.append_assoc, List.append_assoc] at hts'
    have hlike : List.Forall₂ Comparison.text.Like
        (front ++ (words ++ ((g.refill inside hinside).tokens ++ w.rest)))
        ({ rest := ts' } : ParseState).rest := hts'.imp fun _ _ => Comparison.like_text_iff.2
    obtain ⟨r', t', hr', hr, hws⟩ := site.schema_refilled hschema hx' hfront.symm hv hwords
      hinside hlike rfl .nil
    refine ⟨r', t'.warnings, ?_, hr, (Comparison.sameWarnings_text_iff.1 hws).symm⟩
    rw [Parser.run, hr']

end Definition

end SqliteSchema
