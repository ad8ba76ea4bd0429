import SqliteSchema.Proofs.Expr.Local
import SqliteSchema.Proofs.Expr.Mirror
import SqliteSchema.Proofs.Expr.Points
import SqliteSchema.Proofs.Parameter.Unique
import SqliteSchema.Proofs.Parser.Resume

/-!
The order of the clauses in a window definition. Each clause is read to its own end, for what it
ends with goes on with nothing that a next clause starts with; so the clauses can be written in any
order, each kind of them once.
-/
namespace SqliteSchema.Expr

open SqliteSchema.Parser

/-- `PARTITION BY`, `ORDER BY` and a frame specification. -/
inductive ClauseKind
  | partition | order | frame
  deriving DecidableEq, Repr

namespace ClauseKind

/-- The clause that the keyword opens. -/
def ofKeyword : Keyword → Option ClauseKind
  | .PARTITION => some .partition
  | .ORDER => some .order
  | .RANGE | .ROWS | .GROUPS => some .frame
  | _ => none

def ofToken (t : Token) : Option ClauseKind := t.keyword.bind ofKeyword

def name : ClauseKind → String
  | .partition => "PARTITION BY"
  | .order => "ORDER BY"
  | .frame => "A frame specification"

/-- A clause of this kind was read already. -/
def isSeen (seen : WindowClauses) : ClauseKind → Bool
  | .partition => seen.partition
  | .order => seen.order
  | .frame => seen.frame

def mark (seen : WindowClauses) : ClauseKind → WindowClauses
  | .partition => { seen with partition := true }
  | .order => { seen with order := true }
  | .frame => { seen with frame := true }

/-- What follows the first word of a clause. -/
def body (op : Operand) : ClauseKind → Parser Unit
  | .partition => do
    let _ ← expectKeyword .BY
    let _ ← list op
  | .order => do
    let _ ← expectKeyword .BY
    orderingTerms op
  | .frame => do
    frameExtent op
    frameExclusion

theorem exists_keyword {t : Token} {kind : ClauseKind} (ht : ofToken t = some kind) :
    ∃ k ∈ [Keyword.PARTITION, .ORDER, .RANGE, .ROWS, .GROUPS], t.isKeyword k = true := by
  obtain ⟨k, hk, hkind⟩ := Option.bind_eq_some_iff.1 ht
  refine ⟨k, ?_, Token.isKeyword_iff_keyword.2 hk⟩
  unfold ofKeyword at hkind
  split at hkind <;> simp at hkind ⊢

theorem isSeen_mark (seen : WindowClauses) (kind other : ClauseKind) :
    other.isSeen (kind.mark seen) = (other == kind || other.isSeen seen) := by
  cases kind <;> cases other <;> rfl

end ClauseKind

variable {op : Operand} {context : Context} {kind : ClauseKind} {seen : WindowClauses}
  {t close : Token} {ts us v w : List Token} {ps ps' : Parameters} {ws ws' : List Warning}

/-! ### One clause -/

theorem windowClause_eq (op : Operand) (seen : WindowClauses) : windowClause op seen = (do
    let token ← current "')'"
    match ClauseKind.ofToken token with
    | none => return none
    | some kind =>
      openClause kind.name (kind.isSeen seen) token
      kind.body op
      return some (kind.mark seen)) := by
  unfold windowClause ClauseKind.ofToken
  refine congrArg (current "')'" >>= ·) (funext fun token => ?_)
  cases token.keyword with
  | none => rfl
  | some k =>
    cases k
    all_goals first
      | rfl
      | exact congrArg (openClause _ _ token >>= ·) (funext fun _ => by
          simp only [ClauseKind.body, ClauseKind.mark, bind_assoc, pure_bind])

theorem windowClause_none (ht : ClauseKind.ofToken t = none) :
    windowClause op seen ⟨t :: ts, ps, ws⟩ = .ok none ⟨t :: ts, ps, ws⟩ := by
  rw [windowClause_eq, bind_apply, current]
  dsimp only
  rw [ht]
  rfl

theorem windowClause_some (ht : ClauseKind.ofToken t = some kind) :
    windowClause op seen ⟨t :: ts, ps, ws⟩ =
      if kind.isSeen seen then
        .error (.atToken (.repeatedWindowClause kind.name) t) ⟨t :: ts, ps, ws⟩
      else (do kind.body op; return some (kind.mark seen) : Parser _) ⟨ts, ps, ws⟩ := by
  rw [windowClause_eq, bind_apply, current]
  dsimp only
  rw [ht]
  dsimp only
  rw [bind_apply, openClause]
  cases kind.isSeen seen with
  | true => rfl
  | false => rfl

/-- A clause of a window and what it reports. -/
structure Clause where
  kind : ClauseKind
  tokens : List Token
  reported : List Warning

/-- The tokens are the clause if nothing follows them. -/
def IsClause (context : Context) (ps : Parameters) (c : Clause) : Prop :=
  windowClause (parse context) {} ⟨c.tokens, ps, []⟩ =
    .ok (some (c.kind.mark {})) ⟨[], ps, c.reported⟩

theorem ClauseKind.mark_inj {kind other : ClauseKind} (h : kind.mark {} = other.mark {}) :
    kind = other := by
  cases kind <;> cases other <;> first | rfl | cases h

theorem isClause_iff {c : Clause} : IsClause context ps c ↔
    ∃ t more, c.tokens = t :: more ∧ ClauseKind.ofToken t = some c.kind ∧
      c.kind.body (parse context) ⟨more, ps, []⟩ = .ok () ⟨[], ps, c.reported⟩ := by
  have hunseen (kind : ClauseKind) : kind.isSeen {} ≠ true := by cases kind <;> nofun
  constructor
  · intro h
    rw [IsClause] at h
    cases htokens : c.tokens with
    | nil =>
      rw [htokens] at h
      cases h
    | cons t more =>
      rw [htokens] at h
      cases ht : ClauseKind.ofToken t with
      | none =>
        rw [windowClause_none ht] at h
        cases h
      | some kind =>
        rw [windowClause_some ht, if_neg (hunseen kind)] at h
        obtain ⟨⟨⟩, u, hbody, hend⟩ := bind_eq_ok h
        obtain ⟨hmark, rfl⟩ := EStateM.Result.ok.inj hend
        obtain rfl := ClauseKind.mark_inj (Option.some.inj hmark)
        exact ⟨t, more, rfl, ht, hbody⟩
  · rintro ⟨t, more, htokens, ht, hbody⟩
    rw [IsClause, htokens, windowClause_some ht, if_neg (hunseen c.kind), bind_apply, hbody]
    rfl

/-! ### What stands behind a clause -/

theorem local_body (hv : Closes v) (hw : Closes w) (kind : ClauseKind) :
    Local v w True (kind.body (parse context)) := by
  have h := local_parse hv.ends hw.ends context
  cases kind with
  | partition =>
    exact LocalReading.expectKeyword.toLocal.bind fun _ =>
      (local_list h fun _ => ⟨hv, hw⟩).toLocal.bind fun _ => .pure _
  | order =>
    exact LocalReading.expectKeyword.toLocal.bind fun _ =>
      (local_orderingTerms h fun _ => ⟨hv, hw⟩).toLocal
  | frame =>
    exact (local_frameExtent h).toLocal.bind fun _ => local_frameExclusion fun _ => ⟨hv, hw⟩

theorem points_body (context : Context) (kind : ClauseKind) :
    PointsInto ts (kind.body (parse context)) := by
  have h : OperandsPoint ts (parse context) := points_parse context
  cases kind with
  | partition =>
    exact Points.expectKeyword.seq fun _ => (points_list h).seq fun _ => .pure trivial
  | order => exact Points.expectKeyword.seq fun _ => points_orderingTerms h
  | frame => exact (points_frameExtent h).seq fun _ => points_frameExclusion

theorem closes_nil : Closes [] := rfl

/-- The first words of clauses go on with no clause. -/
theorem closes_of_kind (ht : ClauseKind.ofToken t = some kind) (hregular : t.IsRegular) :
    Closes (t :: w) := by
  obtain ⟨k, hmem, hword⟩ := ClauseKind.exists_keyword ht
  have hall : ∀ k ∈ [Keyword.PARTITION, .ORDER, .RANGE, .ROWS, .GROUPS],
      k ≠ .AND ∧ k ≠ .OR ∧ (∀ s ∈ ["(", ".", ","], s.toLower ≠ k.text) ∧
        ∀ k' ∈ continuing ++ [.ASC, .DESC, .NULLS, .EXCLUDE], k ≠ k' := by
    decide +kernel
  obtain ⟨hand, hor, hsymbols, hkeywords⟩ := hall k hmem
  have hsymbol {s : String} (hs : s ∈ ["(", ".", ","]) : t.is s = false :=
    Token.is_of_isKeyword hword (hsymbols s hs)
  have hnone {ks : List Keyword} (hks : ks ⊆ continuing ++ [.ASC, .DESC, .NULLS, .EXCLUDE]) :
      ks.any t.isKeyword = false :=
    List.any_eq_false.2 fun k' hk' => Bool.eq_false_iff.1
      (Token.isKeyword_of_isKeyword hword (hkeywords k' (hks hk')))
  change prolongs t = false
  rw [prolongs, continues, hregular.isBinary_of_isKeyword hword hand hor, hsymbol (by simp),
    hsymbol (by simp), hsymbol (by simp), hnone (List.subset_append_left _ _),
    hnone (List.subset_append_right _ _)]
  rfl

/-! ### Clauses one behind the other -/

variable {c : Clause} {clauses : List Clause}

/-- What is written of the clauses. -/
def written (clauses : List Clause) : List Token := clauses.flatMap Clause.tokens

/-- A clause in front of what no clause goes on with is read alone, unless it repeats another. -/
theorem IsClause.run (hc : IsClause context ps c) (hv : Closes v) (seen : WindowClauses)
    (ws : List Warning) : ∃ e, windowClause (parse context) seen ⟨c.tokens ++ v, ps, ws⟩ =
      if c.kind.isSeen seen then .error e ⟨c.tokens ++ v, ps, ws⟩
      else .ok (some (c.kind.mark seen)) ⟨v, ps, ws ++ c.reported⟩ := by
  obtain ⟨t, more, htokens, ht, hbody⟩ := isClause_iff.1 hc
  obtain ⟨vs, hvs, hrun⟩ := (points_body context c.kind).reported (List.Subset.refl more) hbody
  obtain rfl : c.reported = vs := hvs
  have hfront := (local_body closes_nil hv c.kind).append (hrun ws)
  refine ⟨.atToken (.repeatedWindowClause c.kind.name) t, ?_⟩
  rw [htokens, List.cons_append, windowClause_some ht, bind_apply, hfront]
  rfl

/-- The clauses are of different kinds, none of which was read before. -/
def Fresh (seen : WindowClauses) (clauses : List Clause) : Prop :=
  (clauses.map Clause.kind).Nodup ∧ ∀ c ∈ clauses, c.kind.isSeen seen = false

theorem fresh_cons : Fresh seen (c :: clauses) ↔
    c.kind.isSeen seen = false ∧ Fresh (c.kind.mark seen) clauses := by
  have hnotMem : c.kind ∉ clauses.map Clause.kind ↔ ∀ d ∈ clauses, (d.kind == c.kind) = false := by
    simp only [List.mem_map, not_exists, not_and, beq_eq_false_iff_ne, ne_eq]
  simp only [Fresh, List.map_cons, List.nodup_cons, List.forall_mem_cons, ClauseKind.isSeen_mark,
    Bool.or_eq_false_iff, hnotMem, forall_and]
  tauto

/-- No clause goes on with the clauses that follow it. -/
theorem closes_written (hclauses : ∀ c ∈ clauses, IsClause context ps c)
    (hregular : ∀ t ∈ written clauses, t.IsRegular) (hv : Closes v) :
    Closes (written clauses ++ v) := by
  cases clauses with
  | nil => exact hv
  | cons c clauses =>
    obtain ⟨t, more, htokens, ht, -⟩ := isClause_iff.1 (hclauses c List.mem_cons_self)
    have hmem : t ∈ written (c :: clauses) := by simp [written, htokens]
    rw [written, List.flatMap_cons, htokens]
    exact closes_of_kind ht (hregular t hmem)

/-- The rounds over the clauses of a window read one of them each. -/
theorem loop_cons (hclauses : ∀ d ∈ c :: clauses, IsClause context ps d)
    (hregular : ∀ t ∈ written (c :: clauses), t.IsRegular) (hv : Closes v) (seen : WindowClauses)
    (ws : List Warning) : ∃ e,
    loop (windowClause (parse context)) seen ⟨written (c :: clauses) ++ v, ps, ws⟩ =
      if c.kind.isSeen seen then .error e ⟨written (c :: clauses) ++ v, ps, ws⟩
      else loop (windowClause (parse context)) (c.kind.mark seen)
        ⟨written clauses ++ v, ps, ws ++ c.reported⟩ := by
  have htokens : written (c :: clauses) ++ v = c.tokens ++ (written clauses ++ v) := by
    rw [written, List.flatMap_cons, List.append_assoc]
    rfl
  rw [List.forall_mem_cons] at hclauses
  have hbehind : ∀ t ∈ written clauses, t.IsRegular := fun t ht =>
    hregular t (List.mem_append_right c.tokens ht)
  obtain ⟨e, hrun⟩ := hclauses.1.run (closes_written hclauses.2 hbehind hv) seen ws
  refine ⟨e, ?_⟩
  rw [htokens, loop, hrun]
  by_cases hseen : c.kind.isSeen seen = true
  · rw [if_pos hseen, if_pos hseen]
  · obtain ⟨t, more, hcons, -, -⟩ := isClause_iff.1 hclauses.1
    have hlt : (written clauses ++ v).length < (c.tokens ++ (written clauses ++ v)).length := by
      rw [hcons]
      simp only [List.length_append, List.length_cons]
      omega
    rw [if_neg hseen, if_neg hseen]
    dsimp only
    rw [if_pos hlt]

theorem loop_fresh (hclauses : ∀ c ∈ clauses, IsClause context ps c)
    (hregular : ∀ t ∈ written clauses, t.IsRegular) (hclose : ClauseKind.ofToken close = none)
    (hv : Closes (close :: ts)) (hfresh : Fresh seen clauses) :
    ∃ seen', loop (windowClause (parse context)) seen ⟨written clauses ++ close :: ts, ps, ws⟩ =
      .ok seen' ⟨close :: ts, ps, ws ++ clauses.flatMap Clause.reported⟩ := by
  induction clauses generalizing seen ws with
  | nil =>
    refine ⟨seen, ?_⟩
    change loop _ seen ⟨close :: ts, ps, ws⟩ = .ok seen ⟨close :: ts, ps, ws ++ []⟩
    rw [loop, windowClause_none hclose, List.append_nil]
  | cons c clauses ih =>
    obtain ⟨hunseen, hbehind⟩ := fresh_cons.1 hfresh
    obtain ⟨e, hrun⟩ := loop_cons hclauses hregular hv seen ws
    rw [List.forall_mem_cons] at hclauses
    have hrest : ∀ t ∈ written clauses, t.IsRegular := fun t ht =>
      hregular t (List.mem_append_right c.tokens ht)
    rw [hrun, hunseen, if_neg Bool.false_ne_true, List.flatMap_cons, ← List.append_assoc]
    exact ih hclauses.2 hrest hbehind

theorem fresh_of_loop (hclauses : ∀ c ∈ clauses, IsClause context ps c)
    (hregular : ∀ t ∈ written clauses, t.IsRegular) (hv : Closes v) {seen' : WindowClauses}
    {s : ParseState}
    (h : loop (windowClause (parse context)) seen ⟨written clauses ++ v, ps, ws⟩ = .ok seen' s) :
    Fresh seen clauses := by
  induction clauses generalizing seen ws with
  | nil => exact ⟨List.nodup_nil, by simp⟩
  | cons c clauses ih =>
    obtain ⟨e, hrun⟩ := loop_cons hclauses hregular hv seen ws
    rw [List.forall_mem_cons] at hclauses
    rw [hrun] at h
    rw [fresh_cons]
    cases hseen : c.kind.isSeen seen with
    | true =>
      rw [hseen, if_pos rfl] at h
      cases h
    | false =>
      rw [hseen, if_neg Bool.false_ne_true] at h
      exact ⟨rfl, ih hclauses.2 (fun t ht => hregular t (List.mem_append_right c.tokens ht)) h⟩

theorem suffix_of_loop {seen' : WindowClauses} {s s' : ParseState}
    (h : loop (windowClause (parse context)) seen s = .ok seen' s') : s'.rest <:+ s.rest :=
  Agree.suffix (fun n => .loop (agree_windowClause (operandsAgree_parse context n)) seen) h

/-- Rounds that do not stop at once start with the first word of a clause. -/
theorem kind_of_loop {seen' : WindowClauses}
    (h : loop (windowClause (parse context)) seen ⟨t :: us ++ close :: ts, ps, ws⟩ =
      .ok seen' ⟨close :: ts, ps', ws'⟩) : ∃ kind, ClauseKind.ofToken t = some kind := by
  cases ht : ClauseKind.ofToken t with
  | some kind => exact ⟨kind, rfl⟩
  | none =>
    rw [List.cons_append, loop, windowClause_none ht] at h
    have hrest := congrArg ParseState.rest (EStateM.Result.ok.inj h).2
    have hlength := congrArg List.length hrest
    simp only [List.length_cons, List.length_append] at hlength
    omega

/-- What is left of a clause that was read in front of something that no clause goes on with. -/
theorem isClause_of_body {more : List Token} {s : ParseState}
    (ht : ClauseKind.ofToken t = some kind) (hv : Closes v)
    (hnone : ∀ t ∈ more, t.isParameter = false)
    (hbody : kind.body (parse context) ⟨more ++ v, ps, ws⟩ = .ok () s) (hs : s.rest = v) :
    s.parameters = ps ∧ ∃ reported, IsClause context ps ⟨kind, t :: more, reported⟩ := by
  obtain ⟨rest, qs, xs⟩ := s
  obtain rfl : rest = v := hs
  have halone := (local_body hv closes_nil kind).moves more [] (fun _ => trivial) hbody
  rw [List.append_nil, List.append_nil] at halone
  have hpoints : PointsInto more (kind.body (parse context)) := points_body context kind
  obtain ⟨reported, -, hrun⟩ := hpoints.reported (List.Subset.refl more) halone
  have hparameters : qs = ps := hpoints.parameters_eq (List.Subset.refl more) hnone halone
  subst hparameters
  exact ⟨rfl, reported, isClause_iff.2 ⟨t, more, rfl, ht, hrun []⟩⟩

/-- The first round of an accepted window reads a clause to its end. -/
theorem exists_clause (hv : Closes (close :: ts)) (hregular : ∀ u ∈ t :: us, u.IsRegular)
    (hnone : ∀ u ∈ t :: us, u.isParameter = false) {seen' : WindowClauses}
    (h : loop (windowClause (parse context)) seen ⟨t :: us ++ close :: ts, ps, ws⟩ =
      .ok seen' ⟨close :: ts, ps', ws'⟩) :
    ∃ c vs xs, t :: us = c.tokens ++ vs ∧ vs.length ≤ us.length ∧ IsClause context ps c ∧
      loop (windowClause (parse context)) (c.kind.mark seen) ⟨vs ++ close :: ts, ps, xs⟩ =
        .ok seen' ⟨close :: ts, ps', ws'⟩ := by
  obtain ⟨kind, ht⟩ := kind_of_loop h
  rw [List.cons_append, loop, windowClause_some ht] at h
  by_cases hseen : kind.isSeen seen = true
  · rw [if_pos hseen] at h
    cases h
  rw [if_neg hseen, bind_apply] at h
  cases hbody : kind.body (parse context) ⟨us ++ close :: ts, ps, ws⟩ with
  | error e s =>
    rw [hbody] at h
    cases h
  | ok r s =>
    obtain ⟨rest, qs, xs⟩ := s
    rw [hbody] at h
    have hsuffix : rest <:+ us ++ close :: ts :=
      Agree.suffix (local_body closes_nil hv kind).keeps hbody
    have hlt : rest.length < (t :: (us ++ close :: ts)).length :=
      Nat.lt_succ_of_le hsuffix.length_le
    replace h : (if rest.length < (t :: (us ++ close :: ts)).length then
        loop (windowClause (parse context)) (kind.mark seen) ⟨rest, qs, xs⟩
      else .ok (kind.mark seen) ⟨rest, qs, xs⟩) = .ok seen' ⟨close :: ts, ps', ws'⟩ := h
    rw [if_pos hlt] at h
    have hleft : [] ++ close :: ts <:+ rest := suffix_of_loop h
    obtain ⟨vs, rfl, -⟩ := exists_front hleft hsuffix
    obtain ⟨more, hmore⟩ := hsuffix
    rw [← List.append_assoc] at hmore
    obtain rfl := List.append_cancel_right hmore
    simp only [List.forall_mem_cons, List.forall_mem_append] at hregular hnone
    -- What is left starts with the next clause, so that this one is not cut by it.
    have hcloses : Closes (vs ++ close :: ts) := by
      cases vs with
      | nil => exact hv
      | cons u vs =>
        obtain ⟨next, hu⟩ := kind_of_loop h
        exact closes_of_kind hu (hregular.2.2 u List.mem_cons_self)
    rw [List.append_assoc] at hbody
    obtain ⟨rfl, reported, hclause⟩ := isClause_of_body ht hcloses hnone.2.1 hbody rfl
    refine ⟨⟨kind, t :: more, reported⟩, vs, xs, rfl, ?_, hclause, h⟩
    rw [List.length_append]
    exact Nat.le_add_left _ _

/-- The rounds of an accepted window read clauses, up to the closing parenthesis. -/
theorem exists_clauses (hv : Closes (close :: ts)) (hregular : ∀ t ∈ us, t.IsRegular)
    (hnone : ∀ t ∈ us, t.isParameter = false) {seen' : WindowClauses}
    (h : loop (windowClause (parse context)) seen ⟨us ++ close :: ts, ps, ws⟩ =
      .ok seen' ⟨close :: ts, ps', ws'⟩) :
    ∃ clauses, us = written clauses ∧ ∀ c ∈ clauses, IsClause context ps c := by
  induction hn : us.length using Nat.strongRecOn generalizing us seen ws with
  | ind n ih =>
    cases us with
    | nil => exact ⟨[], rfl, by simp⟩
    | cons t us =>
      obtain ⟨c, vs, xs, hfront, hle, hc, hbehind⟩ := exists_clause hv hregular hnone h
      rw [hfront, List.forall_mem_append] at hregular hnone
      have hshort : vs.length < n := hn ▸ Nat.lt_succ_of_le hle
      obtain ⟨clauses, rfl, hclauses⟩ := ih vs.length hshort hregular.2 hnone.2 hbehind rfl
      exact ⟨c :: clauses, hfront, List.forall_mem_cons.2 ⟨hc, hclauses⟩⟩

/-! ### Whole definitions -/

/-- The opening parenthesis and perhaps the name of a base window. -/
inductive Opening : List Token → Prop
  | plain {t : Token} (h : t.is "(" = true) : Opening [t]
  | base {t name : Token} (h : t.is "(" = true) (hname : isBaseWindow name = true) :
    Opening [t, name]

/-- The tokens of a window definition are made of these clauses. -/
structure MadeOfClauses (context : Context) (ps : Parameters) (ts head : List Token)
    (clauses : List Clause) (close : Token) : Prop where
  opening : Opening head
  clause : ∀ c ∈ clauses, IsClause context ps c
  closing : close.is ")" = true
  tokens : ts = head ++ written clauses ++ [close]

theorem isBaseWindow_of_kind (ht : ClauseKind.ofToken t = some kind) : isBaseWindow t = false := by
  obtain ⟨k, hmem, hword⟩ := ClauseKind.exists_keyword ht
  simp only [List.mem_cons, List.not_mem_nil, or_false] at hmem
  rcases hmem with rfl | rfl | rfl | rfl | rfl <;> simp [isBaseWindow, frameUnits, hword]

/-- A closing parenthesis opens no clause and is no name. -/
theorem close_facts (ht : t.is ")" = true) :
    ClauseKind.ofToken t = none ∧ isBaseWindow t = false := by
  obtain ⟨hkeyword, -, hquoted, hname⟩ := Token.marks_facts (")", .closing) (by decide)
  have hvalue := Token.value_of_is ht
  constructor
  · rw [ClauseKind.ofToken, Token.keyword, hvalue, hkeyword, ite_self]
    rfl
  · rw [isBaseWindow, Token.isIdentifier, Token.isQuoted, hvalue, hquoted, hname]
    simp

/-- The clauses and the parenthesis that closes a window. -/
def clausesAndClose (op : Operand) : Parser Unit := do
  let _ ← loop (windowClause op) {}
  let _ ← expect ")"

theorem windowDefinition_opening {head : List Token} (hhead : Opening head)
    (hmisses : Misses isBaseWindow w) :
    windowDefinition op ⟨head ++ w, ps, ws⟩ = clausesAndClose op ⟨w, ps, ws⟩ := by
  have hexpect {t : Token} (ht : t.is "(" = true) (ts : List Token) :
      expect "(" ⟨t :: ts, ps, ws⟩ = .ok t ⟨ts, ps, ws⟩ := if_pos ht
  unfold windowDefinition
  cases hhead with
  | plain h =>
    have haccept : accept isBaseWindow ⟨w, ps, ws⟩ = .ok none ⟨w, ps, ws⟩ := by
      cases w with
      | nil => rfl
      | cons t w => exact if_neg (Bool.eq_false_iff.1 hmisses)
    rw [List.singleton_append, bind_apply, hexpect h]
    dsimp only
    rw [bind_apply, haccept]
    rfl
  | @base _ name h hname =>
    have haccept : accept isBaseWindow ⟨name :: w, ps, ws⟩ = .ok (some name) ⟨w, ps, ws⟩ :=
      if_pos hname
    rw [List.cons_append, List.singleton_append, bind_apply, hexpect h]
    dsimp only
    rw [bind_apply, haccept]
    rfl

theorem exists_opening {s : ParseState} (h : windowDefinition op ⟨ts, ps, ws⟩ = .ok () s) :
    ∃ head w, ts = head ++ w ∧ Opening head ∧ clausesAndClose op ⟨w, ps, ws⟩ = .ok () s := by
  obtain ⟨t, ⟨us, _, _⟩, ht, hafter⟩ := bind_eq_ok h
  obtain ⟨hts, hparen, hstate⟩ := require_eq_ok ht
  cases hstate
  obtain ⟨base, ⟨vs, _, _⟩, hbase, hclauses⟩ := bind_eq_ok hafter
  cases base with
  | none =>
    cases accept_eq_none hbase
    exact ⟨[t], us, hts, .plain hparen, hclauses⟩
  | some name =>
    obtain ⟨hus, hname, hstate⟩ := accept_eq_some hbase
    cases hstate
    dsimp only at hts hus
    exact ⟨[t, name], vs, by rw [hts, hus]; rfl, .base hparen hname, hclauses⟩

/-- The clauses run up to the parenthesis that closes the window. -/
theorem exists_close {s : ParseState} (h : clausesAndClose op ⟨w, ps, ws⟩ = .ok () s) :
    ∃ seen' close, close.is ")" = true ∧ loop (windowClause op) {} ⟨w, ps, ws⟩ =
      .ok seen' { s with rest := close :: s.rest } := by
  obtain ⟨seen', ⟨vs, qs, xs⟩, hloop, hafter⟩ := bind_eq_ok h
  obtain ⟨close, ⟨us, _, _⟩, hclose, hend⟩ := bind_eq_ok hafter
  obtain ⟨hvs, hparen, hstate⟩ := require_eq_ok hclose
  cases hstate
  cases hend
  exact ⟨seen', close, hparen, hvs ▸ hloop⟩

theorem clausesAndClose_of_loop {seen' : WindowClauses} (hclose : close.is ")" = true)
    (h : loop (windowClause op) {} ⟨w, ps, ws⟩ = .ok seen' ⟨close :: ts, ps', ws'⟩) :
    clausesAndClose op ⟨w, ps, ws⟩ = .ok () ⟨ts, ps', ws'⟩ := by
  have hexpect : expect ")" ⟨close :: ts, ps', ws'⟩ = .ok close ⟨ts, ps', ws'⟩ := if_pos hclose
  rw [clausesAndClose, bind_apply, h]
  dsimp only
  rw [bind_apply, hexpect]
  rfl

/-- Behind the opening of a window no name of a base window is left. -/
theorem misses_written (hclauses : ∀ c ∈ clauses, IsClause context ps c)
    (hclose : close.is ")" = true) : Misses isBaseWindow (written clauses ++ close :: ts) := by
  cases clauses with
  | nil => exact (close_facts hclose).2
  | cons c clauses =>
    obtain ⟨t, more, htokens, ht, -⟩ := isClause_iff.1 (hclauses c List.mem_cons_self)
    rw [written, List.flatMap_cons, htokens]
    exact isBaseWindow_of_kind ht

variable {head : List Token}

namespace MadeOfClauses

theorem run (h : MadeOfClauses context ps us head clauses close) (op : Operand)
    (ts : List Token) (ws : List Warning) : windowDefinition op ⟨us ++ ts, ps, ws⟩ =
      clausesAndClose op ⟨written clauses ++ close :: ts, ps, ws⟩ := by
  rw [h.tokens, List.append_assoc, List.append_assoc, List.singleton_append,
    windowDefinition_opening h.opening (misses_written h.clause h.closing)]

/-- Clauses of different kinds are accepted. -/
theorem accepted (h : MadeOfClauses context ps us head clauses close)
    (hregular : ∀ t ∈ us, t.IsRegular) (hfresh : Fresh {} clauses) (ts : List Token)
    (ws : List Warning) : windowDefinition (parse context) ⟨us ++ ts, ps, ws⟩ =
      .ok () ⟨ts, ps, ws ++ clauses.flatMap Clause.reported⟩ := by
  rw [h.tokens] at hregular
  simp only [List.forall_mem_append, List.forall_mem_singleton] at hregular
  obtain ⟨seen', hloop⟩ := loop_fresh h.clause hregular.1.2 (close_facts h.closing).1
    (closes_of_close h.closing (hregular.2.isBinary_of_close h.closing)) hfresh
  rw [h.run, clausesAndClose_of_loop h.closing hloop]

/-- Only such clauses are. -/
theorem fresh (h : MadeOfClauses context ps us head clauses close)
    (hregular : ∀ t ∈ us, t.IsRegular) {s : ParseState}
    (hrun : windowDefinition (parse context) ⟨us ++ ts, ps, ws⟩ = .ok () s) :
    Fresh {} clauses := by
  rw [h.run] at hrun
  rw [h.tokens] at hregular
  simp only [List.forall_mem_append, List.forall_mem_singleton] at hregular
  obtain ⟨seen', close', -, hloop⟩ := exists_close hrun
  exact fresh_of_loop h.clause hregular.1.2 (closes_of_close h.closing (hregular.2.isBinary_of_close h.closing)) hloop

end MadeOfClauses

/-- Every accepted window without bind parameters is made of clauses. -/
theorem exists_madeOfClauses (hregular : ∀ t ∈ us, t.IsRegular)
    (hnone : ∀ t ∈ us, t.isParameter = false)
    (h : windowDefinition (parse context) ⟨us ++ ts, ps, ws⟩ = .ok () ⟨ts, ps', ws'⟩) :
    ∃ head clauses close, MadeOfClauses context ps us head clauses close := by
  obtain ⟨head, w, hus, hhead, hclauses⟩ := exists_opening h
  obtain ⟨seen', close, hclose, hloop⟩ := exists_close hclauses
  dsimp only at hloop
  obtain ⟨vs, hw⟩ := suffix_of_loop hloop
  dsimp only at hw
  obtain rfl : us = head ++ vs ++ [close] := by
    have htokens : us ++ ts = head ++ vs ++ [close] ++ ts := by
      rw [hus, ← hw]
      simp
    exact List.append_cancel_right htokens
  subst hw
  simp only [List.forall_mem_append, List.forall_mem_singleton] at hregular hnone
  obtain ⟨clauses, rfl, hmade⟩ :=
    exists_clauses (closes_of_close hclose (hregular.2.isBinary_of_close hclose)) hregular.1.2 hnone.1.2 hloop
  exact ⟨head, clauses, close, hhead, hmade, hclose, rfl⟩

theorem Fresh.perm {clauses' : List Clause} (h : Fresh seen clauses)
    (hperm : clauses'.Perm clauses) : Fresh seen clauses' :=
  ⟨(hperm.map Clause.kind).nodup_iff.2 h.1, fun c hc => h.2 c (hperm.subset hc)⟩

/-- What a warning says, whatever place it is at. -/
abbrev saying (w : Warning) : WarningCode × String := (w.code, w.message)

/-- The same definition at other places and in front of other tokens. -/
theorem windowDefinition_moved {us' ts' : List Token}
    (h : windowDefinition (parse context) ⟨us ++ ts', ps, ws⟩ = .ok () ⟨ts', ps, ws'⟩)
    (hsame : List.Forall₂ Token.Same us us') :
    ∃ ws'', windowDefinition (parse context) ⟨us' ++ ts', ps, ws⟩ = .ok () ⟨ts', ps, ws''⟩ ∧
      ws''.map saying = ws'.map saying := by
  have hmirrors : Mirrors .text Eq (windowDefinition (parse context))
      (windowDefinition (parse context)) :=
    mirrors_windowDefinition (mirrors_parse (.refl context))
  have hfront : List.Forall₂ Comparison.text.Like us us' :=
    hsame.imp fun _ _ ht => Comparison.like_text_iff.2 ht
  have hnear : Near .text ts' ts' := (Alike.refl ⟨ts', ps, ws⟩).ahead.near .nil
  have hmoved : (⟨us' ++ ts', ps, ws⟩ : ParseState).rest = us' ++ ts' := rfl
  obtain ⟨_, ⟨rest, qs, ws''⟩, hrun, -, hrest, hparameters, hwarnings⟩ :=
    hmirrors.moved h rfl hmoved hfront hnear rfl (Alike.refl ⟨ts', ps, ws⟩).warnings
  cases hrest
  cases hparameters
  exact ⟨ws'', hrun, (Comparison.sameWarnings_text_iff.1 hwarnings).symm⟩

/-- An accepted window without bind parameters is made of clauses of different kinds. With the
clauses in another order, at other places and in front of other tokens, it is accepted as well and
reports the same. -/
theorem windowDefinition_permuted {text : String} {before : List Token}
    (htext : Token.tokenize text = .ok (before ++ (us ++ ts)))
    (hnone : ∀ t ∈ us, t.isParameter = false)
    (h : windowDefinition (parse context) ⟨us ++ ts, ps, ws⟩ = .ok () ⟨ts, ps', ws'⟩) :
    (∃ head clauses close, MadeOfClauses context ps us head clauses close) ∧
    ∀ head clauses close, MadeOfClauses context ps us head clauses close →
      (clauses.map Clause.kind).Nodup ∧
      ∀ clauses' us' ts', clauses'.Perm clauses →
        List.Forall₂ Token.Same (head ++ written clauses' ++ [close]) us' →
        ∃ ws'', windowDefinition (parse context) ⟨us' ++ ts', ps, ws⟩ = .ok () ⟨ts', ps, ws''⟩ ∧
          us'.length = us.length ∧ (ws''.map saying).Perm (ws'.map saying) := by
  have hregular : ∀ t ∈ us, t.IsRegular := fun t ht =>
    Token.isRegular_of_tokenize htext t (by simp [ht])
  refine ⟨exists_madeOfClauses hregular hnone h, fun head clauses close hmade => ?_⟩
  have hfresh := hmade.fresh hregular h
  refine ⟨hfresh.1, fun clauses' us' ts' hperm hsame => ?_⟩
  have hwritten : (written clauses').Perm (written clauses) := hperm.flatMap_right Clause.tokens
  have htokens : (head ++ written clauses' ++ [close]).Perm us :=
    hmade.tokens ▸ (hwritten.append_left head).append_right [close]
  have hmade' : MadeOfClauses context ps (head ++ written clauses' ++ [close]) head clauses'
      close :=
    ⟨hmade.opening, fun c hc => hmade.clause c (hperm.subset hc), hmade.closing, rfl⟩
  obtain ⟨ws'', hrun, hsaying⟩ := windowDefinition_moved (hmade'.accepted
    (fun t ht => hregular t (htokens.subset ht)) (hfresh.perm hperm) ts' ws) hsame
  refine ⟨ws'', hrun, by rw [← hsame.length_eq, htokens.length_eq], ?_⟩
  have hstate := (EStateM.Result.ok.inj (h.symm.trans (hmade.accepted hregular hfresh ts ws))).2
  rw [hsaying, (ParseState.mk.inj hstate).2.2]
  exact ((hperm.flatMap_right Clause.reported).append_left ws).map saying

/-- A base window, a column that is named like a frame unit, and all three kinds of clauses, two of
which report a collation. The clauses are turned round. -/
theorem windowDefinition_permuted_reversed :
    let text := "(w partition by a collate b rows 1 preceding order by rows collate c)x"
    let context : Context := ⟨{}, .deferred⟩
    ∃ us after ws, Token.tokenize text = .ok ([] ++ (us ++ after)) ∧
      windowDefinition (parse context) ⟨us ++ after, {}, []⟩ = .ok () ⟨after, {}, ws⟩ ∧
      ws.map saying = [(.unknownCollation, "Unknown collation 'b'"),
        (.unknownCollation, "Unknown collation 'c'")] ∧
      ∃ head clauses close, MadeOfClauses context {} us head clauses close ∧
        (clauses.map Clause.kind).Nodup ∧
        ∃ ws', windowDefinition (parse context)
            ⟨head ++ written clauses.reverse ++ [close] ++ after, {}, []⟩ =
              .ok () ⟨after, {}, ws'⟩ ∧
          (ws'.map saying).Perm (ws.map saying) := by
  intro text context
  let tokens := (Token.tokenize text).toOption.getD []
  let ws : List Warning := [⟨.unknownCollation, "Unknown collation 'b'", some ⟨26, 0, 26⟩⟩,
    ⟨.unknownCollation, "Unknown collation 'c'", some ⟨67, 0, 67⟩⟩]
  have htext : Token.tokenize text = .ok ([] ++ (tokens.take 16 ++ tokens.drop 16)) := by
    decide +kernel
  have hnone : ∀ t ∈ tokens.take 16, t.isParameter = false := by decide +kernel
  have hrun : windowDefinition (parse context) ⟨tokens.take 16 ++ tokens.drop 16, {}, []⟩ =
      .ok () ⟨tokens.drop 16, {}, ws⟩ :=
    eq_ok_of_success? (by decide +kernel)
  obtain ⟨⟨head, clauses, close, hmade⟩, hall⟩ := windowDefinition_permuted htext hnone hrun
  obtain ⟨hnodup, hperm⟩ := hall head clauses close hmade
  obtain ⟨ws', hreversed, -, hsaying⟩ := hperm clauses.reverse
    (head ++ written clauses.reverse ++ [close]) (tokens.drop 16) clauses.reverse_perm
    (List.forall₂_same.2 fun t _ => Comparison.like_text_iff.1 (.refl t))
  exact ⟨_, _, ws, htext, hrun, rfl, head, clauses, close, hmade, hnodup, ws', hreversed, hsaying⟩

end SqliteSchema.Expr
