import SqliteSchema.Proofs.Parameter.Place

/-!
Groups that are passed over. A parser that reads along a path does not look into the groups on it:
with other tokens inside them it reads on to the same place and comes to the same.
-/
namespace SqliteSchema

namespace Parser

variable {α β : Type} {s t u : ParseState} {p q : Place}

/-- The next two tokens are the same. -/
def SameFront (ts ts' : List Token) : Prop := ts.take 2 = ts'.take 2

namespace SameFront

variable {w : Token} {ts ts' : List Token}

theorem refl (ts : List Token) : SameFront ts ts := rfl

theorem cons (w : Token) (h : SameFront ts ts') : SameFront (w :: ts) (w :: ts') := by
  have hone : ts.take 1 = ts'.take 1 := by
    simpa [List.take_take] using congrArg (List.take 1) (show ts.take 2 = ts'.take 2 from h)
  rw [SameFront, List.take_succ_cons, List.take_succ_cons, hone]

theorem of_two (w w' : Token) (ts ts' : List Token) : SameFront (w :: w' :: ts) (w :: w' :: ts') :=
  rfl

theorem nil (h : SameFront [] ts') : ts' = [] := by
  cases ts' with
  | nil => rfl
  | cons => cases h

theorem exists_cons (h : SameFront (w :: ts) ts') : ∃ us, ts' = w :: us := by
  cases ts' with
  | nil => cases h
  | cons t us =>
    have hhead : w = t := by
      simpa using congrArg List.head? (show (w :: ts).take 2 = (t :: us).take 2 from h)
    exact ⟨us, by rw [hhead]⟩

/-- What hangs on the next two tokens only is the same. -/
theorem congr {g : List Token → α} (hg : ∀ ts, g ts = g (ts.take 2)) (h : SameFront ts ts') :
    g ts = g ts' := by
  rw [hg ts, hg ts', show ts.take 2 = ts'.take 2 from h]

theorem head? (ts : List Token) : ts.head? = (ts.take 2).head? := by
  cases ts <;> rfl

theorem head?_any (test : Token → Bool) (ts : List Token) :
    ts.head?.any test = (ts.take 2).head?.any test := by
  rw [← head?]

theorem second_any (test : Token → Bool) (ts : List Token) :
    ts[1]?.any test = (ts.take 2)[1]?.any test := by
  rcases ts with _ | ⟨_, _ | ⟨_, _⟩⟩ <;> rfl

end SameFront

/-- The same stretch with other tokens inside its group. A query keeps its first word. -/
inductive Stretch.Refills : Stretch → Stretch → Prop
  | token (t : Token) : Refills (.token t) (.token t)
  | existence {word : Token} {g g' : Group} (hword : word.isKeyword .EXISTS = true)
    (hopening : g'.opening = g.opening) : Refills (.existence word g hword) (.existence word g' hword)
  | subquery {g g' : Group} {w : Token} {ts ts' : List Token}
    (hfirst : Expr.startsSubquery g.tokens = true) (hfirst' : Expr.startsSubquery g'.tokens = true)
    (hopening : g'.opening = g.opening) (hg : g.inside = w :: ts) (hg' : g'.inside = w :: ts') :
    Refills (.subquery g hfirst) (.subquery g' hfirst')

theorem Stretch.Refills.refl (x : Stretch) : x.Refills x := by
  cases x with
  | token t => exact .token t
  | existence word g hword => exact .existence hword rfl
  | subquery g hfirst =>
    obtain ⟨w, ts, hg⟩ := g.exists_inside hfirst
    exact .subquery hfirst hfirst rfl hg hg

theorem Stretch.Refills.front {x x' : Stretch} (h : x.Refills x') {ts ts' : List Token}
    (hfront : SameFront ts ts') : SameFront (x.tokens ++ ts) (x'.tokens ++ ts') := by
  cases h with
  | token t => exact hfront.cons t
  | @existence word g g' hword hopening =>
    change SameFront (word :: g.opening :: _) (word :: g'.opening :: _)
    rw [hopening]
    exact .of_two word g.opening _ _
  | @subquery g g' w us us' hfirst hfirst' hopening hg hg' =>
    simp only [Stretch.tokens, Group.tokens, hopening, hg, hg', List.cons_append]
    exact .of_two g.opening w _ _

abbrev SameStretches (read read' : List Stretch) : Prop :=
  List.Forall₂ Stretch.Refills read read'

theorem SameStretches.front {read read' : List Stretch} (h : SameStretches read read')
    {ts ts' : List Token} (hfront : SameFront ts ts') :
    SameFront (read.flatMap Stretch.tokens ++ ts) (read'.flatMap Stretch.tokens ++ ts') := by
  induction h with
  | nil => exact hfront
  | cons hx _ ih =>
    rw [List.flatMap_cons, List.flatMap_cons, List.append_assoc, List.append_assoc]
    exact hx.front ih

/-- Where tokens were read, tokens are read with other groups. -/
theorem SameStretches.length_pos {read read' : List Stretch} (h : SameStretches read read') :
    0 < (read.flatMap Stretch.tokens).length ↔ 0 < (read'.flatMap Stretch.tokens).length := by
  have hpos (x : Stretch) (xs : List Stretch) : 0 < ((x :: xs).flatMap Stretch.tokens).length := by
    obtain ⟨t, ts, ht⟩ := x.exists_tokens
    rw [List.flatMap_cons, ht]
    exact Nat.succ_pos _
  cases h with
  | nil => exact Iff.rfl
  | cons => exact ⟨fun _ => hpos _ _, fun _ => hpos _ _⟩

/-- The run from `s` to `t` reads these stretches. It registers the bind parameters outside the
groups, and with other groups it comes to the same. -/
structure Covers (f : Parser α) (s : ParseState) (a : α) (t : ParseState)
    (read : List Stretch) : Prop where
  rest : s.rest = read.flatMap Stretch.tokens ++ t.rest
  registers : s.parameters.registerAll (read.flatMap Stretch.shown) = .ok t.parameters
  again : ∀ read' rest', SameStretches read read' → SameFront t.rest rest' →
    f { s with rest := read'.flatMap Stretch.tokens ++ rest' } = .ok a { t with rest := rest' }

/-- A parser that, where `P` holds, reads along a path, and ends where `Q` holds. -/
def Follows (P : Assertion) (f : Parser α) (Q : α → Assertion) : Prop :=
  ∀ p s a t, P p s.rest → f s = .ok a t →
    ∃ q read, Q a q t.rest ∧ Place.Path p read q ∧ Covers f s a t read

namespace Covers

variable {f : Parser α} {k : α → Parser β} {a : α} {b : β} {w : Token} {read read' : List Stretch}

theorem nil (hrest : t.rest = s.rest) (hparameters : t.parameters = s.parameters)
    (h : ∀ rest, SameFront s.rest rest → f { s with rest := rest } = .ok a { t with rest := rest }) :
    Covers f s a t [] := by
  refine ⟨hrest.symm, by rw [hparameters]; rfl, fun read' rest' hread hfront => ?_⟩
  cases hread
  rw [hrest] at hfront
  exact h rest' hfront

/-- One token that is no bind parameter is read, and no other one is looked at. -/
theorem token (hs : s.rest = w :: t.rest) (hparameter : w.isParameter = false)
    (hparameters : t.parameters = s.parameters)
    (h : ∀ rest, f { s with rest := w :: rest } = .ok a { t with rest := rest }) :
    Covers f s a t [.token w] := by
  refine ⟨hs, ?_, fun read' rest' hread _ => ?_⟩
  · rw [hparameters, List.flatMap_singleton, Stretch.shown, hparameter]
    rfl
  · rcases hread with _ | ⟨⟨⟩, ⟨⟩⟩
    exact h rest'

/-- The same where nothing but the tokens ahead changes. -/
theorem next (hs : s.rest = w :: t.rest) (hparameter : w.isParameter = false)
    (ht : t = { s with rest := t.rest })
    (h : ∀ rest, f { s with rest := w :: rest } = .ok a { s with rest := rest }) :
    Covers f s a t [.token w] := by
  refine .token hs hparameter (by rw [ht]) fun rest => ?_
  rw [ht]
  exact h rest

/-- A run `h` that goes on, behind a run of `f`, as `g` does. -/
theorem append {g h : Parser β} (hf : Covers f s a t read) (hg : Covers g t b u read')
    (hrun : ∀ before rest, SameStretches read before →
      f { s with rest := before.flatMap Stretch.tokens ++ rest } = .ok a { t with rest := rest } →
      h { s with rest := before.flatMap Stretch.tokens ++ rest } = g { t with rest := rest }) :
    Covers h s b u (read ++ read') := by
  refine ⟨?_, ?_, fun both rest' hboth hfront => ?_⟩
  · rw [hf.rest, hg.rest, List.flatMap_append, List.append_assoc]
  · rw [List.flatMap_append, Parameters.registerAll_append hf.registers, hg.registers]
  · obtain ⟨before, behind, rfl, hbefore, hbehind⟩ := List.exists_append_of_forall₂ hboth
    have hmiddle : SameFront t.rest (behind.flatMap Stretch.tokens ++ rest') := by
      rw [hg.rest]
      exact SameStretches.front hbehind hfront
    rw [List.flatMap_append, List.append_assoc,
      hrun before _ hbefore (hf.again before _ hbefore hmiddle)]
    exact hg.again behind rest' hbehind hfront

theorem bind (hf : Covers f s a t read) (hk : Covers (k a) t b u read') :
    Covers (f >>= k) s b u (read ++ read') :=
  hf.append hk fun before rest _ hagain => by rw [bind_apply, hagain]

/-- A round of a loop, and the rounds behind it. -/
theorem round {round : α → Parser (Option α)} {a c b : α} (hf : Covers (round a) s (some c) u read)
    (hlt : u.rest.length < s.rest.length) (hk : Covers (loop round c) u b t read') :
    Covers (loop round a) s b t (read ++ read') := by
  have hpos : 0 < (read.flatMap Stretch.tokens).length := by
    rw [hf.rest, List.length_append] at hlt
    omega
  refine hf.append hk fun before rest hbefore hagain => ?_
  have hpos' := (SameStretches.length_pos hbefore).1 hpos
  have hlonger : rest.length < (before.flatMap Stretch.tokens ++ rest).length := by
    rw [List.length_append]
    omega
  rw [Parser.loop, hagain]
  exact if_pos hlonger

/-- A round that reads nothing is the last one. -/
theorem lastRound {round : α → Parser (Option α)} {a b : α} (hf : Covers (round a) s (some b) t read)
    (hlt : ¬ t.rest.length < s.rest.length) : Covers (loop round a) s b t read := by
  refine ⟨hf.rest, hf.registers, fun read' rest' hread hfront => ?_⟩
  have hnone : ¬ 0 < (read'.flatMap Stretch.tokens).length := by
    rw [← SameStretches.length_pos hread]
    rw [hf.rest, List.length_append] at hlt
    omega
  rw [Parser.loop, hf.again read' rest' hread hfront]
  dsimp only
  rw [if_neg (by rw [List.length_append]; omega)]

/-- Behind a group that is passed over. -/
theorem behind {g : Parser α} {x : Stretch} (hk : Covers f t a u read)
    (hrest : s.rest = x.tokens ++ t.rest) (hparameters : t.parameters = s.parameters)
    (hx : x.shown = [])
    (h : ∀ x', x.Refills x' → ∀ rest', g { s with rest := x'.tokens ++ rest' } =
      f { t with rest := rest' }) : Covers g s a u (x :: read) := by
  refine ⟨?_, ?_, fun both rest' hboth hfront => ?_⟩
  · rw [hrest, hk.rest, List.flatMap_cons, List.append_assoc]
  · rw [List.flatMap_cons, hx, List.nil_append, ← hparameters, hk.registers]
  · obtain ⟨x', read', hx', hread', rfl⟩ := List.forall₂_cons_left_iff.1 hboth
    rw [List.flatMap_cons, List.append_assoc, h x' hx']
    exact hk.again read' rest' hread' hfront

end Covers

namespace Follows

variable {P P' : Assertion} {Q Q' : α → Assertion} {R : β → Assertion} {f g : Parser α}
  {k : α → Parser β}

theorem scans (hf : Follows P f Q) : Scans P f Q := by
  intro p s a t hp ha
  obtain ⟨q, read, hq, hpath, hcovers⟩ := hf p s a t hp ha
  exact ⟨q, hq, read, hcovers.rest, hpath, hcovers.registers⟩

theorem pre (hf : Follows P f Q) (h : ∀ p ts, P' p ts → P p ts) : Follows P' f Q :=
  fun p s a t hp => hf p s a t (h p s.rest hp)

theorem post (hf : Follows P f Q) (h : ∀ a p ts, Q a p ts → Q' a p ts) : Follows P f Q' := by
  intro p s a t hp ha
  obtain ⟨q, read, hq, hrun⟩ := hf p s a t hp ha
  exact ⟨q, read, h a q t.rest hq, hrun⟩

theorem bind (hf : Follows P f Q) (hk : ∀ a, Follows (Q a) (k a) R) : Follows P (f >>= k) R := by
  intro p s b u hp h
  obtain ⟨a, t, ha, hb⟩ := bind_eq_ok h
  obtain ⟨q, read, hq, hpath, hcovers⟩ := hf p s a t hp ha
  obtain ⟨r, read', hr, hpath', hcovers'⟩ := hk a q t b u hq hb
  exact ⟨r, read ++ read', hr, hpath.trans hpath', hcovers.bind hcovers'⟩

theorem pure {a : α} (h : ∀ p ts, P p ts → Q a p ts) : Follows P (pure a) Q := by
  intro p s b t hp h'
  cases h'
  exact ⟨p, [], h p s.rest hp, .nil p, .nil rfl rfl fun _ _ => rfl⟩

theorem fail {e : ParseError} : Follows P (fail e : Parser α) Q := by
  intro p s a t _ h
  cases h

theorem ofExcept (r : Except ParseError α) : Follows P (ofExcept r) fun _ => P := by
  cases r with
  | error e => exact fail
  | ok a => exact pure fun _ _ hp => hp

theorem ite {c : Prop} [Decidable c] (hf : Follows P f Q) (hg : Follows P g Q) :
    Follows P (if c then f else g) Q := by
  split
  · exact hf
  · exact hg

/-- A branch on what was read. -/
theorem bindIf {b : Parser Bool} {B : Bool → Assertion} (hb : Follows P b B)
    (hf : Follows (B true) f Q) (hg : Follows (B false) g Q) :
    Follows P (do if ← b then f else g) Q :=
  hb.bind fun b => by
    cases b with
    | true => exact hf
    | false => exact hg

/-- What is looked at are the next two tokens at most. -/
theorem look {g : List Token → α} (hg : ∀ ts, g ts = g (ts.take 2)) :
    Follows P (look g) fun a p ts => P p ts ∧ g ts = a := by
  intro p s a t hp h
  cases h
  refine ⟨p, [], ⟨hp, rfl⟩, .nil p, .nil rfl rfl fun rest hfront => ?_⟩
  rw [Parser.look, hfront.congr hg]

theorem current {expected : String} :
    Follows P (current expected) fun t p ts => P p ts ∧ ts.head? = some t := by
  intro p s a t hp h
  obtain ⟨rfl, hhead⟩ := current_eq_ok h
  refine ⟨p, [], ⟨hp, hhead⟩, .nil p, .nil rfl rfl fun rest hfront => ?_⟩
  obtain ⟨ts, hts⟩ := List.head?_eq_some_iff.1 hhead
  rw [hts] at hfront
  obtain ⟨us, rfl⟩ := hfront.exists_cons
  rfl

theorem require {expected : String} {g : Token → Bool} (h : TokenLeads P g q) :
    Follows P (require expected g) fun _ => At q := by
  intro p s w t hp hw
  obtain ⟨hrest, hg, ht⟩ := require_eq_ok hw
  rw [hrest] at hp
  obtain ⟨hparameter, x, hx, hq⟩ := h p w t.rest hp hg
  exact ⟨q, [.token w], rfl, .cons (.token hx hq) (.nil q),
    .next hrest hparameter ht fun _ => if_pos hg⟩

theorem accept {g : Token → Bool} (h : TokenLeads P g q) :
    Follows P (accept g) fun o => cond o.isSome (At q) P := by
  intro p s o t hp ho
  cases o with
  | some w =>
    obtain ⟨hrest, hg, ht⟩ := accept_eq_some ho
    rw [hrest] at hp
    obtain ⟨hparameter, x, hx, hq⟩ := h p w t.rest hp hg
    exact ⟨q, [.token w], rfl, .cons (.token hx hq) (.nil q),
      .next hrest hparameter ht fun _ => if_pos hg⟩
  | none =>
    obtain rfl := accept_eq_none ho
    refine ⟨p, [], hp, .nil p, .nil rfl rfl fun rest hfront => ?_⟩
    obtain ⟨ts, ps, ws⟩ := t
    cases ts with
    | nil =>
      obtain rfl := hfront.nil
      exact ho
    | cons w ts =>
      obtain ⟨us, rfl⟩ := hfront.exists_cons
      have hg : g w = false := by
        by_contra hg
        unfold Parser.accept at ho
        dsimp only at ho
        rw [if_pos (by simpa using hg)] at ho
        cases ho
      exact if_neg (Bool.eq_false_iff.1 hg)

/-- What is accepted passes the test. -/
theorem accepted {g : Token → Bool} (h : TokenLeads P g q) :
    Follows P (Parser.accept g) fun o p ts => o.elim (P p ts) fun w => p = q ∧ g w = true := by
  intro p s o t hp ho
  obtain ⟨r, read, hr, hrun⟩ := accept h p s o t hp ho
  refine ⟨r, read, ?_, hrun⟩
  cases o with
  | none => exact hr
  | some w => exact ⟨hr, (accept_eq_some ho).2.1⟩

theorem eatIf {g : Token → Bool} (h : TokenLeads P g q) :
    Follows P (do return (← Parser.accept g).isSome) fun b => cond b (At q) P :=
  (accept h).bind fun _ => pure fun _ _ hp => hp

/-- The next token is known. -/
theorem advance {expected : String} {w : Token} {x : Role} (hx : w.HasRole x) (hvalue : x ≠ .value)
    (h : Leads P x q) :
    Follows (fun p ts => P p ts ∧ ts.head? = some w) (advance expected) fun _ => At q := by
  refine require ?_
  rintro p t ts ⟨hp, ht⟩ -
  obtain rfl := Option.some.inj ht
  exact ⟨hx.isParameter hvalue, x, hx, h p t ts hp hx⟩

theorem expectKeyword {w : Keyword} (h : Leads P (.keyword w) q) :
    Follows P (expectKeyword w) fun _ => At q :=
  require (.of_keyword h)

theorem eatKeyword {w : Keyword} (h : Leads P (.keyword w) q) :
    Follows P (eatKeyword w) fun b => cond b (At q) P :=
  eatIf (.of_keyword h)

theorem expect {symbol : String} {x : Role} (hx : x.IsMark symbol) (h : Leads P x q) :
    Follows P (expect symbol) fun _ => At q :=
  require (.of_mark hx h)

/-- The parenthesis of an operand or behind `IN`, where its group is not passed over. -/
theorem expectOpening :
    Follows (fun p ts => (Ready p ts ∨ p = .target) ∧ Expr.startsSubquery ts = false)
      (Parser.expect "(") fun _ => Ready := by
  rintro p s w t ⟨hp, hs⟩ h
  obtain ⟨hrest, hw, ht⟩ := require_eq_ok h
  rw [hrest] at hp hs
  have hrole : w.HasRole .opening := .opening hw
  have hstep : p.step .opening = some .opened := by
    rcases hp with hp | rfl
    · exact Leads.ready rfl p w t.rest hp hrole
    · rfl
  exact ⟨.opened, [.token w], ready_opened hw hs, .cons (.token hrole hstep) (.nil _),
    .next hrest (hrole.isParameter nofun) ht fun _ => if_pos hw⟩

theorem eat {symbol : String} {x : Role} (hx : x.IsMark symbol) (h : Leads P x q) :
    Follows P (eat symbol) fun b => cond b (At q) P :=
  eatIf (.of_mark hx h)

theorem eatAnyKeyword {ks : List Keyword} (h : ∀ w ∈ ks, p.step (.keyword w) = some q) :
    Follows (At p) (eatAnyKeyword ks) fun o => cond o.isSome (At q) (At p) := by
  have hkeyword : TokenLeads (At p) (fun t => (ks.find? t.isKeyword).isSome) q := by
    rintro _ t ts rfl ht
    obtain ⟨k, hk⟩ := Option.isSome_iff_exists.1 ht
    have hrole : t.HasRole (.keyword k) := .keyword (List.find?_some hk)
    exact ⟨hrole.isParameter nofun, _, hrole, h k (List.mem_of_find?_eq_some hk)⟩
  rw [eatAnyKeyword_eq]
  refine (accepted hkeyword).bind fun o => pure fun r ts hr => ?_
  cases o with
  | none => exact hr
  | some w =>
    obtain ⟨hr, hw⟩ := hr
    rw [Option.bind_some, hw]
    exact hr

theorem expectAnyKeyword {ks : List Keyword} (h : ∀ w ∈ ks, p.step (.keyword w) = some q) :
    Follows (At p) (expectAnyKeyword ks) fun _ => At q := by
  refine current.bind fun _ => bind (eatAnyKeyword h |>.pre fun _ _ hp => hp.1) fun o => ?_
  cases o with
  | some w => exact pure fun _ _ hp => hp
  | none => exact fail

theorem warn {code : WarningCode} {message : String} {token : Token} :
    Follows P (warn code message token) fun _ => P := by
  intro p s a t hp h
  cases h
  exact ⟨p, [], hp, .nil p, .nil rfl rfl fun _ _ => rfl⟩

/-! ### Loops -/

theorem loop {round : α → Parser (Option α)} (h : ∀ a, Follows P (round a) fun _ => P) (a : α) :
    Follows P (loop round a) fun _ => P := by
  intro p s b t hp hb
  induction hn : s.rest.length using Nat.strongRecOn generalizing p s a with
  | ind n ih =>
  rw [Parser.loop] at hb
  cases hround : round a s with
  | error e u =>
    rw [hround] at hb
    cases hb
  | ok o u =>
    rw [hround] at hb
    obtain ⟨q, read, hq, hpath, hcovers⟩ := h a p s o u hp hround
    cases o with
    | none =>
      cases hb
      refine ⟨q, read, hq, hpath, hcovers.rest, hcovers.registers, fun read' rest' hread hrest => ?_⟩
      rw [Parser.loop, hcovers.again read' rest' hread hrest]
    | some c =>
      dsimp only at hb
      split at hb
      · next hlt =>
        obtain ⟨r, more, hr, hpath', hcovers'⟩ := ih _ (hn ▸ hlt) c q u hq hb rfl
        exact ⟨r, read ++ more, hr, hpath.trans hpath', hcovers.round hlt hcovers'⟩
      · next hlt =>
        cases hb
        exact ⟨q, read, hq, hpath, hcovers.lastRound hlt⟩

/-- Behind a comma the next item starts. -/
theorem separated (hf : Follows P f fun _ => At .done)
    (hf' : Follows (At .operand) f fun _ => At .done) :
    Follows P (separated f) fun _ => At .done :=
  hf.bind fun _ => loop (fun _ => bindIf (eat .comma (.at rfl))
    (hf'.bind fun _ => pure fun _ _ hp => hp) (pure fun _ _ hp => hp)) _

/-! ### Values and type names -/

theorem literalValue : Follows Ready literalValue fun o => cond o.isSome (At .done) Ready := by
  refine accept fun p t ts hp ht => ?_
  rcases Bool.or_eq_true_iff.1 ht with hliteral | hkeyword
  · refine ⟨Token.isParameter_of_kind fun hkind => ?_, _, .of_isLiteral hliteral, ?_⟩
    · simp [Token.isLiteral, hkind] at hliteral
    · exact Leads.ready rfl p t ts hp (.of_isLiteral hliteral)
  · obtain ⟨k, hmem, hk⟩ := List.any_eq_true.1 hkeyword
    have hdone : ∀ k ∈ literalKeywords, Place.beforeOperand (.keyword k) = some .done := by decide
    exact TokenLeads.of_keyword (.ready (hdone k hmem)) p t ts hp hk

theorem signedNumber : Follows (At .size) signedNumber fun _ => At .size := by
  have hnumber : TokenLeads (At .size) (·.kind == .number) .size := by
    rintro p t ts rfl ht
    have hliteral : t.isLiteral = true := by simp [Token.isLiteral, eq_of_beq ht]
    exact ⟨Token.isParameter_of_beq ht (by decide), _, .of_isLiteral hliteral, rfl⟩
  refine bind (accept (.of_role (fun _ => .sign) nofun (.at rfl))) fun sign => ?_
  cases sign with
  | some sign => exact (require hnumber).bind fun _ => pure fun _ _ hp => hp
  | none =>
    refine (accept hnumber).bind fun o => pure fun p ts hp => ?_
    cases o <;> exact hp

theorem typeSize : Follows (At .size) typeSize fun _ => At .size := by
  refine signedNumber.bind fun o => ?_
  cases o with
  | some number => exact pure fun _ _ hp => hp
  | none => exact current.bind fun _ => fail

theorem typeSizes : Follows (At .type) typeSizes fun _ => Typed :=
  have hclose {x : String} :
      Follows (At .size) (do let _ ← Parser.expect ")"; return x) fun _ => Typed :=
    (expect .closing (.at rfl)).bind fun _ => pure fun _ _ hp => .inr hp
  bindIf (eat .opening (.at rfl))
    (typeSize.bind fun _ => bindIf (eat .comma (.at rfl)) (typeSize.bind fun _ => hclose) hclose)
    (pure fun _ _ hp => .inl hp)

theorem typeName : Follows (At .type) typeName fun _ => Typed := by
  have hword : TokenLeads (At .type) isTypeWord .type :=
    .of_name (fun _ ht => (Bool.and_eq_true_iff.1 ht).1) (.at rfl) fun _ _ _ _ => .at rfl
  refine bind (loop (fun _ => (accept hword).bind fun o => pure fun p ts hp => ?_) _) fun _ =>
    ite (pure fun _ _ hp => .inl hp) (typeSizes.bind fun _ => pure fun _ _ hp => hp)
  cases o <;> exact hp

theorem collation (affinity : Option Affinity) :
    Follows (At .name) (collation affinity) fun _ => At .done := by
  have hname : TokenLeads (At .name) (·.isIdentifier) .done :=
    .of_name (fun _ ht => ht) (.at rfl) fun _ _ _ _ => .at rfl
  refine (require hname).bind fun token => bind (ite (pure fun _ _ hp => hp) warn) fun _ =>
    bind ?_ fun _ => pure fun _ _ hp => hp
  unfold warnNotText
  split
  · exact pure fun _ _ hp => hp
  · exact warn
  · exact pure fun _ _ hp => hp

/-! ### Parameters and groups -/

/-- A bind parameter is an operand, and it is registered. -/
theorem registered {token : Token} {expected : String} {f : Nat → Parser α}
    (htoken : token.isParameter = true) (hf : ∀ n, Follows (At .done) (f n) Q) :
    Follows (fun p ts => Ready p ts ∧ ts.head? = some token)
      (Parser.advance expected >>= fun _ => Parser.register token >>= f) Q := by
  rw [← bind_assoc]
  refine bind ?_ hf
  rintro p s n u ⟨hp, hs⟩ h
  obtain ⟨w, t, hw, hregister⟩ := bind_eq_ok h
  obtain ⟨hrest, -, ht⟩ := require_eq_ok hw
  obtain ⟨hparameters, hu⟩ := register_eq_ok hregister
  rw [hrest] at hs hp
  obtain rfl := Option.some.inj hs
  rw [ht] at hparameters
  have hrole : w.HasRole .value := .of_isParameter htoken
  refine ⟨.done, [.token w], rfl, .cons (.token hrole ?_) (.nil _), ?_, ?_, ?_⟩
  · exact Leads.ready rfl p w t.rest hp hrole
  · rw [hrest, hu]
    rfl
  · simpa [Stretch.shown, htoken] using Parameters.registerAll_singleton hparameters
  · intro read' rest' hread _
    rcases hread with _ | ⟨⟨⟩, ⟨⟩⟩
    change Parser.register w { s with rest := rest' } = _
    rw [Parser.register, hparameters, hu, ht]

/-- A group that starts with the first word of a query. -/
theorem subquery {k : Parser α} (h : ∀ p ts, P p ts →
      (p.startsOperand || p == .target) = true ∧ Expr.startsSubquery ts = true)
    (hk : Follows (At .done) k Q) : Follows P (skipBalanced >>= fun _ => k) Q := by
  intro p s b u hps hu
  obtain ⟨hp, hs⟩ := h p s.rest hps
  obtain ⟨inside, t, hskip, hb⟩ := bind_eq_ok hu
  obtain ⟨g, hrest, ht⟩ := skipBalanced_eq_ok hskip
  have hfirst : Expr.startsSubquery g.tokens = true := by
    rw [hrest] at hs
    obtain ⟨opening, _ | ⟨w, inside⟩, closing, _, _, _⟩ := g <;> exact hs
  obtain ⟨q, read, hq, hpath, hcovers⟩ := hk .done t b u rfl hb
  refine ⟨q, .subquery g hfirst :: read, hq, .cons (.subquery g hfirst hp) hpath,
    hcovers.behind hrest (by rw [ht]) rfl ?_⟩
  rintro _ ⟨⟩ rest'
  rw [bind_apply, Stretch.tokens, skipBalanced_group, ht]

/-- The group behind `EXISTS`. -/
theorem existence {expected : String} {k : Parser α}
    (h : ∀ p ts, P p ts → Ready p ts ∧ ts.head?.any (·.isKeyword .EXISTS) = true)
    (hk : Follows (At .done) k Q) :
    Follows P (Parser.advance expected >>= fun _ => skipBalanced >>= fun _ => k) Q := by
  intro p s b u hps hu
  obtain ⟨hp, hs⟩ := h p s.rest hps
  obtain ⟨w, v, hw, htail⟩ := bind_eq_ok hu
  obtain ⟨inside, t, hskip, hb⟩ := bind_eq_ok htail
  obtain ⟨hrest, -, hv⟩ := require_eq_ok hw
  obtain ⟨g, hgroup, ht⟩ := skipBalanced_eq_ok hskip
  rw [hrest] at hs
  obtain ⟨q, read, hq, hpath, hcovers⟩ := hk .done t b u rfl hb
  refine ⟨q, .existence w g hs :: read, hq, .cons (.existence w g hs hp.1) hpath,
    hcovers.behind (by rw [hrest, hgroup]; rfl) (by rw [ht, hv]) rfl ?_⟩
  rintro _ (_ | ⟨_, _⟩) rest'
  rw [bind_apply]
  change (skipBalanced >>= fun _ => k) { s with rest := Group.tokens _ ++ rest' } = _
  rw [bind_apply, skipBalanced_group, ht, hv]

end Follows

end Parser

end SqliteSchema
