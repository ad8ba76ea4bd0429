import SqliteSchema.Parser.Agree
import SqliteSchema.Proofs.Lexeme.Spelling

/-!
Runs that succeed, described without the places of tokens: which tokens a parser finds ahead and
which it leaves, and which warnings there are before and after.
-/
namespace SqliteSchema.Parser

variable {α β : Type}

/-- The code and the message of a warning. -/
abbrev Note := WarningCode × String

/-- The tokens ahead and the warnings so far, all without their places. -/
structure View where
  ahead : List Token
  notes : List Note

def view (s : ParseState) : View :=
  ⟨s.rest.map Token.atStart, s.warnings.map fun w => (w.code, w.message)⟩

/-- Where the parser sees `v` it succeeds with a value that satisfies `Q`, and `v'` is seen then. -/
def Reads (p : Parser α) (v : View) (Q : α → Prop) (v' : View) : Prop :=
  ∀ s, view s = v → ∃ a t, p s = .ok a t ∧ Q a ∧ t.rest <:+ s.rest ∧ view t = v'

/-- The first token is one of these. -/
def StartsIn (S as : List Token) : Prop := ∃ b bs, as = b :: bs ∧ b ∈ S

theorem StartsIn.append {S as bs : List Token} (ha : as = [] ∨ StartsIn S as)
    (hb : StartsIn S bs) : StartsIn S (as ++ bs) := by
  rcases ha with rfl | ⟨a, as, rfl, ha⟩
  · exact hb
  · exact ⟨a, as ++ bs, rfl, ha⟩

variable {p : Parser α} {v v' v'' : View} {Q : α → Prop} {R : β → Prop} {a : Token}
  {as : List Token} {ns : List Note}

namespace Reads

theorem bind {f : α → Parser β} (hp : Reads p v Q v') (hf : ∀ x, Q x → Reads (f x) v' R v'') :
    Reads (p >>= f) v R v'' := by
  intro s hs
  obtain ⟨x, t, hx, hQ, hsuffix, ht⟩ := hp s hs
  obtain ⟨y, u, hy, hR, hsuffix', hu⟩ := hf x hQ t ht
  refine ⟨y, u, ?_, hR, hsuffix'.trans hsuffix, hu⟩
  rw [bind_apply, hx]
  exact hy

/-- Behind a parser whose value is known. -/
theorem seq {f : α → Parser β} {x : α} (hp : Reads p v (· = x) v') (hf : Reads (f x) v' R v'') :
    Reads (p >>= f) v R v'' :=
  hp.bind fun _ hy => hy ▸ hf

theorem pure {x : α} (h : Q x) : Reads (pure x) v Q v :=
  fun s hs => ⟨x, s, rfl, h, List.suffix_refl _, hs⟩

theorem imp {Q' : α → Prop} (hp : Reads p v Q v') (h : ∀ x, Q x → Q' x) : Reads p v Q' v' := by
  intro s hs
  obtain ⟨x, t, hx, hQ, ht⟩ := hp s hs
  exact ⟨x, t, hx, h x hQ, ht⟩

theorem ofExcept {r : Except ParseError α} {x : α} (h : r = .ok x) :
    Reads (ofExcept r) v (· = x) v := by
  subst h
  exact .pure rfl

/-- What a parser sees that only looks at the tokens ahead. -/
theorem look {f : List Token → α} {x : α}
    (hf : ∀ ts, ts.map Token.atStart = v.ahead → f ts = x) : Reads (look f) v (· = x) v :=
  fun s hs => ⟨_, s, rfl, hf s.rest (congrArg View.ahead hs), List.suffix_refl _, hs⟩

/-! ### The next token -/

theorem exists_next {s : ParseState} (hs : view s = ⟨a :: as, ns⟩) :
    ∃ t rest, s.rest = t :: rest ∧ t.atStart = a ∧ view { s with rest := rest } = ⟨as, ns⟩ := by
  have hahead : s.rest.map Token.atStart = a :: as := congrArg View.ahead hs
  obtain ⟨t, rest, hrest, ht, has⟩ := List.map_eq_cons_iff.1 hahead
  refine ⟨t, rest, hrest, ht, ?_⟩
  have hnotes : (view s).notes = ns := congrArg View.notes hs
  rw [← has, ← hnotes]
  rfl

theorem look_head {q : Token → Bool} (hq : ∀ t, q t = q t.atStart) :
    Reads (Parser.look (·.head?.any q)) ⟨a :: as, ns⟩ (· = q a) ⟨a :: as, ns⟩ := by
  apply look
  intro ts hts
  obtain ⟨t, rest, rfl, ht, -⟩ := List.map_eq_cons_iff.1 hts
  rw [List.head?_cons, Option.any_some, hq t, ht]

theorem look_none {q : Token → Bool} (hq : ∀ t, q t = q t.atStart)
    (h : ∀ b ∈ v.ahead.head?, q b = false) :
    Reads (Parser.look (·.head?.any q)) v (· = false) v := by
  apply look
  intro ts hts
  cases ts with
  | nil => rfl
  | cons t ts =>
    rw [List.head?_cons, Option.any_some, hq t]
    exact h _ (by rw [← hts]; rfl)

theorem current {expected : String} :
    Reads (current expected) ⟨a :: as, ns⟩ (·.atStart = a) ⟨a :: as, ns⟩ := by
  intro s hs
  obtain ⟨t, rest, hrest, ht, -⟩ := exists_next hs
  refine ⟨t, s, ?_, ht, List.suffix_refl _, hs⟩
  unfold Parser.current
  rw [hrest]

theorem peek : Reads peek ⟨a :: as, ns⟩ (∃ t, · = some t ∧ t.atStart = a) ⟨a :: as, ns⟩ := by
  intro s hs
  obtain ⟨t, rest, hrest, ht, -⟩ := exists_next hs
  refine ⟨some t, s, ?_, ⟨t, rfl, ht⟩, List.suffix_refl _, hs⟩
  unfold Parser.peek Parser.look
  rw [hrest]
  rfl

theorem require {expected : String} {q : Token → Bool} (hq : ∀ t, q t = q t.atStart)
    (h : q a = true) :
    Reads (require expected q) ⟨a :: as, ns⟩ (·.atStart = a) ⟨as, ns⟩ := by
  intro s hs
  obtain ⟨t, rest, hrest, ht, hview⟩ := exists_next hs
  refine ⟨t, { s with rest := rest }, ?_, ht, ?_, hview⟩
  · unfold Parser.require
    rw [hrest]
    simp only
    rw [hq t, ht, h, if_pos rfl]
  · rw [hrest]
    exact List.suffix_cons t rest

theorem advance {expected : String} :
    Reads (advance expected) ⟨a :: as, ns⟩ (·.atStart = a) ⟨as, ns⟩ :=
  require (fun _ => rfl) rfl

theorem expect {symbol : String} (h : a.is symbol = true) :
    Reads (expect symbol) ⟨a :: as, ns⟩ (·.atStart = a) ⟨as, ns⟩ :=
  require (fun _ => rfl) h

theorem expectKeyword {k : Keyword} (h : a.isKeyword k = true) :
    Reads (expectKeyword k) ⟨a :: as, ns⟩ (·.atStart = a) ⟨as, ns⟩ :=
  require (fun _ => rfl) h

theorem expectIdentifier {expected : String} (h : a.isIdentifier = true) :
    Reads (expectIdentifier expected) ⟨a :: as, ns⟩ (·.atStart = a) ⟨as, ns⟩ :=
  require (fun _ => rfl) h

/-- A printed name. -/
theorem name {expected s : String} :
    Reads (Parser.expectIdentifier expected) ⟨.ofName s :: as, ns⟩ (·.unquoted = s) ⟨as, ns⟩ :=
  (expectIdentifier Token.isIdentifier_ofName).imp fun t ht => by
    rw [← Token.unquoted_ofName (s := s), ← ht]
    rfl

/-- A printed keyword. -/
theorem keyword {expected : String} {k : Keyword} :
    Reads (Parser.advance expected) ⟨.ofKeyword k :: as, ns⟩ (·.keyword = some k) ⟨as, ns⟩ :=
  advance.imp fun t ht => by
    rw [← Token.keyword_ofKeyword, ← ht]
    rfl

theorem accept {q : Token → Bool} (hq : ∀ t, q t = q t.atStart) (h : q a = true) :
    Reads (accept q) ⟨a :: as, ns⟩ (∃ t, · = some t ∧ t.atStart = a) ⟨as, ns⟩ := by
  intro s hs
  obtain ⟨t, rest, hrest, ht, hview⟩ := exists_next hs
  refine ⟨some t, { s with rest := rest }, ?_, ⟨t, rfl, ht⟩, ?_, hview⟩
  · unfold Parser.accept
    rw [hrest]
    simp only
    rw [hq t, ht, h, if_pos rfl]
  · rw [hrest]
    exact List.suffix_cons t rest

theorem accept_not {q : Token → Bool} (hq : ∀ t, q t = q t.atStart) (h : q a = false) :
    Reads (Parser.accept q) ⟨a :: as, ns⟩ (· = none) ⟨a :: as, ns⟩ := by
  intro s hs
  obtain ⟨t, rest, hrest, ht, -⟩ := exists_next hs
  refine ⟨none, s, ?_, rfl, List.suffix_refl _, hs⟩
  unfold Parser.accept
  rw [hrest]
  simp only
  rw [hq t, ht, h, if_neg (by decide)]

/-- Nothing is read where another token is next, or none at all. -/
theorem accept_none {q : Token → Bool} (hq : ∀ t, q t = q t.atStart)
    (h : ∀ b ∈ v.ahead.head?, q b = false) : Reads (Parser.accept q) v (· = none) v := by
  obtain ⟨ahead, ns⟩ := v
  cases ahead with
  | cons b bs => exact accept_not hq (h b rfl)
  | nil =>
    intro s hs
    have hrest : s.rest = [] := List.map_eq_nil_iff.1 (congrArg View.ahead hs)
    refine ⟨none, s, ?_, rfl, List.suffix_refl _, hs⟩
    unfold Parser.accept
    rw [hrest]

theorem eat {symbol : String} (h : a.is symbol = true) :
    Reads (eat symbol) ⟨a :: as, ns⟩ (· = true) ⟨as, ns⟩ :=
  (accept (fun _ => rfl) h).bind fun _ ⟨_, ht, _⟩ => ht ▸ .pure rfl

theorem eat_not {symbol : String} (h : a.is symbol = false) :
    Reads (Parser.eat symbol) ⟨a :: as, ns⟩ (· = false) ⟨a :: as, ns⟩ :=
  (accept_not (fun _ => rfl) h).seq (.pure rfl)

theorem eat_none {symbol : String} (h : ∀ b ∈ v.ahead.head?, b.is symbol = false) :
    Reads (Parser.eat symbol) v (· = false) v :=
  (accept_none (fun _ => rfl) h).seq (.pure rfl)

theorem eatKeyword {k : Keyword} (h : a.isKeyword k = true) :
    Reads (eatKeyword k) ⟨a :: as, ns⟩ (· = true) ⟨as, ns⟩ :=
  (accept (fun _ => rfl) h).bind fun _ ⟨_, ht, _⟩ => ht ▸ .pure rfl

theorem eatKeyword_not {k : Keyword} (h : a.isKeyword k = false) :
    Reads (Parser.eatKeyword k) ⟨a :: as, ns⟩ (· = false) ⟨a :: as, ns⟩ :=
  (accept_not (fun _ => rfl) h).seq (.pure rfl)

theorem eatKeyword_none {k : Keyword} (h : ∀ b ∈ v.ahead.head?, b.isKeyword k = false) :
    Reads (Parser.eatKeyword k) v (· = false) v :=
  (accept_none (fun _ => rfl) h).seq (.pure rfl)

theorem eatAnyKeyword {ks : List Keyword} {k : Keyword} (h : ks.find? a.isKeyword = some k) :
    Reads (eatAnyKeyword ks) ⟨a :: as, ns⟩ (· = some k) ⟨as, ns⟩ := by
  intro s hs
  obtain ⟨t, rest, hrest, ht, hview⟩ := exists_next hs
  refine ⟨some k, { s with rest := rest }, ?_, rfl, ?_, hview⟩
  · have hk : ks.find? t.isKeyword = some k := by
      rw [← h, ← ht]
      rfl
    unfold Parser.eatAnyKeyword
    rw [hrest]
    simp only [hk]
  · rw [hrest]
    exact List.suffix_cons t rest

theorem eatAnyKeyword_not {ks : List Keyword} (h : ks.find? a.isKeyword = none) :
    Reads (Parser.eatAnyKeyword ks) ⟨a :: as, ns⟩ (· = none) ⟨a :: as, ns⟩ := by
  intro s hs
  obtain ⟨t, rest, hrest, ht, -⟩ := exists_next hs
  refine ⟨none, s, ?_, rfl, List.suffix_refl _, hs⟩
  have hk : ks.find? t.isKeyword = none := by
    rw [← h, ← ht]
    rfl
  unfold Parser.eatAnyKeyword
  rw [hrest]
  simp only [hk]

theorem expectAnyKeyword {ks : List Keyword} {k : Keyword} (h : ks.find? a.isKeyword = some k) :
    Reads (expectAnyKeyword ks) ⟨a :: as, ns⟩ (· = k) ⟨as, ns⟩ :=
  current.bind fun _ _ => (eatAnyKeyword h).seq (.pure rfl)

theorem warn {ts : List Token} {code : WarningCode} {message : String} {token : Token} :
    Reads (warn code message token) ⟨ts, ns⟩ (fun _ => True)
      ⟨ts, ns ++ [(code, message)]⟩ := by
  intro s hs
  refine ⟨(), _, rfl, trivial, List.suffix_refl _, ?_⟩
  cases hs
  simp [view, Warning.atToken]

/-! ### Loops -/

/-- The loop ends where a round returns nothing. -/
theorem loop_stop {round : α → Parser (Option α)} {x : α} (h : Reads (round x) v (· = none) v')
    (hQ : Q x) : Reads (loop round x) v Q v' := by
  intro s hs
  obtain ⟨r, t, hr, rfl, ht⟩ := h s hs
  refine ⟨x, t, ?_, hQ, ht⟩
  rw [Parser.loop, hr]

/-- The loop goes on behind a round that reads something. -/
theorem loop_next {round : α → Parser (Option α)} {x : α} {P : α → Prop}
    (h : Reads (round x) v (∃ y, · = some y ∧ P y) v')
    (hl : v'.ahead.length < v.ahead.length)
    (hn : ∀ y, P y → Reads (loop round y) v' Q v'') : Reads (loop round x) v Q v'' := by
  intro s hs
  obtain ⟨r, t, hr, ⟨y, rfl, hP⟩, hsuffix, ht⟩ := h s hs
  obtain ⟨z, u, hz, hQ, hsuffix', hu⟩ := hn y hP t ht
  refine ⟨z, u, ?_, hQ, hsuffix'.trans hsuffix, hu⟩
  have hlt : t.rest.length < s.rest.length := by
    rw [← hs, ← ht] at hl
    simpa [view] using hl
  rw [Parser.loop, hr]
  simp only [hlt, if_true]
  exact hz

end Reads

end SqliteSchema.Parser
