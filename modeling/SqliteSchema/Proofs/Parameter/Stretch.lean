import Mathlib.Data.List.Infix
import SqliteSchema.Expr.Operand
import SqliteSchema.Proofs.Lexeme.Spelling
import SqliteSchema.Proofs.Parameter.Numbering
import SqliteSchema.Proofs.Parser.Ensures

/-!
Which bind parameters a parser registers. What it reads is cut into stretches: single tokens, of
which the bind parameters are registered, and groups in parentheses that it passes over.
-/
namespace SqliteSchema

namespace Token

variable {t : Token} {symbol : String} {k : Keyword}

/-- The characters in front of a bind parameter. -/
abbrev parameterSigns : List Char := ['?', ':', '@', '$']

theorem isParameter_of_kind (h : t.kind ≠ .other) : t.isParameter = false := by
  simp [isParameter, h]

theorem isParameter_of_beq {kind : TokenKind} (h : (t.kind == kind) = true) (hk : kind ≠ .other) :
    t.isParameter = false :=
  isParameter_of_kind (eq_of_beq h ▸ hk)

theorem isParameter_of_isBinary (h : t.isBinary = true) : t.isParameter = false := by
  refine isParameter_of_kind fun hkind => ?_
  simp [isBinary, hkind] at h

theorem isParameter_of_head (h : ∀ c ∈ parameterSigns, t.value.toList.head? ≠ some c) :
    t.isParameter = false := by
  unfold isParameter
  cases hc : t.value.toList.head? with
  | none => simp
  | some c =>
    have hnot : c ∉ parameterSigns := fun hmem => h c hmem hc
    rw [Option.any_some, List.contains_eq_mem, decide_eq_false hnot, Bool.and_false]

theorem isParameter_of_is (h : t.is symbol = true)
    (hs : symbol.toList.head?.any parameterSigns.contains = false) : t.isParameter = false := by
  rw [isParameter, value_of_is h, hs, Bool.and_false]

theorem isParameter_of_isKeyword (h : t.isKeyword k = true) : t.isParameter = false := by
  have hlower : t.value.toLower = k.text := by simpa using (Bool.and_eq_true_iff.1 h).2
  refine isParameter_of_head fun c hc hhead => ?_
  have hmem : c.toLower ∈ k.text.toList := by
    rw [← hlower, toList_toLower]
    exact List.mem_map_of_mem (List.mem_of_mem_head? hhead)
  have hsign : parameterSigns.all (fun c => !(c.toLower.isLower || c.toLower == '_')) = true := by
    decide
  have hnot := List.all_eq_true.1 hsign c hc
  rcases (Keyword.text_spec k).2 _ hmem with hletter | hunderscore
  · simp [hletter] at hnot
  · simp [hunderscore] at hnot

theorem isParameter_of_isIdentifier (h : t.isIdentifier = true) : t.isParameter = false := by
  have hsign : parameterSigns.all
      (fun c => (Literal.Quoted.closing? c).isNone && !startsWord c) = true := by
    decide +kernel
  refine isParameter_of_head fun c hc hhead => ?_
  obtain ⟨hquote, hword⟩ : Literal.Quoted.closing? c = none ∧ startsWord c = false := by
    simpa using List.all_eq_true.1 hsign c hc
  obtain ⟨cs, hcs⟩ := List.head?_eq_some_iff.1 hhead
  simp [isIdentifier, isQuoted, Literal.Quoted.inside?, hcs, hquote, hword] at h

end Token

namespace Parameters

/-- Registers the parameters that these tokens spell, one after the other. -/
def registerAll (ps : Parameters) (ts : List Token) : Except ParameterFault Parameters :=
  ts.foldlM (fun ps t => (ps.register t.value).map (·.2)) ps

theorem registerAll_singleton {ps ps' : Parameters} {t : Token} {n : Nat}
    (h : ps.register t.value = .ok (n, ps')) : ps.registerAll [t] = .ok ps' := by
  unfold registerAll
  rw [List.foldlM_cons, h]
  rfl

theorem registerAll_append {ps ps' : Parameters} {ts us : List Token}
    (h : ps.registerAll ts = .ok ps') : ps.registerAll (ts ++ us) = ps'.registerAll us := by
  unfold registerAll at h ⊢
  rw [List.foldlM_append, h]
  rfl

end Parameters

namespace Parser

variable {α β : Type} {s t u : ParseState}

/-- Tokens in parentheses, where the first one is closed by the last token. -/
structure Group where
  opening : Token
  inside : List Token
  closing : Token
  opens : opening.is "(" = true
  ends : closing.is ")" = true
  closes : ∀ rest, balanced 0 (inside ++ closing :: rest) = some (inside, rest)

def Group.tokens (g : Group) : List Token := g.opening :: (g.inside ++ [g.closing])

/-- A group that starts with the first word of a query is not empty. -/
theorem Group.exists_inside (g : Group) (hfirst : Expr.startsSubquery g.tokens = true) :
    ∃ w ts, g.inside = w :: ts := by
  obtain ⟨opening, _ | ⟨w, ts⟩, closing, opens, ends, closes⟩ := g
  · have hend : closing.is ")" = false := by
      rcases Bool.or_eq_true_iff.1 (Bool.and_eq_true_iff.1 hfirst).2 with h | h
      · exact Token.is_of_isKeyword h
      · exact Token.is_of_isKeyword h
    rw [ends] at hend
    cases hend
  · exact ⟨w, ts, rfl⟩

/-- A part of what a parser reads. Groups are passed over behind `EXISTS`, and where they start
with the first word of a query. -/
inductive Stretch
  | token (t : Token)
  | existence (word : Token) (group : Group) (hword : word.isKeyword .EXISTS = true)
  | subquery (group : Group) (hfirst : Expr.startsSubquery group.tokens = true)

namespace Stretch

def tokens : Stretch → List Token
  | token t => [t]
  | existence word group _ => word :: group.tokens
  | subquery group _ => group.tokens

theorem exists_tokens (x : Stretch) : ∃ t ts, x.tokens = t :: ts := by
  cases x <;> exact ⟨_, _, rfl⟩

/-- The bind parameters that are registered. -/
def shown : Stretch → List Token
  | token t => if t.isParameter then [t] else []
  | existence .. | subquery .. => []

/-- The bind parameters that are passed over. -/
def hidden : Stretch → List Token
  | token _ => []
  | existence _ group _ | subquery group _ => group.inside.filter (·.isParameter)

theorem shown_subset (x : Stretch) : x.shown ⊆ x.tokens := by
  cases x with
  | token t =>
    rw [shown, tokens]
    split
    · exact List.Subset.refl _
    · exact List.nil_subset _
  | existence => exact List.nil_subset _
  | subquery => exact List.nil_subset _

/-- Outside its groups a stretch has no bind parameters but those that are registered. -/
theorem filter_tokens {x : Stretch} (h : x.hidden = []) :
    x.tokens.filter (·.isParameter) = x.shown := by
  have hgroup {g : Group} (hg : g.inside.filter (·.isParameter) = []) :
      g.tokens.filter (·.isParameter) = [] := by
    have hopening := Token.isParameter_of_is g.opens (by decide)
    have hclosing := Token.isParameter_of_is g.ends (by decide)
    simp [Group.tokens, hg, hopening, hclosing]
  cases x with
  | token t => cases ht : t.isParameter <;> simp [tokens, shown, ht]
  | existence word group hword =>
    rw [tokens, List.filter_cons_of_neg (by simp [Token.isParameter_of_isKeyword hword])]
    exact hgroup h
  | subquery group hfirst => exact hgroup h

theorem filter_flatMap_tokens {read : List Stretch} (h : read.flatMap hidden = []) :
    (read.flatMap tokens).filter (·.isParameter) = read.flatMap shown := by
  induction read with
  | nil => rfl
  | cons x read ih =>
    rw [List.flatMap_cons, List.append_eq_nil_iff] at h
    rw [List.flatMap_cons, List.filter_append, filter_tokens h.1, ih h.2, List.flatMap_cons]

end Stretch

theorem is_of_depthBehind {depth : Nat} {t : Token} (h : depthBehind depth t = none) :
    t.is ")" = true := by
  unfold depthBehind at h
  split at h
  · cases h
  · split at h
    · assumption
    · cases h

theorem balanced_eq_some {depth : Nat} {ts inside rest : List Token}
    (h : balanced depth ts = some (inside, rest)) :
    ∃ closing, closing.is ")" = true ∧ ts = inside ++ closing :: rest ∧
      ∀ rest', balanced depth (inside ++ closing :: rest') = some (inside, rest') := by
  induction ts generalizing depth inside with
  | nil => cases h
  | cons t ts ih =>
    rw [balanced_cons] at h
    cases hd : depthBehind depth t with
    | none =>
      rw [hd] at h
      cases h
      exact ⟨t, is_of_depthBehind hd, rfl, fun us => by rw [List.nil_append, balanced_cons, hd]⟩
    | some d =>
      rw [hd] at h
      obtain ⟨⟨inside', rest'⟩, hr, heq⟩ := Option.map_eq_some_iff.1 h
      obtain ⟨rfl, rfl⟩ := Prod.mk.inj heq
      obtain ⟨closing, hends, rfl, hcloses⟩ := ih hr
      refine ⟨closing, hends, rfl, fun us => ?_⟩
      rw [List.cons_append, balanced_cons, hd]
      dsimp only
      rw [hcloses]
      rfl

/-- No parenthesis is closed before it is opened, and each one is closed. -/
structure Balanced (ts : List Token) : Prop where
  opened : ∀ us, us <+: ts → us.countP (·.is ")") ≤ us.countP (·.is "(")
  closed : ts.countP (·.is ")") = ts.countP (·.is "(")

instance (ts : List Token) : Decidable (Balanced ts) :=
  decidable_of_iff ((∀ us ∈ ts.inits, us.countP (·.is ")") ≤ us.countP (·.is "(")) ∧
      ts.countP (·.is ")") = ts.countP (·.is "("))
    ⟨fun h => ⟨fun us hus => h.1 us ((List.mem_inits us ts).2 hus), h.2⟩,
      fun h => ⟨fun us hus => h.opened us ((List.mem_inits us ts).1 hus), h.closed⟩⟩

/-- A parenthesis behind tokens that close `depth` others is the next one to be closed. -/
theorem balanced_behind {depth : Nat} {ts rest : List Token} {closing : Token}
    (hclosing : closing.is ")" = true)
    (hopened : ∀ us, us <+: ts → us.countP (·.is ")") ≤ us.countP (·.is "(") + depth)
    (hclosed : ts.countP (·.is ")") = ts.countP (·.is "(") + depth) :
    balanced depth (ts ++ closing :: rest) = some (ts, rest) := by
  induction ts generalizing depth with
  | nil =>
    obtain rfl : depth = 0 := by simpa using hclosed.symm
    have hopen : closing.is "(" = false := Token.is_of_is hclosing
    simp [balanced_cons, depthBehind, hopen, hclosing]
  | cons t ts ih =>
    have hnext (us : List Token) (hus : us <+: ts) :=
      hopened (t :: us) (List.cons_prefix_cons.2 ⟨rfl, hus⟩)
    rw [List.cons_append, balanced_cons]
    unfold depthBehind
    rw [List.countP_cons, List.countP_cons] at hclosed
    simp only [List.countP_cons] at hnext
    by_cases hopen : t.is "(" = true
    · have hclose : t.is ")" = false := Token.is_of_is hopen
      simp only [hopen, hclose, if_true, Bool.false_eq_true, if_false] at hclosed hnext ⊢
      rw [ih (fun us hus => by have := hnext us hus; omega) (by omega)]
      rfl
    · by_cases hclose : t.is ")" = true
      · simp only [hopen, hclose, if_true, Bool.false_eq_true, if_false] at hclosed hnext ⊢
        have hfirst := hnext [] List.nil_prefix
        obtain ⟨d, rfl⟩ : ∃ d, depth = d + 1 := ⟨depth - 1, by simp at hfirst; omega⟩
        dsimp only
        rw [ih (fun us hus => by have := hnext us hus; omega) (by omega)]
        rfl
      · simp only [hopen, hclose, Bool.false_eq_true, if_false] at hclosed hnext ⊢
        rw [ih (fun us hus => by have := hnext us hus; omega) (by omega)]
        rfl

/-- The group with other tokens inside it. -/
def Group.refill (g : Group) (inside : List Token) (h : Balanced inside) : Group where
  opening := g.opening
  inside := inside
  closing := g.closing
  opens := g.opens
  ends := g.ends
  closes _ := balanced_behind g.ends h.opened h.closed

theorem skipBalanced_eq_ok {inside : List Token} (h : skipBalanced s = .ok inside t) :
    ∃ g : Group, s.rest = g.tokens ++ t.rest ∧ t = { s with rest := t.rest } := by
  obtain ⟨opening, u, hopening, h⟩ := bind_eq_ok h
  obtain ⟨hs, hopens, hu⟩ := require_eq_ok hopening
  split at h
  · next inside rest hbalanced =>
    cases h
    obtain ⟨closing, hends, hrest, hcloses⟩ := balanced_eq_some hbalanced
    refine ⟨⟨opening, inside, closing, hopens, hends, hcloses⟩, ?_, by rw [hu]⟩
    rw [hs, hrest]
    simp [Group.tokens]
  · cases h

theorem skipBalanced_opened {opening : Token} {ts : List Token} (hs : s.rest = opening :: ts)
    (h : opening.is "(" = true) :
    skipBalanced s = match balanced 0 ts with
      | some (inside, rest) => .ok inside { s with rest := rest }
      | none => .error (.endOfInput "')'") { s with rest := [] } := by
  have hopening : expect "(" s = .ok opening { s with rest := ts } := by
    unfold Parser.expect Parser.require
    rw [hs]
    exact if_pos h
  have hbind (f : Token → Parser (List Token)) :
      (expect "(" >>= f) s = f opening { s with rest := ts } := by
    rw [bind_apply, hopening]
  exact hbind _

theorem skipBalanced_group (g : Group) (s : ParseState) (rest : List Token) :
    skipBalanced { s with rest := g.tokens ++ rest } = .ok g.inside { s with rest := rest } := by
  have htokens : g.tokens ++ rest = g.opening :: (g.inside ++ g.closing :: rest) := by
    simp [Group.tokens]
  rw [skipBalanced_opened htokens g.opens, g.closes]

/-- From one state to a later one: the tokens between them are cut into stretches, of which the
parameters are registered that are not passed over. -/
def Passes (s t : ParseState) : Prop :=
  ∃ read : List Stretch, s.rest = read.flatMap Stretch.tokens ++ t.rest ∧
    s.parameters.registerAll (read.flatMap Stretch.shown) = .ok t.parameters

theorem Passes.refl (s : ParseState) : Passes s s := ⟨[], rfl, rfl⟩

theorem Passes.trans (h : Passes s t) (h' : Passes t u) : Passes s u := by
  obtain ⟨read, hrest, hregister⟩ := h
  obtain ⟨read', hrest', hregister'⟩ := h'
  refine ⟨read ++ read', ?_, ?_⟩
  · rw [hrest, hrest', List.flatMap_append, List.append_assoc]
  · rw [List.flatMap_append, Parameters.registerAll_append hregister, hregister']

theorem Passes.token {w : Token} {rest : List Token} (hs : s.rest = w :: rest)
    (hw : w.isParameter = false) : Passes s { s with rest := rest } := by
  refine ⟨[.token w], by simpa [Stretch.tokens] using hs, ?_⟩
  simp only [List.flatMap_singleton, Stretch.shown, hw]
  rfl

/-- A parser that, on tokens which satisfy `P`, registers the bind parameters that it reads and no
others. -/
def Collects (P : List Token → Prop) (p : Parser α) : Prop :=
  ∀ s a t, P s.rest → p s = .ok a t → Passes s t

/-- The next token, if there is one, is no bind parameter. -/
def Plain (ts : List Token) : Prop := ∀ t, ts.head? = some t → t.isParameter = false

theorem plain_of_head {w : Token} {ts : List Token} (hw : w.isParameter = false)
    (hts : ts.head? = some w) : Plain ts := by
  intro t ht
  obtain rfl : w = t := Option.some.inj (hts.symm.trans ht)
  exact hw

namespace Collects

variable {P P' : List Token → Prop} {p q : Parser α} {f : α → Parser β}

theorem mono (hp : Collects P p) (h : ∀ ts, P' ts → P ts) : Collects P' p :=
  fun s a t hs => hp s a t (h s.rest hs)

theorem bind (hp : Collects P p) (hf : ∀ a, Collects (fun _ => True) (f a)) :
    Collects P (p >>= f) := by
  intro s b u hs h
  obtain ⟨a, t, ha, hb⟩ := bind_eq_ok h
  exact (hp s a t hs ha).trans (hf a t b u trivial hb)

theorem pure (a : α) : Collects P (pure a) := by
  intro s b t _ h
  cases h
  exact .refl s

theorem fail (e : ParseError) : Collects P (fail e : Parser α) := by
  intro s a t _ h
  cases h

theorem ofExcept (r : Except ParseError α) : Collects P (ofExcept r : Parser α) := by
  cases r with
  | error e => exact fail e
  | ok a => exact pure a

theorem ite {c : Prop} [Decidable c] (hp : Collects P p) (hq : Collects P q) :
    Collects P (if c then p else q) := by
  split
  · exact hp
  · exact hq

/-! ### The next tokens -/

/-- What was seen ahead is known to the parser behind. -/
theorem look {g : List Token → α} (hf : ∀ a, Collects (fun ts => P ts ∧ g ts = a) (f a)) :
    Collects P (look g >>= f) :=
  fun s b t hs h => hf (g s.rest) s b t ⟨hs, rfl⟩ h

theorem lookIf {g : List Token → Bool} (hp : Collects (fun ts => P ts ∧ g ts = true) p)
    (hq : Collects P q) : Collects P (do if ← Parser.look g then p else q) := by
  refine look fun b => ?_
  cases b with
  | true => exact hp
  | false => exact hq.mono fun _ hts => hts.1

theorem current {f : Token → Parser β} {expected : String}
    (hf : ∀ t, Collects (fun ts => P ts ∧ ts.head? = some t) (f t)) :
    Collects P (current expected >>= f) := by
  intro s b u hs h
  obtain ⟨w, t, hw, hb⟩ := bind_eq_ok h
  unfold Parser.current at hw
  split at hw
  · cases hw
  · next w rest hrest =>
    cases hw
    exact hf w s b u ⟨hs, by rw [hrest, List.head?_cons]⟩ hb

theorem accept {g : Token → Bool} (hg : ∀ t, g t = true → t.isParameter = false) :
    Collects P (accept g) := by
  intro s a t _ h
  unfold Parser.accept at h
  split at h
  · cases h
    exact .refl s
  · next w rest hrest =>
    split at h
    · next hw =>
      cases h
      exact .token hrest (hg w hw)
    · cases h
      exact .refl s

theorem require {expected : String} {g : Token → Bool}
    (hg : ∀ t ts, P (t :: ts) → g t = true → t.isParameter = false) :
    Collects P (require expected g) := by
  intro s w t hs h
  obtain ⟨hrest, hw, ht⟩ := require_eq_ok h
  rw [hrest] at hs
  rw [ht]
  exact .token hrest (hg w t.rest hs hw)

theorem advance {expected : String} : Collects Plain (advance expected) :=
  require fun t _ h _ => h t rfl

/-- What was seen ahead is known behind the next token too. -/
theorem advanceThen {expected : String} {f : Token → Parser β}
    (hplain : ∀ t ts, P (t :: ts) → t.isParameter = false)
    (hf : ∀ t, Collects (fun ts => P (t :: ts)) (f t)) :
    Collects P (Parser.advance expected >>= f) := by
  intro s b u hs h
  obtain ⟨w, t, hw, hb⟩ := bind_eq_ok h
  have hpasses : Passes s t :=
    require (P := P) (fun w ts hts _ => hplain w ts hts) s w t hs hw
  obtain ⟨hrest, -, -⟩ := require_eq_ok hw
  rw [hrest] at hs
  exact hpasses.trans (hf w t b u hs hb)

theorem eat {symbol : String}
    (h : symbol.toList.head?.any Token.parameterSigns.contains = false) :
    Collects P (eat symbol) :=
  (accept fun _ ht => Token.isParameter_of_is ht h).bind fun _ => pure _

theorem expectKeyword {k : Keyword} : Collects P (expectKeyword k) :=
  require fun _ _ _ => Token.isParameter_of_isKeyword

theorem eatKeyword {k : Keyword} : Collects P (eatKeyword k) :=
  (accept fun _ => Token.isParameter_of_isKeyword).bind fun _ => pure _

theorem expectIdentifier {expected : String} : Collects P (expectIdentifier expected) :=
  require fun _ _ _ => Token.isParameter_of_isIdentifier

/-! ### Loops -/

theorem loop {round : α → Parser (Option α)} (h : ∀ a, Collects (fun _ => True) (round a)) (a : α) :
    Collects P (loop round a) := by
  intro s b t _ hb
  refine loop_invariant (I := fun _ u => Passes s u) (fun a u v hu hr => ?_)
    (fun a c u v hu hr => ?_) (Passes.refl s) hb
  · exact hu.trans (h a u none v trivial hr)
  · exact hu.trans (h a u (some c) v trivial hr)

theorem separated (h : ∀ P, Collects P p) : Collects P (separated p) :=
  (h P).bind fun _ => loop (fun _ => (eat (by decide)).bind fun _ =>
    ite ((h _).bind fun _ => pure _) (pure _)) _

end Collects

end Parser

end SqliteSchema
