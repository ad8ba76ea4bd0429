import SqliteSchema.Proofs.Parser.Comparison
import SqliteSchema.Proofs.Parser.Ensures

/-!
Parsers on tokens that are alike. They do not read the places of tokens, nor the case of letters,
and they do not look behind a semicolon that they leave alone, nor farther than two tokens ahead.
`Mirrors c V p q` says that `q` does on tokens that are alike what `p` does: it succeeds with values
related by `V`, or it fails and says the same. Such a run may be cut off at a semicolon or in front
of two tokens, behind which the two token lists need not have anything in common.
-/
namespace SqliteSchema

/-- What is not spelled like a keyword is none. -/
theorem Token.isKeyword_eq_false {t : Token} (h : Keyword.ofText? t.value.toLower = none)
    (k : Keyword) : t.isKeyword k = false := by
  refine Bool.eq_false_iff.2 fun hk => ?_
  have hkeyword := Token.isKeyword_iff_keyword.1 hk
  rw [Token.keyword, h, ite_self] at hkeyword
  cases hkeyword

theorem Token.isKeyword_semicolon {t : Token} (ht : t.value = ";") (k : Keyword) :
    t.isKeyword k = false := by
  have hnone : Keyword.ofText? ";".toLower = none := by decide +kernel
  exact isKeyword_eq_false (ht.symm ▸ hnone) k

theorem Token.is_semicolon_of_isKeyword {t : Token} {k : Keyword} (h : t.isKeyword k = true) :
    t.is ";" = false := by
  cases hs : t.is ";" with
  | false => rfl
  | true =>
    rw [isKeyword_semicolon (by simpa using (Bool.and_eq_true_iff.1 hs).2)] at h
    cases h

/-- Errors that say the same, perhaps of different places. -/
structure ParseError.Same (e e' : ParseError) : Prop where
  code : e.code = e'.code
  message : e.message = e'.message

theorem Comparison.sameError_text_iff {e e' : ParseError} : text.SameError e e' ↔ e.Same e' :=
  ⟨fun h => ⟨h.code, h.message trivial⟩, fun h => ⟨h.code, fun _ => h.message, nofun⟩⟩

/-- What the warnings say. -/
def ParseState.notes (s : ParseState) : List (WarningCode × String) :=
  s.warnings.map fun w => (w.code, w.message)

theorem Comparison.sameWarnings_text_iff {ws ws' : List Warning} :
    List.Forall₂ text.SameWarning ws ws' ↔
      ws.map (fun w => (w.code, w.message)) = ws'.map fun w => (w.code, w.message) := by
  have hiff : text.SameWarning = fun w w' => (w.code, w.message) = (w'.code, w'.message) := by
    funext w w'
    rw [Prod.mk.injEq]
    exact propext
      ⟨fun h => ⟨h.code, h.message trivial⟩, fun h => ⟨h.1, fun _ => h.2, nofun⟩⟩
  rw [← List.forall₂_eq_eq_eq, List.forall₂_map_left_iff, List.forall₂_map_right_iff, hiff]

namespace Parser

variable {α β : Type} {c : Comparison} {w w' ts ts' us us' : List Token}

/-- Checks with related values, or with errors that say the same. -/
inductive SameResult (c : Comparison) (V : α → α → Prop) :
    Except ParseError α → Except ParseError α → Prop
  | ok {a a' : α} (h : V a a') : SameResult c V (.ok a) (.ok a')
  | error {e e' : ParseError} (h : c.SameError e e') : SameResult c V (.error e) (.error e')
  | excused {e : ParseError} {r : Except ParseError α} (h : c.excused e.code) :
    SameResult c V (.error e) r

theorem sameResult_atToken (r : Except Fault α) {t t' : Token} (ht : c.Like t t') :
    SameResult c Eq (r.mapError (.atToken · t)) (r.mapError (.atToken · t')) := by
  cases r with
  | error fault => exact .error (.atToken rfl (fun _ => rfl) ht)
  | ok a => exact .ok rfl

theorem SameResult.bind {V : α → α → Prop} {U : β → β → Prop} {r r' : Except ParseError α}
    {f g : α → Except ParseError β} (h : SameResult c V r r')
    (hf : ∀ a a', V a a' → SameResult c U (f a) (g a')) :
    SameResult c U (r >>= f) (r' >>= g) := by
  cases h with
  | ok h => exact hf _ _ h
  | error h => exact .error h
  | excused h => exact .excused h

/-- Lists of tokens that are alike, at least up to a semicolon or in the next two tokens. No parser
looks farther ahead, unless the second token is a point. -/
inductive Near (c : Comparison) : List Token → List Token → Prop
  | nil : Near c [] []
  | two {t t' u u' : Token} {ts ts' : List Token} (ht : c.Like t t') (hu : c.Like u u')
    (hpoint : u.is "." = false) : Near c (t :: u :: ts) (t' :: u' :: ts')
  | semicolon {t t' : Token} {ts ts' : List Token} (ht : c.Like t t') (hv : t.value = ";") :
    Near c (t :: ts) (t' :: ts')
  | cons {t t' : Token} {ts ts' : List Token} (ht : c.Like t t') (h : Near c ts ts') :
    Near c (t :: ts) (t' :: ts')

/-- Lists of tokens that are alike in front of `w` and `w'`. -/
inductive Ahead (c : Comparison) (w w' : List Token) : List Token → List Token → Prop
  | stop : Ahead c w w' w w'
  | cons {t t' : Token} {ts ts' : List Token} (ht : c.Like t t') (h : Ahead c w w' ts ts') :
    Ahead c w w' (t :: ts) (t' :: ts')

theorem Ahead.near (h : Ahead c w w' ts ts') (hw : Near c w w') : Near c ts ts' := by
  induction h with
  | stop => exact hw
  | cons ht _ ih => exact .cons ht ih

theorem Ahead.length_add (h : Ahead c w w' ts ts') :
    ts.length + w'.length = ts'.length + w.length := by
  induction h with
  | stop => exact Nat.add_comm _ _
  | cons _ _ ih =>
    rw [List.length_cons, List.length_cons]
    omega

theorem Ahead.length_le (h : Ahead c w w' ts ts') : w.length ≤ ts.length := by
  induction h with
  | stop => exact Nat.le_refl _
  | cons _ _ ih =>
    rw [List.length_cons]
    omega

/-- Where the first list is at its end, so is the second one. -/
theorem Ahead.eq_end (h : Ahead c w w' ts ts') (hts : ts = w) : ts' = w' := by
  cases h with
  | stop => rfl
  | cons _ h =>
    have hle := h.length_le
    rw [← hts, List.length_cons] at hle
    omega

theorem ahead_append (h : List.Forall₂ c.Like us us') :
    Ahead c w w' (us ++ w) (us' ++ w') := by
  induction h with
  | nil => exact .stop
  | cons ht _ ih => exact .cons ht ih

/-- Both lists are at their ends, or they go on with tokens that are alike. -/
theorem Ahead.next (h : Ahead c w w' ts ts') (hw : Near c w w') :
    ts = [] ∧ ts' = [] ∨ ∃ t t' us us', ts = t :: us ∧ ts' = t' :: us' ∧ c.Like t t' ∧
      (w <:+ us → Ahead c w w' us us') := by
  cases h with
  | cons ht h => exact .inr ⟨_, _, _, _, rfl, rfl, ht, fun _ => h⟩
  | stop =>
    have hshort {t : Token} {us : List Token} : ¬ t :: us <:+ us := by
      intro h
      have := h.length_le
      rw [List.length_cons] at this
      omega
    cases hw with
    | nil => exact .inl ⟨rfl, rfl⟩
    | two ht => exact .inr ⟨_, _, _, _, rfl, rfl, ht, fun h => absurd h hshort⟩
    | semicolon ht hv => exact .inr ⟨_, _, _, _, rfl, rfl, ht, fun h => absurd h hshort⟩
    | cons ht h => exact .inr ⟨_, _, _, _, rfl, rfl, ht, fun h => absurd h hshort⟩

/-- Two states with tokens ahead that are alike, the same parameters and the same warnings. -/
structure Alike (c : Comparison) (w w' : List Token) (s s' : ParseState) : Prop where
  ahead : Ahead c w w' s.rest s'.rest
  parameters : s.parameters = s'.parameters
  warnings : List.Forall₂ c.SameWarning s.warnings s'.warnings

/-- The first parser has not read beyond `w`. An error may have come from anywhere. -/
def Within (w : List Token) : EStateM.Result ParseError ParseState α → Prop
  | .ok _ t => w <:+ t.rest
  | .error _ _ => w = []

/-- What a run leaves, it left at every time before. -/
theorem Within.suffix {r : EStateM.Result ParseError ParseState α} (h : Within w r)
    (hr : ∀ a t, r = .ok a t → t.rest <:+ ts) : w <:+ ts := by
  cases r with
  | error e t =>
    have hnil : w = [] := h
    exact hnil ▸ List.nil_suffix
  | ok a t => exact List.IsSuffix.trans h (hr a t rfl)

/-- Two outcomes that are the same as far as the comparison goes. -/
inductive Match (c : Comparison) (w w' : List Token) (V : α → α → Prop) :
    EStateM.Result ParseError ParseState α → EStateM.Result ParseError ParseState α → Prop
  | ok {a a' : α} {t t' : ParseState} (hV : V a a') (h : Alike c w w' t t') :
    Match c w w' V (.ok a t) (.ok a' t')
  | error {e e' : ParseError} {t t' : ParseState} (he : c.SameError e e')
    (h : List.Forall₂ c.SameWarning t.warnings t'.warnings) :
    Match c w w' V (.error e t) (.error e' t')
  | excused {e : ParseError} {t : ParseState} {r : EStateM.Result ParseError ParseState α}
    (he : c.excused e.code) : Match c w w' V (.error e t) r

/-- `q` does what `p` does on tokens that are alike. -/
structure Mirrors (c : Comparison) (V : α → α → Prop) (p q : Parser α) : Prop where
  suffix : ∀ s a t, p s = .ok a t → t.rest <:+ s.rest
  mirror : ∀ w w' s s', Near c w w' → Alike c w w' s s' → Within w (p s) →
    Match c w w' V (p s) (q s')

/-- The relation of values that do not matter. -/
abbrev Any : α → α → Prop := fun _ _ => True

theorem Alike.refl (s : ParseState) : Alike c [] [] s s := by
  refine ⟨?_, rfl, List.forall₂_same.2 fun w _ => ⟨rfl, fun _ => rfl, fun _ _ => rfl⟩⟩
  induction s.rest with
  | nil => exact .stop
  | cons t ts ih => exact .cons (Comparison.Like.refl t) ih

theorem Ahead.eq (h : Ahead c [] [] ts ts') (hv : c.verbatim) (hp : c.placed) : ts = ts' := by
  induction h with
  | stop => rfl
  | cons ht _ ih => rw [ht.eq hv hp, ih]

/-- States that are alike to the end, where neither spellings nor places may differ. -/
theorem Alike.eq {s s' : ParseState} (h : Alike c [] [] s s') (hv : c.verbatim) (hp : c.placed) :
    s = s' := by
  obtain ⟨rest, parameters, warnings⟩ := s
  obtain ⟨rest', parameters', warnings'⟩ := s'
  obtain ⟨hahead, hparameters, hwarnings⟩ := h
  have hrest : rest = rest' := hahead.eq hv hp
  have hwarnings : warnings = warnings' := by
    rw [← List.forall₂_eq_eq_eq]
    exact hwarnings.imp fun _ _ h => h.eq hv hp
  dsimp only at hparameters
  rw [hrest, hparameters, hwarnings]

theorem Match.of_ok {V : α → α → Prop} {a : α} {t : ParseState}
    {r : EStateM.Result ParseError ParseState α} (h : Match c w w' V (.ok a t) r) :
    ∃ a' t', r = .ok a' t' ∧ V a a' ∧ Alike c w w' t t' := by
  cases h with
  | ok hV h => exact ⟨_, _, rfl, hV, h⟩

/-- Up to places all errors are said again. -/
theorem Match.of_error_text {V : α → α → Prop} {e : ParseError} {t : ParseState}
    {r : EStateM.Result ParseError ParseState α} (h : Match .text w w' V (.error e t) r) :
    ∃ e' t', r = .error e' t' ∧ e.Same e' := by
  cases h with
  | error he => exact ⟨_, _, rfl, Comparison.sameError_text_iff.1 he⟩
  | excused he => exact he.elim

/-- What is said of the error of a run holds of a run that ends with the error. -/
theorem Match.of_error {V : α → α → Prop} {U : β → β → Prop} {e : ParseError} {t : ParseState}
    {r : EStateM.Result ParseError ParseState α} {r' : EStateM.Result ParseError ParseState β}
    (h : Match c w w' V (.error e t) r) (hr : ∀ e' t', r = .error e' t' → r' = .error e' t') :
    Match c w w' U (.error e t) r' := by
  cases h with
  | error he h =>
    rw [hr _ _ rfl]
    exact .error he h
  | excused he => exact .excused he

namespace Mirrors

variable {V V' : α → α → Prop} {U : β → β → Prop} {p q p' q' : Parser α} {f g : α → Parser β}

theorem related (h : Mirrors c V p q) {s t : ParseState} {a : α} (hs : p s = .ok a t) :
    ∃ a', V a a' := by
  have hmatch := h.mirror [] [] s s .nil (Alike.refl s)
  rw [hs] at hmatch
  obtain ⟨a', -, -, hV, -⟩ := (hmatch (List.nil_suffix)).of_ok
  exact ⟨a', hV⟩

theorem bind (hp : Mirrors c V p q) (hf : ∀ a a', V a a' → Mirrors c U (f a) (g a')) :
    Mirrors c U (p >>= f) (q >>= g) where
  suffix := by
    intro s b u h
    rw [bind_apply] at h
    cases hps : p s with
    | error e t => simp [hps] at h
    | ok a t =>
      rw [hps] at h
      obtain ⟨a', hV⟩ := hp.related hps
      exact ((hf a a' hV).suffix t b u h).trans (hp.suffix s a t hps)
  mirror := by
    intro w w' s s' hw hs hin
    rw [bind_apply] at hin ⊢
    rw [bind_apply]
    have hmatch := hp.mirror w w' s s' hw hs
    cases hps : p s with
    | error e t =>
      rw [hps] at hmatch hin
      apply (hmatch hin).of_error
      intro e' t' hqs
      rw [hqs]
    | ok a t =>
      rw [hps] at hmatch hin
      obtain ⟨a₀, hV₀⟩ := hp.related hps
      have hin' : w <:+ t.rest := Within.suffix hin ((hf a a₀ hV₀).suffix t)
      obtain ⟨a', t', hqs, hV, ht⟩ := (hmatch hin').of_ok
      rw [hqs]
      exact (hf a a' hV).mirror w w' t t' hw ht hin

/-- Behind a parser whose value is the same. -/
theorem seq (hp : Mirrors c Eq p q) (hf : ∀ a, Mirrors c U (f a) (g a)) :
    Mirrors c U (p >>= f) (q >>= g) :=
  hp.bind fun a _ h => h ▸ hf a

theorem imp (hp : Mirrors c V p q) (h : ∀ a a', V a a' → V' a a') : Mirrors c V' p q where
  suffix := hp.suffix
  mirror := by
    intro w w' s s' hw hs hin
    have hmatch := hp.mirror w w' s s' hw hs hin
    cases hps : p s with
    | error e t =>
      rw [hps] at hmatch
      exact hmatch.of_error fun _ _ hqs => hqs
    | ok a t =>
      rw [hps] at hmatch
      obtain ⟨a', t', hqs, hV, ht⟩ := hmatch.of_ok
      rw [hqs]
      exact .ok (h a a' hV) ht

theorem any (hp : Mirrors c V p q) : Mirrors c Any p q := hp.imp fun _ _ _ => trivial

theorem pure {a a' : α} (h : V a a') : Mirrors c V (pure a) (pure a') where
  suffix := by
    intro s b t hb
    cases hb
    exact List.suffix_refl _
  mirror _ _ _ _ _ hs _ := .ok h hs

theorem fail {e e' : ParseError} (h : c.SameError e e') : Mirrors c V (fail e) (fail e') where
  suffix := by
    intro s a t ha
    cases ha
  mirror _ _ _ _ _ hs _ := .error h hs.warnings

theorem ite {b : Prop} [Decidable b] (h : Mirrors c V p q) (h' : Mirrors c V p' q') :
    Mirrors c V (if b then p else p') (if b then q else q') := by
  split
  · exact h
  · exact h'

theorem ofExcept {r r' : Except ParseError α} (h : SameResult c V r r') :
    Mirrors c V (ofExcept r) (ofExcept r') := by
  cases h with
  | ok h => exact pure h
  | error h => exact fail h
  | excused h =>
    constructor
    · intro s a t ha
      cases ha
    · intro _ _ _ _ _ _ _
      exact .excused h

/-! ### The next tokens -/

theorem look {f : List Token → α} (hf : ∀ ts ts', Near c ts ts' → V (f ts) (f ts')) :
    Mirrors c V (look f) (look f) where
  suffix := by
    intro s a t h
    cases h
    exact List.suffix_refl _
  mirror _ _ _ _ hw hs _ := .ok (hf _ _ (hs.ahead.near hw)) hs

theorem peek : Mirrors c (Option.Rel c.Like) peek peek := by
  apply look
  intro ts ts' h
  cases h with
  | nil => exact .none
  | two ht => exact .some ht
  | semicolon ht => exact .some ht
  | cons ht => exact .some ht

/-- What is read satisfies the test. -/
theorem accept_spec {f : Token → Bool} (hf : ∀ t, f t.plain = f t) :
    Mirrors c (Option.Rel fun t t' => c.Like t t' ∧ f t = true) (accept f) (accept f) where
  suffix s a t h := ((Agree.accept f) s (Nat.le_refl _)).2 a t h
  mirror := by
    intro w w' s s' hw hs hin
    obtain ⟨hahead, hparameters, hwarnings⟩ := hs
    obtain ⟨rest, parameters, warnings⟩ := s
    obtain ⟨rest', parameters', warnings'⟩ := s'
    dsimp only at hahead hparameters
    unfold Parser.accept at hin ⊢
    dsimp only at hin ⊢
    rcases hahead.next hw with ⟨rfl, rfl⟩ | ⟨t, t', us, us', rfl, rfl, ht, hus⟩
    · exact .ok .none ⟨hahead, hparameters, hwarnings⟩
    · dsimp only at hin ⊢
      rw [← ht.congr hf]
      split
      · next hft =>
        rw [if_pos hft] at hin
        exact .ok (.some ⟨ht, hft⟩) ⟨hus hin, hparameters, hwarnings⟩
      · exact .ok .none ⟨hahead, hparameters, hwarnings⟩

theorem accept {f : Token → Bool} (hf : ∀ t, f t.plain = f t) :
    Mirrors c (Option.Rel c.Like) (accept f) (accept f) := by
  apply (accept_spec hf).imp
  rintro _ _ (⟨ht⟩ | -)
  · exact .some ht.1
  · exact .none

/-- The next token, or an error where there is none. -/
theorem current {expected : String} :
    Mirrors c c.Like (current expected) (current expected) := by
  have heq : Parser.current expected =
      Parser.peek >>= fun t => t.elim (Parser.fail (.endOfInput expected)) Pure.pure := by
    funext s
    obtain ⟨rest, parameters, warnings⟩ := s
    cases rest <;> rfl
  rw [heq]
  refine peek.bind fun t t' ht => ?_
  cases ht with
  | some ht => exact pure ht
  | none => exact fail (.refl _)

theorem require_spec {expected : String} {f : Token → Bool} (hf : ∀ t, f t.plain = f t) :
    Mirrors c (fun t t' => c.Like t t' ∧ f t = true) (require expected f)
      (require expected f) := by
  let refuse : Parser Token :=
    Parser.current expected >>= fun t => Parser.fail (.unexpected expected t)
  have heq : Parser.require expected f =
      Parser.accept f >>= fun t => t.elim refuse Pure.pure := by
    funext s
    obtain ⟨rest, parameters, warnings⟩ := s
    cases rest with
    | nil => rfl
    | cons t rest =>
      unfold Parser.require
      rw [bind_apply]
      unfold Parser.accept
      by_cases h : f t = true <;> simp [h] <;> rfl
  rw [heq]
  refine (accept_spec hf).bind fun t t' ht => ?_
  cases ht with
  | some ht => exact pure ht
  | none => exact current.bind fun u u' hu => fail (.unexpected hu)

theorem require {expected : String} {f : Token → Bool} (hf : ∀ t, f t.plain = f t) :
    Mirrors c c.Like (require expected f) (require expected f) :=
  (require_spec hf).imp fun _ _ h => h.1

theorem test_head {f : Token → Bool} (hf : ∀ t, f t.plain = f t) (h : Near c ts ts') :
    ts.head?.any f = ts'.head?.any f := by
  cases h with
  | nil => rfl
  | two ht => exact ht.congr hf
  | semicolon ht => exact ht.congr hf
  | cons ht => exact ht.congr hf

/-- A test of the next token. -/
theorem test {f : Token → Bool} (hf : ∀ t, f t.plain = f t) :
    Mirrors c Eq (Parser.look (·.head?.any f)) (Parser.look (·.head?.any f)) :=
  look fun _ _ h => test_head hf h

/-- What stands behind a token is looked at only where the token is no semicolon. -/
theorem test_cons {f : Token → Bool} {g : List Token → Bool} (hf : ∀ t, f t.plain = f t)
    (hg : ∀ ts ts', Near c ts ts' → g ts = g ts')
    (hnext : ∀ t t' ts ts', c.Like t t' → t.is "." = false → g (t :: ts) = g (t' :: ts'))
    (hend : ∀ t, t.value = ";" → f t = false) (h : Near c ts ts') :
    (ts.head?.any f && g ts.tail) = (ts'.head?.any f && g ts'.tail) := by
  have hfirst := test_head hf h
  rw [← hfirst]
  cases h with
  | nil => rfl
  | two ht hu hpoint => rw [List.tail_cons, List.tail_cons, hnext _ _ _ _ hu hpoint]
  | semicolon ht hv =>
    have hnone := hend _ hv
    simp [hnone]
  | cons ht h => rw [List.tail_cons, List.tail_cons, hg _ _ h]

/-- Two tokens ahead are looked at only where the next one is no semicolon. -/
theorem test_two {f g : Token → Bool} (hf : ∀ t, f t.plain = f t) (hg : ∀ t, g t.plain = g t)
    (hend : ∀ t, t.value = ";" → f t = false) (h : Near c ts ts') :
    (ts[0]?.any f && ts[1]?.any g) = (ts'[0]?.any f && ts'[1]?.any g) := by
  have hcons := test_cons (g := (·.head?.any g)) hf (fun _ _ h => test_head hg h)
    (fun _ _ _ _ hu _ => hu.congr hg) hend h
  simpa only [List.head?_eq_getElem?, List.getElem?_tail] using hcons

/-- A guard that holds may be looked at too. -/
theorem look_guarded {f g : List Token → Bool} {r : Bool → Parser α} {s : ParseState}
    (hf : f s.rest = true) :
    (Parser.look g >>= r) s = (Parser.look (fun ts => f ts && g ts) >>= r) s := by
  have hvalue : (f s.rest && g s.rest) = g s.rest := by rw [hf, Bool.true_and]
  rw [bind_apply, bind_apply]
  change r (g s.rest) s = r (f s.rest && g s.rest) s
  rw [hvalue]

/-- A parser whose next token satisfies `b` may be described apart. -/
theorem peek_cases {f g : Option Token → Parser β} {r r' : Parser β} {b : Token → Bool}
    (hb : ∀ t, b t.plain = b t)
    (hf : ∀ s t, s.rest.head? = some t → b t = true → f (some t) s = r s)
    (hg : ∀ s t, s.rest.head? = some t → b t = true → g (some t) s = r' s)
    (hin : Mirrors c U r r')
    (hout : ∀ t t', Option.Rel c.Like t t' → t.any b = false → Mirrors c U (f t) (g t')) :
    Mirrors c U (Parser.peek >>= f) (Parser.peek >>= g) := by
  have heq {f : Option Token → Parser β} {r : Parser β}
      (hf : ∀ s t, s.rest.head? = some t → b t = true → f (some t) s = r s) :
      (Parser.peek >>= f) = Parser.peek >>= fun t => if t.any b then r else f t := by
    funext s
    rw [bind_apply, bind_apply]
    change f s.rest.head? s = (if s.rest.head?.any b = true then r else f s.rest.head?) s
    cases ht : s.rest.head? with
    | none => rfl
    | some t =>
      by_cases hbt : b t = true
      · rw [hf s t ht hbt, Option.any_some, if_pos hbt]
      · rw [Option.any_some, if_neg hbt]
  rw [heq hf, heq hg]
  refine peek.bind fun t t' ht => ?_
  have hany : t'.any b = t.any b := by
    cases ht with
    | none => rfl
    | some ht => exact (ht.congr hb).symm
  rw [hany]
  split
  · exact hin
  · next h => exact hout t t' ht (by simpa using h)

theorem advance {expected : String} :
    Mirrors c c.Like (advance expected) (advance expected) :=
  require fun _ => rfl

theorem expect {symbol : String} [Letterless symbol] :
    Mirrors c c.Like (expect symbol) (expect symbol) :=
  require fun t => t.is_plain symbol

theorem expectKeyword {k : Keyword} :
    Mirrors c c.Like (expectKeyword k) (expectKeyword k) :=
  require fun t => t.isKeyword_plain k

theorem expectIdentifier {expected : String} :
    Mirrors c c.Like (expectIdentifier expected) (expectIdentifier expected) :=
  require Token.isIdentifier_plain

theorem check {symbol : String} [Letterless symbol] :
    Mirrors c Eq (check symbol) (check symbol) :=
  test fun t => t.is_plain symbol

theorem checkKeyword {k : Keyword} : Mirrors c Eq (checkKeyword k) (checkKeyword k) :=
  test fun t => t.isKeyword_plain k

theorem isSome {o o' : Parser (Option α)} (hp : Mirrors c (Option.Rel V) o o') :
    Mirrors c Eq (return (← o).isSome) (return (← o').isSome) := by
  refine hp.bind fun a a' ha => pure ?_
  cases ha <;> rfl

theorem eat {symbol : String} [Letterless symbol] :
    Mirrors c Eq (eat symbol) (eat symbol) :=
  isSome (accept fun t => t.is_plain symbol)

theorem eatKeyword {k : Keyword} : Mirrors c Eq (eatKeyword k) (eatKeyword k) :=
  isSome (accept fun t => t.isKeyword_plain k)

theorem eatAnyKeyword {ks : List Keyword} :
    Mirrors c Eq (eatAnyKeyword ks) (eatAnyKeyword ks) := by
  have hplain (t : Token) : ks.find? t.plain.isKeyword = ks.find? t.isKeyword := by
    rw [funext t.isKeyword_plain]
  rw [eatAnyKeyword_eq]
  refine (accept fun t => by rw [hplain]).bind fun t t' ht => pure ?_
  cases ht with
  | some ht => exact ht.congr (f := fun t => ks.find? t.isKeyword) hplain
  | none => rfl

theorem expectAnyKeyword {ks : List Keyword} :
    Mirrors c Eq (expectAnyKeyword ks) (expectAnyKeyword ks) := by
  refine current.bind fun t t' ht => eatAnyKeyword.seq fun k => ?_
  cases k with
  | none => exact fail (.unexpected ht)
  | some k => exact pure rfl

theorem warn {code : WarningCode} {message message' : String} {t t' : Token}
    (h : c.SameWarning (.atToken code message t) (.atToken code message' t')) :
    Mirrors c Eq (warn code message t) (warn code message' t') where
  suffix := by
    intro s a u h
    cases h
    exact List.suffix_refl _
  mirror := by
    intro w w' s s' _ hs _
    exact .ok rfl ⟨hs.ahead, hs.parameters, List.rel_append hs.warnings (.cons h .nil)⟩

/-- A bind parameter is spelled the same in every comparison. -/
theorem register {t t' : Token} (ht : c.Like t t') (hp : t.isParameter = true) :
    Mirrors c Eq (register t) (register t') where
  suffix s a u h := ((Agree.register t) s (Nat.le_refl _)).2 a u h
  mirror := by
    intro w w' s s' _ hs _
    unfold Parser.register
    rw [← hs.parameters, ← ht.value (.inr (.inr hp))]
    cases s.parameters.register t.value with
    | error fault => exact .error (.atToken rfl (fun _ => rfl) ht) hs.warnings
    | ok r => exact .ok rfl ⟨hs.ahead, rfl, hs.warnings⟩

/-! ### Groups and loops -/

@[simp] theorem depthBehind_plain (depth : Nat) (t : Token) :
    depthBehind depth t.plain = depthBehind depth t := by
  unfold depthBehind
  rw [t.is_plain, t.is_plain]

theorem ahead_balanced (depth : Nat) (hw : Near c w w') (h : Ahead c w w' ts ts')
    (hsome : ∀ r, balanced depth ts = some r → w <:+ r.2)
    (hnone : balanced depth ts = none → w = []) :
    Option.Rel (fun r r' => Ahead c w w' r.2 r'.2) (balanced depth ts) (balanced depth ts') := by
  induction ts generalizing ts' depth with
  | nil =>
    rcases h.next hw with ⟨-, rfl⟩ | ⟨_, _, _, _, hcons, -⟩
    · exact .none
    · cases hcons
  | cons t ts ih =>
    rcases h.next hw with ⟨hnil, -⟩ | ⟨_, t', _, ts', hcons, rfl, ht, hts⟩
    · cases hnil
    cases hcons
    rw [balanced_cons] at hsome hnone ⊢
    rw [balanced_cons, ← ht.congr (depthBehind_plain depth)]
    cases hd : depthBehind depth t with
    | none =>
      simp only [hd] at hsome
      exact .some (hts (hsome _ rfl))
    | some d =>
      simp only [hd] at hsome hnone ⊢
      have hsome' : ∀ r, balanced d ts = some r → w <:+ r.2 :=
        fun r hr => hsome (t :: r.1, r.2) (by rw [hr]; rfl)
      have hnone' : balanced d ts = none → w = [] := fun hr => hnone (by rw [hr]; rfl)
      have hsuffix : w <:+ ts := by
        cases hb : balanced d ts with
        | none => exact hnone' hb ▸ List.nil_suffix
        | some r => exact (hsome' r hb).trans (suffix_of_balanced hb)
      have hrel := ih d (hts hsuffix) hsome' hnone'
      generalize balanced d ts = b, balanced d ts' = b' at hrel
      cases hrel with
      | none => exact .none
      | some hr => exact .some hr

theorem skipBalanced : Mirrors c Any skipBalanced skipBalanced := by
  refine expect.bind fun _ _ _ => ⟨fun s a t h => ?_, fun w w' s s' hw hs hin => ?_⟩
  · split at h
    · next hb =>
      cases h
      exact suffix_of_balanced hb
    · cases h
  · have hrel := ahead_balanced 0 hw hs.ahead
      (fun r hr => by rw [hr] at hin; exact hin) (fun hr => by rw [hr] at hin; exact hin)
    generalize balanced 0 s.rest = b, balanced 0 s'.rest = b' at hrel
    cases hrel with
    | none => exact .error (.refl _) hs.warnings
    | some hr => exact .ok trivial ⟨hr, hs.parameters, hs.warnings⟩

theorem suffix_loop {f g : α → Parser (Option α)}
    (h : ∀ a a', V a a' → Mirrors c (Option.Rel V) (f a) (g a')) {a a' : α} (ha : V a a')
    (s : ParseState) (b : α) (t : ParseState) (hb : Parser.loop f a s = .ok b t) :
    t.rest <:+ s.rest := by
  have hinvariant := loop_invariant (I := fun a t => (∃ a', V a a') ∧ t.rest <:+ s.rest) (a := a)
    (fun a u v hu hf => ?_) (fun a d u v hu hf => ?_) ⟨⟨a', ha⟩, List.suffix_refl _⟩ hb
  · exact hinvariant.2
  · obtain ⟨⟨a', ha⟩, hsuffix⟩ := hu
    exact ⟨⟨a', ha⟩, ((h a a' ha).suffix u none v hf).trans hsuffix⟩
  · obtain ⟨⟨a', ha⟩, hsuffix⟩ := hu
    obtain ⟨_, hr⟩ := (h a a' ha).related hf
    cases hr with
    | some hd => exact ⟨⟨_, hd⟩, ((h a a' ha).suffix u (some d) v hf).trans hsuffix⟩

/-- Rounds that mirror each other make loops that do. -/
theorem loop {f g : α → Parser (Option α)}
    (h : ∀ a a', V a a' → Mirrors c (Option.Rel V) (f a) (g a')) {a a' : α} (ha : V a a') :
    Mirrors c V (loop f a) (loop g a') where
  suffix := suffix_loop h ha
  mirror := by
    intro w w' s
    induction hn : s.rest.length using Nat.strongRecOn generalizing s a a' with
    | ind n ih =>
      intro s' hw hs hin
      have hmatch := (h a a' ha).mirror w w' s s' hw hs
      have hsuffix := (h a a' ha).suffix s
      rw [Parser.loop] at hin ⊢
      rw [Parser.loop]
      cases hf : f a s with
      | error e t =>
        rw [hf] at hin hmatch
        apply (hmatch hin).of_error
        intro e' t' hg
        rw [hg]
      | ok r t =>
        rw [hf] at hin hmatch
        have hin' : w <:+ t.rest := by
          cases r with
          | none => exact hin
          | some b =>
            dsimp only at hin
            split at hin
            · obtain ⟨r', hr'⟩ := (h a a' ha).related hf
              cases hr' with
              | some hb => exact hin.suffix (suffix_loop h hb t)
            · exact hin
        obtain ⟨r', t', hg, hr, ht⟩ := (hmatch hin').of_ok
        rw [hg]
        have hlength : t'.rest.length < s'.rest.length ↔ t.rest.length < s.rest.length := by
          have := hs.ahead.length_add
          have := ht.ahead.length_add
          omega
        cases hr with
        | none => exact .ok ha ht
        | some hb =>
          dsimp only at hin ⊢
          rw [if_congr hlength rfl rfl]
          split
          · next hlt =>
            rw [if_pos hlt] at hin
            exact ih _ (hn ▸ hlt) hb t rfl t' hw ht hin
          · exact .ok hb ht

theorem separated (h : Mirrors c V p q) :
    Mirrors c (List.Forall₂ V) (separated p) (separated q) := by
  refine h.bind fun a a' ha =>
    loop (fun items items' hitems => eat.seq fun comma => ?_) (.cons ha .nil)
  have hmore {b b'} (hb : V b b') : List.Forall₂ V (items ++ [b]) (items' ++ [b']) :=
    List.rel_append hitems (.cons hb .nil)
  exact .ite (h.bind fun _ _ hb => pure (.some (hmore hb))) (pure .none)

/-! ### Whole runs -/

/-- The results of two runs that are the same as far as the comparison goes. -/
inductive SameRun (c : Comparison) (V : α → α → Prop) :
    Except Failure (α × List Warning) → Except Failure (α × List Warning) → Prop
  | ok {a a' : α} {ws ws' : List Warning} (hV : V a a')
    (h : List.Forall₂ c.SameWarning ws ws') : SameRun c V (.ok (a, ws)) (.ok (a', ws'))
  | error {f f' : Failure} (he : c.SameError f.error f'.error)
    (h : List.Forall₂ c.SameWarning f.warnings f'.warnings) : SameRun c V (.error f) (.error f')

theorem run (h : Mirrors c V p q) (hc : ∀ code, ¬ c.excused code)
    (hts : List.Forall₂ c.Like ts ts') : SameRun c V (p.run ts) (q.run ts') := by
  have hahead : Ahead c [] [] (ts ++ []) (ts' ++ []) := ahead_append hts
  rw [List.append_nil, List.append_nil] at hahead
  have hmatch := h.mirror [] [] { rest := ts } { rest := ts' } .nil ⟨hahead, rfl, .nil⟩
  unfold Parser.run
  cases hp : p { rest := ts } with
  | ok a t =>
    rw [hp] at hmatch
    obtain ⟨a', t', hq, hV, ht⟩ := (hmatch List.nil_suffix).of_ok
    rw [hq]
    exact .ok hV ht.warnings
  | error e t =>
    rw [hp] at hmatch
    have hmatch := hmatch rfl
    generalize q { rest := ts' } = r at hmatch
    cases hmatch with
    | error he hwarnings => exact .error he hwarnings
    | excused he => exact absurd he (hc _)

/-! ### Values and type names -/

theorem isLiteralValue_plain (t : Token) : isLiteralValue t.plain = isLiteralValue t := by
  rw [isLiteralValue, isLiteralValue, Token.isLiteral_plain, funext t.isKeyword_plain]

theorem literalValue : Mirrors c (Option.Rel c.Like) literalValue literalValue :=
  accept isLiteralValue_plain

theorem signedNumber : Mirrors c Eq signedNumber signedNumber := by
  have hnumber (t : Token) : (t.plain.kind == .number) = (t.kind == .number) := rfl
  have hvalue {t t' : Token} (ht : c.Like t t') (hk : (t.kind == .number) = true) :
      t.value = t'.value := by
    apply ht.value
    rw [Token.isLiteral, eq_of_beq hk]
    exact .inr (.inl rfl)
  have hsign (t : Token) : (t.plain.is "+" || t.plain.is "-") = (t.is "+" || t.is "-") := by
    rw [t.is_plain, t.is_plain]
  refine (accept_spec hsign).bind fun sign sign' hs => ?_
  cases hs with
  | @some sign sign' hs =>
    refine (require_spec hnumber).bind fun t t' ht => pure ?_
    have heq : sign.value = sign'.value := by
      rcases Bool.or_eq_true_iff.1 hs.2 with h | h
      · exact hs.1.value_of_is h
      · exact hs.1.value_of_is h
    rw [heq, hvalue ht.1 ht.2]
  | none =>
    refine (accept_spec hnumber).bind fun t t' ht => pure ?_
    cases ht with
    | some ht => exact congrArg some (hvalue ht.1 ht.2)
    | none => rfl

theorem typeSize : Mirrors c Eq typeSize typeSize := by
  refine signedNumber.seq fun number => ?_
  cases number with
  | some number => exact pure rfl
  | none => exact current.bind fun t t' ht => fail (.unexpected ht)

theorem typeSizes : Mirrors c Eq typeSizes typeSizes :=
  eat.seq fun _ => .ite
    (typeSize.seq fun _ => eat.seq fun _ => .ite
      (typeSize.seq fun _ => expect.bind fun _ _ _ => pure rfl)
      (expect.bind fun _ _ _ => pure rfl))
    (pure rfl)

theorem isTypeWord_plain (t : Token) : isTypeWord t.plain = isTypeWord t := by
  rw [isTypeWord, isTypeWord, Token.isIdentifier_plain, funext t.isKeyword_plain]

theorem typeName :
    Mirrors c (Option.Rel fun a a' => c.verbatim → a = a') typeName typeName := by
  refine bind (V := List.Forall₂ c.Spelled) (loop (fun words words' hwords => ?_) .nil)
    fun words words' hwords => ?_
  · refine (accept isTypeWord_plain).bind fun t t' ht => pure ?_
    cases ht with
    | some ht =>
      have hword : c.Spelled _ _ := ⟨ht.lower, fun hv => ht.value (.inl hv)⟩
      exact .some (List.rel_append hwords (.cons hword .nil))
    | none => exact .none
  · have hempty : words'.isEmpty = words.isEmpty := by cases hwords <;> rfl
    rw [hempty]
    refine .ite (pure .none) (typeSizes.seq fun sizes => pure (.some fun hv => ?_))
    have heq : words = words' := by
      rw [← List.forall₂_eq_eq_eq]
      exact hwords.imp fun _ _ h => h.eq hv
    rw [heq]

theorem collation {affinity : Option Affinity} :
    Mirrors c c.Spelled (collation affinity) (collation affinity) := by
  refine expectIdentifier.bind fun t t' ht => ?_
  have hname := ht.unquoted
  have hbuiltin : builtinCollations.any (sameName · t'.unquoted) =
      builtinCollations.any (sameName · t.unquoted) := by
    rw [funext fun name => hname.sameName_left name]
  refine seq ?_ fun _ => seq ?_ fun _ => pure hname
  · unfold warnUnknownCollation
    rw [hbuiltin]
    exact .ite (pure rfl) (warn (.atToken (fun hv => by rw [hname.eq hv]) ht))
  · unfold warnNotText
    split
    · exact pure rfl
    · exact warn (.atToken (fun hv => by rw [hname.eq hv]) ht)
    · exact pure rfl

end Mirrors

end Parser

end SqliteSchema
