import SqliteSchema.Parser.Value

/-!
Parsers that behave alike on short inputs. `Agree n p q` says that `p` and `q` do the same on at
most `n` tokens and put no token back; `AgreeReading n p q` says besides that success costs a
token. With `q` the same as `p` these are statements on progress. A parser that reads a token first
may go on with parsers that agree on one token less.
-/
namespace SqliteSchema.Parser

variable {α β : Type} {n m : Nat}

def Agree (n : Nat) (p q : Parser α) : Prop :=
  ∀ s, s.rest.length ≤ n → p s = q s ∧ ∀ a t, p s = .ok a t → t.rest <:+ s.rest

def AgreeReading (n : Nat) (p q : Parser α) : Prop :=
  ∀ s, s.rest.length ≤ n →
    p s = q s ∧ ∀ a t, p s = .ok a t → t.rest <:+ s.rest ∧ t.rest.length < s.rest.length

theorem AgreeReading.agree {p q : Parser α} (h : AgreeReading n p q) : Agree n p q :=
  fun s hs => ⟨(h s hs).1, fun a t e => ((h s hs).2 a t e).1⟩

theorem Agree.mono {p q : Parser α} (h : Agree n p q) (hm : m ≤ n) : Agree m p q :=
  fun s hs => h s (Nat.le_trans hs hm)

theorem AgreeReading.mono {p q : Parser α} (h : AgreeReading n p q) (hm : m ≤ n) :
    AgreeReading m p q :=
  fun s hs => h s (Nat.le_trans hs hm)

theorem bind_apply (p : Parser α) (f : α → Parser β) (s : ParseState) :
    (p >>= f) s = match p s with
      | .ok a t => f a t
      | .error e t => .error e t := by
  change EStateM.bind p f s = _
  cases h : p s <;> simp [EStateM.bind, h]

theorem Agree.bind {p q : Parser α} {f g : α → Parser β} (h : Agree n p q)
    (hf : ∀ a, Agree n (f a) (g a)) : Agree n (p >>= f) (q >>= g) := by
  intro s hs
  obtain ⟨h₁, h₂⟩ := h s hs
  rw [bind_apply, bind_apply, ← h₁]
  cases hp : p s with
  | error e t => exact ⟨rfl, fun _ _ h => by cases h⟩
  | ok a t =>
    have ht := h₂ a t hp
    obtain ⟨h₃, h₄⟩ := hf a t (Nat.le_trans ht.length_le hs)
    exact ⟨h₃, fun b u hu => (h₄ b u hu).trans ht⟩

theorem Agree.bindReading {p q : Parser α} {f g : α → Parser β} (h : Agree n p q)
    (hf : ∀ a, AgreeReading n (f a) (g a)) : AgreeReading n (p >>= f) (q >>= g) := by
  intro s hs
  obtain ⟨h₁, h₂⟩ := h s hs
  rw [bind_apply, bind_apply, ← h₁]
  cases hp : p s with
  | error e t => exact ⟨rfl, fun _ _ h => by cases h⟩
  | ok a t =>
    have ht := h₂ a t hp
    obtain ⟨h₃, h₄⟩ := hf a t (Nat.le_trans ht.length_le hs)
    refine ⟨h₃, fun b u hu => ?_⟩
    obtain ⟨h₅, h₆⟩ := h₄ b u hu
    exact ⟨h₅.trans ht, Nat.lt_of_lt_of_le h₆ ht.length_le⟩

theorem AgreeReading.bind {p q : Parser α} {f g : α → Parser β} (h : AgreeReading n p q)
    (hf : ∀ a, Agree n (f a) (g a)) : AgreeReading n (p >>= f) (q >>= g) := by
  intro s hs
  obtain ⟨h₁, h₂⟩ := h s hs
  rw [bind_apply, bind_apply, ← h₁]
  cases hp : p s with
  | error e t => exact ⟨rfl, fun _ _ h => by cases h⟩
  | ok a t =>
    obtain ⟨ht, hl⟩ := h₂ a t hp
    obtain ⟨h₃, h₄⟩ := hf a t (Nat.le_trans ht.length_le hs)
    refine ⟨h₃, fun b u hu => ?_⟩
    have hu := h₄ b u hu
    exact ⟨hu.trans ht, Nat.lt_of_le_of_lt hu.length_le hl⟩

/-- Behind the first token there is one token less. -/
theorem AgreeReading.bindShorter {p q : Parser α} {f g : α → Parser β}
    (h : AgreeReading (n + 1) p q) (hf : ∀ a, Agree n (f a) (g a)) :
    AgreeReading (n + 1) (p >>= f) (q >>= g) := by
  intro s hs
  obtain ⟨h₁, h₂⟩ := h s hs
  rw [bind_apply, bind_apply, ← h₁]
  cases hp : p s with
  | error e t => exact ⟨rfl, fun _ _ h => by cases h⟩
  | ok a t =>
    obtain ⟨ht, hl⟩ := h₂ a t hp
    obtain ⟨h₃, h₄⟩ := hf a t (by omega)
    refine ⟨h₃, fun b u hu => ?_⟩
    have hu := h₄ b u hu
    exact ⟨hu.trans ht, Nat.lt_of_le_of_lt hu.length_le hl⟩

theorem Agree.pure (a : α) : Agree n (pure a) (pure a) :=
  fun _ _ => ⟨rfl, fun _ _ h => by cases h; exact List.suffix_refl _⟩

theorem AgreeReading.fail (e : ParseError) : AgreeReading n (fail e : Parser α) (fail e) :=
  fun _ _ => ⟨rfl, fun _ _ h => by cases h⟩

theorem Agree.ofExcept (r : Except ParseError α) :
    Agree n (ofExcept r : Parser α) (ofExcept r) := by
  cases r with
  | error e => exact (AgreeReading.fail e).agree
  | ok a => exact Agree.pure a

theorem Agree.look (f : List Token → α) : Agree n (look f) (look f) :=
  fun _ _ => ⟨rfl, fun _ _ h => by cases h; exact List.suffix_refl _⟩

theorem Agree.current (expected : String) : Agree n (current expected) (current expected) := by
  refine fun s _ => ⟨rfl, fun a t h => ?_⟩
  unfold Parser.current at h
  split at h <;> cases h
  exact List.suffix_refl _

theorem Agree.accept (p : Token → Bool) : Agree n (accept p) (accept p) := by
  refine fun s _ => ⟨rfl, fun a t h => ?_⟩
  unfold Parser.accept at h
  split at h
  · cases h; exact List.suffix_refl _
  · next hs => split at h <;> cases h <;> simp [hs]

theorem AgreeReading.require (expected : String) (p : Token → Bool) :
    AgreeReading n (require expected p) (require expected p) := by
  refine fun s _ => ⟨rfl, fun a t h => ?_⟩
  unfold Parser.require at h
  split at h
  · cases h
  · next hs =>
    split at h
    · cases h; simp [hs]
    · cases h

theorem AgreeReading.advance (expected : String) :
    AgreeReading n (advance expected) (advance expected) := .require _ _

theorem AgreeReading.expect (symbol : String) : AgreeReading n (expect symbol) (expect symbol) :=
  .require _ _

theorem AgreeReading.expectKeyword (k : Keyword) :
    AgreeReading n (expectKeyword k) (expectKeyword k) := .require _ _

theorem AgreeReading.expectIdentifier (expected : String) :
    AgreeReading n (expectIdentifier expected) (expectIdentifier expected) := .require _ _

theorem Agree.eat (symbol : String) : Agree n (eat symbol) (eat symbol) :=
  (Agree.accept _).bind fun _ => .pure _

theorem Agree.eatKeyword (k : Keyword) : Agree n (eatKeyword k) (eatKeyword k) :=
  (Agree.accept _).bind fun _ => .pure _

/-- One of the keywords, by way of what is known about single tokens. -/
theorem eatAnyKeyword_eq (ks : List Keyword) :
    eatAnyKeyword ks = (do
      let token ← accept fun t => (ks.find? t.isKeyword).isSome
      return token.bind fun t => ks.find? t.isKeyword) := by
  funext s
  obtain ⟨ts, ps, ws⟩ := s
  cases ts with
  | nil => rfl
  | cons t ts =>
    rw [bind_apply]
    unfold eatAnyKeyword accept
    cases h : ks.find? t.isKeyword <;> simp [h] <;> rfl

theorem Agree.eatAnyKeyword (ks : List Keyword) :
    Agree n (eatAnyKeyword ks) (eatAnyKeyword ks) := by
  rw [eatAnyKeyword_eq]
  exact (Agree.accept _).bind fun _ => .pure _

theorem Agree.expectAnyKeyword (ks : List Keyword) :
    Agree n (expectAnyKeyword ks) (expectAnyKeyword ks) := by
  refine (Agree.current _).bind fun _ => (Agree.eatAnyKeyword ks).bind fun k => ?_
  cases k with
  | none => exact (AgreeReading.fail _).agree
  | some k => exact .pure k

/-- How many parentheses are open behind the next token, unless it closes the last one. -/
def depthBehind (depth : Nat) (t : Token) : Option Nat :=
  if t.is "(" then some (depth + 1)
  else if t.is ")" then
    match depth with
    | 0 => none
    | depth + 1 => some depth
  else some depth

theorem balanced_cons (depth : Nat) (t : Token) (ts : List Token) :
    balanced depth (t :: ts) = match depthBehind depth t with
      | none => some ([], ts)
      | some d => (balanced d ts).map fun r => (t :: r.1, r.2) := by
  conv => lhs; unfold balanced
  unfold depthBehind
  by_cases hopen : t.is "(" = true
  · rw [if_pos hopen, if_pos hopen]
  · rw [if_neg hopen, if_neg hopen]
    by_cases hclose : t.is ")" = true
    · rw [if_pos hclose, if_pos hclose]
      cases depth <;> rfl
    · rw [if_neg hclose, if_neg hclose]

theorem suffix_of_balanced {depth : Nat} {ts : List Token} {r : List Token × List Token}
    (h : balanced depth ts = some r) : r.2 <:+ ts := by
  induction ts generalizing depth r with
  | nil => cases h
  | cons t ts ih =>
    rw [balanced_cons] at h
    split at h
    · cases h
      exact List.suffix_cons t ts
    · obtain ⟨r', h', rfl⟩ := Option.map_eq_some_iff.1 h
      exact (ih h').trans (List.suffix_cons t ts)

theorem AgreeReading.skipBalanced : AgreeReading n skipBalanced skipBalanced := by
  refine (AgreeReading.expect "(").bind fun _ s _ => ⟨rfl, fun a t h => ?_⟩
  split at h
  · next hb => cases h; exact suffix_of_balanced hb
  · cases h

theorem Agree.warn (code : WarningCode) (message : String) (token : Token) :
    Agree n (warn code message token) (warn code message token) :=
  fun _ _ => ⟨rfl, fun _ _ h => by cases h; exact List.suffix_refl _⟩

theorem Agree.register (token : Token) : Agree n (register token) (register token) := by
  refine fun s _ => ⟨rfl, fun a t h => ?_⟩
  unfold Parser.register at h
  split at h <;> cases h
  exact List.suffix_refl _

theorem Agree.ite {c : Prop} [Decidable c] {p q p' q' : Parser α} (h : Agree n p p')
    (h' : Agree n q q') : Agree n (if c then p else q) (if c then p' else q') := by
  split <;> assumption

theorem AgreeReading.ite {c : Prop} [Decidable c] {p q p' q' : Parser α}
    (h : AgreeReading n p p') (h' : AgreeReading n q q') :
    AgreeReading n (if c then p else q) (if c then p' else q') := by
  split <;> assumption

theorem Agree.loop {f g : α → Parser (Option α)} (h : ∀ a, Agree n (f a) (g a)) (a : α) :
    Agree n (loop f a) (loop g a) := by
  intro s
  induction hk : s.rest.length using Nat.strongRecOn generalizing s a with
  | ind k ih =>
    intro hs
    obtain ⟨h₁, h₂⟩ := h a s (by omega)
    rw [Parser.loop, Parser.loop, ← h₁]
    cases hp : f a s with
    | error e t => exact ⟨rfl, fun _ _ h => by cases h⟩
    | ok b t =>
      have ht := h₂ b t hp
      cases b with
      | none => exact ⟨rfl, fun _ _ h => by cases h; exact ht⟩
      | some b =>
        dsimp only
        split
        · next hl =>
          obtain ⟨h₃, h₄⟩ := ih _ (hk ▸ hl) b t rfl (by omega)
          exact ⟨h₃, fun c u hu => (h₄ c u hu).trans ht⟩
        · exact ⟨rfl, fun _ _ h => by cases h; exact ht⟩

theorem AgreeReading.separated {p q : Parser α} (h : AgreeReading n p q) :
    AgreeReading n (separated p) (separated q) :=
  h.bind fun _ => .loop (fun _ => (Agree.eat _).bind fun _ =>
    .ite (h.agree.bind fun _ => .pure _) (.pure _)) _

theorem Agree.literalValue : Agree n literalValue literalValue := .accept _

theorem Agree.signedNumber : Agree n signedNumber signedNumber := by
  refine (Agree.accept _).bind fun sign => ?_
  cases sign with
  | some sign => exact (AgreeReading.require _ _).agree.bind fun _ => .pure _
  | none => exact (Agree.accept _).bind fun _ => .pure _

theorem Agree.typeSize : Agree n typeSize typeSize := by
  refine Agree.signedNumber.bind fun number => ?_
  cases number with
  | some number => exact .pure _
  | none => exact (Agree.current _).bind fun _ => (AgreeReading.fail _).agree

theorem Agree.typeSizes : Agree n typeSizes typeSizes :=
  (Agree.eat _).bind fun _ => .ite
    (Agree.typeSize.bind fun _ => (Agree.eat _).bind fun _ => .ite
      (Agree.typeSize.bind fun _ => (AgreeReading.expect _).agree.bind fun _ => .pure _)
      ((AgreeReading.expect _).agree.bind fun _ => .pure _))
    (.pure _)

theorem Agree.typeName : Agree n typeName typeName :=
  (Agree.loop (fun _ => (Agree.accept _).bind fun _ => .pure _) _).bind fun _ =>
    .ite (.pure _) (Agree.typeSizes.bind fun _ => .pure _)

theorem AgreeReading.collation (affinity : Option Affinity) :
    AgreeReading n (collation affinity) (collation affinity) := by
  refine (AgreeReading.expectIdentifier _).bind fun token => ?_
  refine (Agree.ite (.pure _) (.warn _ _ _)).bind fun _ => Agree.bind ?_ fun _ => .pure _
  unfold warnNotText
  split
  · exact .pure _
  · exact .warn _ _ _
  · exact .pure _

end SqliteSchema.Parser
