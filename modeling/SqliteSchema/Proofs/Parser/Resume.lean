import SqliteSchema.Proofs.Parser.Mirror

/-!
Runs that are taken up in the middle. What a parser does from the start it does from every state
that it comes to; with this a change in the middle of the tokens can be followed to their end.
-/
namespace SqliteSchema.Parser

variable {α β γ : Type} {f : Parser β} {p : Parser α} {k : α → Parser β}

/-- Where `p` succeeds, `f` goes on with `k`. -/
def Resumes (f : Parser β) (p : Parser α) (k : α → Parser β) : Prop :=
  ∀ s a t, p s = .ok a t → f s = k a t

/-- The first `n` items of a list, each with the comma behind it. -/
def preceding (item : Parser α) : Nat → Parser (List α)
  | 0 => return []
  | n + 1 => do
    let items ← preceding item n
    let last ← item
    let _ ← expect ","
    return items ++ [last]

/-- The first `n` rounds of a loop, none of which is the last one. -/
def rounds (round : α → Parser (Option α)) : Nat → α → Parser α
  | 0, a => return a
  | n + 1, a => do
    match ← round a with
    | some b => rounds round n b
    | none => fail (.endOfInput "another round")

namespace Resumes

theorem refl (p : Parser α) (k : α → Parser β) : Resumes (p >>= k) p k := by
  intro s a t h
  rw [bind_apply, h]

theorem fail {e : ParseError} : Resumes f (fail e) k := by
  intro s a t h
  cases h

theorem bind {q : α → Parser γ} {l : γ → Parser β} (h : Resumes f p k)
    (hk : ∀ a, Resumes (k a) (q a) l) : Resumes f (p >>= q) l := by
  intro s c u hc
  obtain ⟨a, t, ha, hq⟩ := bind_eq_ok hc
  rw [h s a t ha, hk a t c u hq]

/-- What was read before is kept. -/
theorem keep {q : α → Parser γ} {l : α → Parser β} (h : Resumes f p k)
    (hk : ∀ a, Resumes (k a) (q a) fun _ => l a) :
    Resumes f (do let a ← p; let _ ← q a; return a) l := by
  refine h.bind fun a s b u hb => ?_
  obtain ⟨c, t, hc, hend⟩ := bind_eq_ok hb
  cases hend
  exact hk a s c u hc

theorem congr {k' : α → Parser β} (h : Resumes f p k) (hk : ∀ a, k a = k' a) : Resumes f p k' := by
  intro s a t ha
  rw [h s a t ha, hk]

/-- Nothing more is read. -/
theorem done {b : γ} {l : γ → Parser β} (h : f = l b) : Resumes f (pure b) l := by
  intro s a t ha
  cases ha
  rw [h]

theorem left (h : Resumes f p k) (l : β → Parser γ) : Resumes (f >>= l) p fun a => k a >>= l := by
  intro s a t ha
  change (f >>= l) s = (k a >>= l) t
  rw [bind_apply, bind_apply, h s a t ha]

/-- Where `p` comes to some state, the next token is accepted. -/
theorem accept {test : Token → Bool} {expected : String} (k : Option Token → Parser β) :
    Resumes (accept test >>= k) (require expected test) fun t => k (some t) := by
  intro s w t h
  obtain ⟨hrest, hw, ht⟩ := require_eq_ok h
  have haccept : Parser.accept test s = .ok (some w) t := by
    unfold Parser.accept
    rw [hrest, ht]
    exact if_pos hw
  rw [bind_apply, haccept]

/-- A branch that is taken where the next token passes the test. -/
theorem accepted {test : Token → Bool} {expected : String} (f g : Parser β) :
    Resumes (do if ← (return (← Parser.accept test).isSome) then f else g) (require expected test)
      fun _ => f := by
  rw [bind_assoc]
  exact accept _

theorem eat (symbol : String) (f g : Parser β) :
    Resumes (do if ← eat symbol then f else g) (expect symbol) fun _ => f :=
  accepted f g

theorem eatKeyword (k : Keyword) (f g : Parser β) :
    Resumes (do if ← eatKeyword k then f else g) (expectKeyword k) fun _ => f :=
  accepted f g

/-- A branch that is not taken where the next token does not pass the test. -/
theorem accepted_not {test : Token → Bool} (f g : Parser β) {s : ParseState} {w : Token}
    {ts : List Token} (hs : s.rest = w :: ts) (hw : test w = false) :
    (do if ← (return (← Parser.accept test).isSome) then f else g : Parser β) s = g s := by
  have haccept : Parser.accept test s = .ok none s := by
    unfold Parser.accept
    simp only [hs, hw, Bool.false_eq_true, if_false]
  rw [bind_assoc, bind_apply, haccept]
  rfl

/-- Any token is read, and it turns out to pass the test. -/
theorem advance {test : Token → Bool} {expected expected' : String} {f k : Token → Parser β}
    (hk : ∀ w, test w = true → f w = k w) :
    Resumes (Parser.advance expected >>= f) (require expected' test) k := by
  intro s w t h
  obtain ⟨hrest, hw, ht⟩ := require_eq_ok h
  have hadvance : Parser.advance expected s = .ok w t := by
    unfold Parser.advance require
    rw [hrest, ht]
    rfl
  rw [bind_apply, hadvance, ← hk w hw]

/-- A branch that is taken. -/
theorem ite {c : Prop} [Decidable c] {g : Parser β} {e : ParseError} (h : Resumes f p k) :
    Resumes (if c then f else g) (if c then p else Parser.fail e) k := by
  split
  · exact h
  · exact fail

theorem ite_not {c : Prop} [Decidable c] {g : Parser β} {e : ParseError} (h : Resumes f p k) :
    Resumes (if c then g else f) (if c then Parser.fail e else p) k := by
  split
  · exact fail
  · exact h

/-- A loop is taken up in the middle of a round that reads something. -/
theorem round {round : γ → Parser (Option γ)} {c : γ} {q : α → Parser γ}
    (hreads : ∀ d s t, round c s = .ok (some d) t → t.rest.length < s.rest.length)
    (h : Resumes (round c) p fun a => q a >>= fun d => pure (some d)) :
    Resumes (loop round c) p fun a => q a >>= loop round := by
  intro s a t ha
  have hround := h s a t ha
  rw [loop, hround]
  dsimp only at hround ⊢
  rw [bind_apply] at hround
  rw [bind_apply, bind_apply]
  cases hq : q a t with
  | error e u => rfl
  | ok d u =>
    rw [hq] at hround
    exact if_pos (hreads d s u hround)

/-- A loop is taken up behind rounds that read something. -/
theorem rounds {round : α → Parser (Option α)}
    (hreads : ∀ a b s t, round a s = .ok (some b) t → t.rest.length < s.rest.length) (n : Nat)
    (a : α) : Resumes (loop round a) (rounds round n a) (loop round) := by
  induction n generalizing a with
  | zero =>
    intro s b t h
    cases h
    rfl
  | succ n ih =>
    intro s c u h
    obtain ⟨r, t, hr, hu⟩ := bind_eq_ok h
    cases r with
    | none => cases hu
    | some b =>
      rw [loop, hr]
      dsimp only
      rw [if_pos (hreads a b s t hr)]
      exact ih b t c u hu

/-- A list is taken up behind items and commas. -/
theorem preceding {item : Parser α} (hsuffix : ∀ s a t, item s = .ok a t → t.rest <:+ s.rest)
    (n : Nat) : Resumes (separated item) (preceding item n) fun items => item >>= fun last =>
      loop (fun items => do
        if ← Parser.eat "," then return some (items ++ [← item]) else return none)
        (items ++ [last]) := by
  induction n with
  | zero =>
    intro s items t h
    cases h
    rfl
  | succ n ih =>
    refine ih.bind fun items => (refl _ _).bind fun last =>
      (round (q := fun _ => item >>= fun next => pure (items ++ [last] ++ [next])) ?_ ?_).bind
      fun _ => .done ?_
    · intro more s t h
      obtain ⟨comma, u, hcomma, hmore⟩ := bind_eq_ok h
      cases comma with
      | false => cases hmore
      | true =>
        obtain ⟨_, hrest, -, -⟩ := eat_eq_true hcomma
        obtain ⟨next, v, hnext, hend⟩ := bind_eq_ok hmore
        cases hend
        rw [hrest, List.length_cons]
        exact Nat.lt_succ_of_le (hsuffix u next _ hnext).length_le
    · exact (eat "," _ _).congr fun _ => by simp only [bind_assoc, pure_bind]
    · simp only [bind_assoc, pure_bind]

end Resumes

/-- What grows beyond a bound in a loop does so in one of its rounds. -/
theorem exists_round {round : α → Parser (Option α)}
    (hreads : ∀ a b s t, round a s = .ok (some b) t → t.rest.length < s.rest.length) (f : α → Nat)
    {a b : α} {s t : ParseState} {m : Nat} (h : loop round a s = .ok b t) (ha : f a ≤ m)
    (hb : m < f b) :
    ∃ n c d u v, rounds round n a s = .ok c u ∧ round c u = .ok (some d) v ∧
      loop round d v = .ok b t ∧ f c ≤ m ∧ m < f d := by
  induction hn : s.rest.length using Nat.strongRecOn generalizing s a with
  | ind n ih =>
    rw [loop] at h
    cases hround : round a s with
    | error e u => simp [hround] at h
    | ok r u =>
      rw [hround] at h
      cases r with
      | none =>
        cases h
        omega
      | some d =>
        have hlength := hreads a d s u hround
        have hmore : loop round d u = .ok b t := (if_pos hlength).symm.trans h
        by_cases hd : m < f d
        · exact ⟨0, a, d, s, u, rfl, hround, hmore, ha, hd⟩
        · obtain ⟨n, c, e, v, w, hrounds, hnext⟩ :=
            ih _ (hn ▸ hlength) hmore (Nat.le_of_not_lt hd) rfl
          refine ⟨n + 1, c, e, v, w, ?_, hnext⟩
          rw [rounds, bind_apply, hround]
          exact hrounds

namespace Mirrors

variable {c : Comparison} {V : α → α → Prop}

theorem rounds {round round' : α → Parser (Option α)}
    (h : ∀ a a', V a a' → Mirrors c (Option.Rel V) (round a) (round' a')) (n : Nat) {a a' : α}
    (ha : V a a') : Mirrors c V (rounds round n a) (rounds round' n a') := by
  induction n generalizing a a' with
  | zero => exact pure ha
  | succ n ih =>
    refine (h a a' ha).bind fun r r' hr => ?_
    cases hr with
    | none => exact fail (.refl _)
    | some hb => exact ih hb

theorem preceding {item item' : Parser α} (h : Mirrors c V item item') (n : Nat) :
    Mirrors c (List.Forall₂ V) (preceding item n) (preceding item' n) := by
  induction n with
  | zero => exact pure .nil
  | succ n ih =>
    exact ih.bind fun _ _ hitems => h.bind fun _ _ hlast => expect.bind fun _ _ _ =>
      pure (List.rel_append hitems (.cons hlast .nil))

end Mirrors

/-- With other tokens behind the place that it comes to, a parser comes to this place as well. It
looks two tokens ahead at most. -/
theorem Mirrors.moved {c : Comparison} {V : α → α → Prop} {p p' : Parser α} (hp : Mirrors c V p p')
    {s s' t : ParseState} {a : α} {front front' more : List Token} (ha : p s = .ok a t)
    (hs : s.rest = front ++ t.rest) (hs' : s'.rest = front' ++ more)
    (hfront : List.Forall₂ c.Like front front') (hnear : Near c t.rest more)
    (hparameters : s.parameters = s'.parameters)
    (hwarnings : List.Forall₂ c.SameWarning s.warnings s'.warnings) :
    ∃ a' t', p' s' = .ok a' t' ∧ V a a' ∧ t'.rest = more ∧ t.parameters = t'.parameters ∧
      List.Forall₂ c.SameWarning t.warnings t'.warnings := by
  have halike : Alike c t.rest more s s' := by
    refine ⟨?_, hparameters, hwarnings⟩
    rw [hs, hs']
    exact ahead_append hfront
  have hmatch := hp.mirror t.rest more s s' hnear halike
  rw [ha] at hmatch
  obtain ⟨a', t', ha', hV, ht⟩ := (hmatch (List.suffix_refl t.rest)).of_ok
  exact ⟨a', t', ha', hV, ht.ahead.eq_end rfl, ht.parameters, ht.warnings⟩

/-- From states with tokens that are alike to the end. -/
theorem Mirrors.of_ok {c : Comparison} {V : α → α → Prop} {p p' : Parser α} (hp : Mirrors c V p p')
    {s s' t : ParseState} {a : α} (ha : p s = .ok a t)
    (hrest : List.Forall₂ c.Like s.rest s'.rest) (hparameters : s.parameters = s'.parameters)
    (hwarnings : List.Forall₂ c.SameWarning s.warnings s'.warnings) :
    ∃ a' t', p' s' = .ok a' t' ∧ V a a' ∧ List.Forall₂ c.SameWarning t.warnings t'.warnings := by
  have hahead : Ahead c [] [] (s.rest ++ []) (s'.rest ++ []) := ahead_append hrest
  rw [List.append_nil, List.append_nil] at hahead
  have hmatch := hp.mirror [] [] s s' .nil ⟨hahead, hparameters, hwarnings⟩
  rw [ha] at hmatch
  obtain ⟨a', t', ha', hV, ht⟩ := (hmatch List.nil_suffix).of_ok
  exact ⟨a', t', ha', hV, ht.warnings⟩

end SqliteSchema.Parser
