import Mathlib.Data.List.Forall2
import SqliteSchema.Parser.Agree

/-!
What parsers return. Only runs that succeed are looked at; the places of tokens and the warnings
do not count.
-/
namespace SqliteSchema

theorem List.exists_append_of_forall₂ {α : Type} {R : α → α → Prop} {xs ys zs : List α}
    (h : List.Forall₂ R (xs ++ ys) zs) :
    ∃ us vs, zs = us ++ vs ∧ List.Forall₂ R xs us ∧ List.Forall₂ R ys vs := by
  refine ⟨zs.take xs.length, zs.drop xs.length, (List.take_append_drop _ _).symm, ?_, ?_⟩
  · simpa using List.forall₂_take xs.length h
  · simpa using List.forall₂_drop xs.length h

namespace Parser

variable {α β : Type} {p : Parser α} {P : α → Prop} {Q : β → Prop}

theorem bind_eq_ok {f : α → Parser β} {s u : ParseState} {b : β} (h : (p >>= f) s = .ok b u) :
    ∃ a t, p s = .ok a t ∧ f a t = .ok b u := by
  rw [bind_apply] at h
  split at h
  · next a t ha => exact ⟨a, t, ha, h⟩
  · cases h

theorem require_eq_ok {expected : String} {q : Token → Bool} {token : Token} {s t : ParseState}
    (h : require expected q s = .ok token t) :
    s.rest = token :: t.rest ∧ q token = true ∧ t = { s with rest := t.rest } := by
  unfold require at h
  split at h
  · cases h
  · next hs =>
    split at h
    · next hq =>
      cases h
      exact ⟨hs, hq, rfl⟩
    · cases h

theorem accept_eq_some {test : Token → Bool} {s t : ParseState} {w : Token}
    (h : accept test s = .ok (some w) t) :
    s.rest = w :: t.rest ∧ test w = true ∧ t = { s with rest := t.rest } := by
  unfold accept at h
  split at h
  · cases h
  · next hs =>
    split at h
    · next hw =>
      cases h
      exact ⟨hs, hw, rfl⟩
    · cases h

theorem accept_eq_none {test : Token → Bool} {s t : ParseState}
    (h : accept test s = .ok none t) : t = s := by
  unfold accept at h
  split at h
  · cases h
    rfl
  · split at h
    · cases h
    · cases h
      rfl

/-- Whether a token was accepted. -/
theorem accepted_eq_ok {test : Token → Bool} {s t : ParseState} {b : Bool}
    (h : (do return (← accept test).isSome : Parser Bool) s = .ok b t) :
    cond b (∃ w, s.rest = w :: t.rest ∧ test w = true ∧ t = { s with rest := t.rest }) (t = s) := by
  obtain ⟨r, u, hr, hu⟩ := bind_eq_ok h
  cases r with
  | none =>
    cases hu
    exact accept_eq_none hr
  | some w =>
    cases hu
    exact ⟨w, accept_eq_some hr⟩

theorem eat_eq_true {symbol : String} {s t : ParseState} (h : eat symbol s = .ok true t) :
    ∃ w, s.rest = w :: t.rest ∧ w.is symbol = true ∧ t = { s with rest := t.rest } :=
  accepted_eq_ok h

theorem eat_eq_false {symbol : String} {s t : ParseState} (h : eat symbol s = .ok false t) :
    t = s :=
  accepted_eq_ok h

theorem eatKeyword_eq_true {k : Keyword} {s t : ParseState} (h : eatKeyword k s = .ok true t) :
    ∃ w, s.rest = w :: t.rest ∧ w.isKeyword k = true ∧ t = { s with rest := t.rest } :=
  accepted_eq_ok h

theorem eatKeyword_eq_false {k : Keyword} {s t : ParseState}
    (h : eatKeyword k s = .ok false t) : t = s :=
  accepted_eq_ok h

theorem current_eq_ok {expected : String} {s t : ParseState} {w : Token}
    (h : current expected s = .ok w t) : t = s ∧ s.rest.head? = some w := by
  unfold current at h
  split at h
  · cases h
  · next hs =>
    cases h
    exact ⟨rfl, by rw [hs, List.head?_cons]⟩

theorem run_eq_ok {ts : List Token} {a : α} {ws : List Warning} (h : p.run ts = .ok (a, ws)) :
    ∃ t, p { rest := ts } = .ok a t ∧ t.warnings = ws := by
  unfold Parser.run at h
  split at h
  · next t ht =>
    cases h
    exact ⟨t, ht, rfl⟩
  · cases h

/-- What a run returns and leaves, if it succeeds. -/
def success? : EStateM.Result ParseError ParseState α → Option (α × ParseState)
  | .ok a t => some (a, t)
  | .error _ _ => none

theorem eq_ok_of_success? {r : EStateM.Result ParseError ParseState α} {a : α} {t : ParseState}
    (h : success? r = some (a, t)) : r = .ok a t := by
  cases r with
  | ok =>
    cases h
    rfl
  | error => cases h

theorem eq_error_of_success? {r : EStateM.Result ParseError ParseState α}
    (h : success? r = none) : ∃ e t, r = .error e t := by
  cases r with
  | ok => cases h
  | error e t => exact ⟨e, t, rfl⟩

/-- Every value that the parser returns satisfies `P`. -/
def Ensures (p : Parser α) (P : α → Prop) : Prop := ∀ s a t, p s = .ok a t → P a

theorem Ensures.bind {f : α → Parser β} (hp : Ensures p P) (hf : ∀ a, P a → Ensures (f a) Q) :
    Ensures (p >>= f) Q := by
  intro s b u h
  obtain ⟨a, t, ha, hb⟩ := bind_eq_ok h
  exact hf a (hp s a t ha) t b u hb

/-- What the first parser returns need not be known. -/
theorem Ensures.after {f : α → Parser β} (hf : ∀ a, Ensures (f a) Q) : Ensures (p >>= f) Q := by
  have hp : Ensures p fun _ => True := fun _ _ _ _ => trivial
  exact hp.bind fun a _ => hf a

theorem Ensures.pure {a : α} (h : P a) : Ensures (pure a) P := by
  intro s b t hb
  cases hb
  exact h

theorem Ensures.fail {e : ParseError} : Ensures (fail e) P := by
  intro s a t h
  cases h

theorem Ensures.imp {P' : α → Prop} (hp : Ensures p P) (h : ∀ a, P a → P' a) : Ensures p P' :=
  fun s a t ha => h a (hp s a t ha)

theorem Ensures.ite {c : Prop} [Decidable c] {q : Parser α} (hp : c → Ensures p P)
    (hq : ¬ c → Ensures q P) : Ensures (if c then p else q) P := by
  split
  · next h => exact hp h
  · next h => exact hq h

theorem Ensures.ofExcept {r : Except ParseError α} : Ensures (ofExcept r) (r = .ok ·) := by
  intro s a t h
  cases r with
  | error e => cases h
  | ok b =>
    cases h
    rfl

/-- What every round keeps, between the value and the state that it starts from and those that it
ends with, the loop keeps. -/
theorem loop_invariant {round : α → Parser (Option α)} {I : α → ParseState → Prop}
    (hstop : ∀ a s t, I a s → round a s = .ok none t → I a t)
    (hnext : ∀ a b s t, I a s → round a s = .ok (some b) t → I b t) {a b : α} {s t : ParseState}
    (ha : I a s) (h : loop round a s = .ok b t) : I b t := by
  induction hn : s.rest.length using Nat.strongRecOn generalizing s a with
  | ind n ih =>
    rw [Parser.loop] at h
    cases hs : round a s with
    | error e u => simp [hs] at h
    | ok r u =>
      rw [hs] at h
      cases r with
      | none =>
        cases h
        exact hstop _ _ _ ha hs
      | some c =>
        have hc := hnext a c s u ha hs
        dsimp only at h
        split at h
        · next hl => exact ih _ (hn ▸ hl) hc h rfl
        · cases h
          exact hc

/-- An invariant of the rounds holds of what the loop returns. -/
theorem Ensures.loop {round : α → Parser (Option α)}
    (hr : ∀ a, P a → Ensures (round a) fun r => ∀ b, r = some b → P b) {a : α} (ha : P a) :
    Ensures (loop round a) P := by
  intro s b t h
  refine loop_invariant (I := fun a _ => P a) (fun a s u ha _ => ha) (fun a c s u ha hs => ?_) ha h
  exact hr a ha s (some c) u hs c rfl

end Parser

end SqliteSchema
