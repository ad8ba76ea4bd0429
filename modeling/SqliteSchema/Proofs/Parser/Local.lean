import SqliteSchema.Proofs.Parser.Ensures

/-!
What stands behind the tokens that a parser reads. `Local v v' B p` says that a run of `p` which
stops somewhere in front of `v` can be moved in front of `v'`: on the same tokens, with `v'` behind
them, `p` comes to the same. Where it stops right in front of `v` this is only said if `B` holds,
so that `Local v v' False p` is about runs that stop earlier. Such runs look at `v` only where they
look two tokens ahead.
-/
namespace SqliteSchema.Parser

variable {α β : Type}

structure Local (v v' : List Token) (B : Prop) (p : Parser α) : Prop where
  keeps : ∀ n, Agree n p p
  moves : ∀ {ps ps' : Parameters} {ws ws' : List Warning} {a : α} (us us' : List Token),
    (us' = [] → B) → p ⟨us ++ v, ps, ws⟩ = .ok a ⟨us' ++ v, ps', ws'⟩ →
    p ⟨us ++ v', ps, ws⟩ = .ok a ⟨us' ++ v', ps', ws'⟩

/-- The parser reads at least one token, so that it never starts right in front of `v`. -/
structure LocalReading (v v' : List Token) (B : Prop) (p : Parser α) : Prop
    extends Local v v' B p where
  reads : ∀ n, AgreeReading n p p

/-- The next token, if there is one, is not one of these. -/
def Misses (test : Token → Bool) (w : List Token) : Prop := w.head?.any test = false

theorem misses_nil {test : Token → Bool} : Misses test [] := rfl

theorem Misses.imp {test test' : Token → Bool} {w : List Token} (hw : Misses test w)
    (h : ∀ t, test' t = true → test t = true) : Misses test' w := by
  cases w with
  | nil => rfl
  | cons t w => exact Bool.eq_false_iff.2 fun ht => Bool.eq_false_iff.1 hw (h t ht)

theorem misses_of_eatKeyword {k : Keyword} {s t : ParseState}
    (h : eatKeyword k s = .ok false t) : Misses (·.isKeyword k) s.rest := by
  obtain ⟨_ | ⟨w, rest⟩, ps, ws⟩ := s
  · rfl
  · refine Bool.eq_false_iff.2 fun hw => ?_
    have haccept : accept (·.isKeyword k) ⟨w :: rest, ps, ws⟩ = .ok (some w) ⟨rest, ps, ws⟩ :=
      if_pos hw
    rw [eatKeyword, bind_apply, haccept] at h
    cases h

variable {v v' w us us' : List Token} {B C : Prop} {p q : Parser α} {f : α → Parser β}
  {expected : String}

/-! ### Where a run is -/

theorem Agree.suffix (h : ∀ n, Agree n p p) {s t : ParseState} {a : α} (ha : p s = .ok a t) :
    t.rest <:+ s.rest :=
  (h s.rest.length s (Nat.le_refl _)).2 a t ha

/-- Between two places in front of `v` all places are in front of `v`. -/
theorem exists_front {ts : List Token} (h : us' ++ v <:+ ts) (h' : ts <:+ us ++ v) :
    ∃ xs, ts = xs ++ v ∧ (xs = [] → us' = []) := by
  obtain ⟨ys, rfl⟩ := h
  refine ⟨ys ++ us', (List.append_assoc _ _ _).symm, fun hnil => ?_⟩
  exact (List.append_eq_nil_iff.1 hnil).2

/-- A parser that reads a token does not start right in front of `v`. -/
theorem ne_nil_of_reading (h : ∀ n, AgreeReading n p p) {ps ps' : Parameters}
    {ws ws' : List Warning} {a : α}
    (hp : p ⟨us ++ v, ps, ws⟩ = .ok a ⟨us' ++ v, ps', ws'⟩) : us ≠ [] := by
  rintro rfl
  have hlt := ((h _ _ (Nat.le_refl _)).2 a _ hp).2
  simp only [List.nil_append, List.length_append] at hlt
  omega

/-- Where no token is left in front of `v` a run that stops there has read nothing. -/
theorem eq_nil_of_suffix (h : us' ++ v <:+ v) : us' = [] := by
  have hle := h.length_le
  rw [List.length_append] at hle
  exact List.length_eq_zero_iff.1 (by omega)

namespace Local

theorem imp (hp : Local v v' B p) (h : C → B) : Local v v' C p where
  keeps := hp.keeps
  moves us us' hstop := hp.moves us us' fun hnil => h (hstop hnil)

/-- What reads all tokens there are reads as many where others follow. -/
theorem append (hp : Local [] w True p) {ps ps' : Parameters} {ws ws' : List Warning} {a : α}
    (h : p ⟨us, ps, ws⟩ = .ok a ⟨[], ps', ws'⟩) :
    p ⟨us ++ w, ps, ws⟩ = .ok a ⟨w, ps', ws'⟩ :=
  hp.moves us [] (fun _ => trivial) (by rwa [List.append_nil])

theorem bind (hp : Local v v' B p) (hf : ∀ a, Local v v' B (f a)) :
    Local v v' B (p >>= f) where
  keeps n := (hp.keeps n).bind fun a => (hf a).keeps n
  moves us us' hstop h := by
    obtain ⟨a, ⟨rest, ps, ws⟩, ha, hb⟩ := bind_eq_ok h
    obtain ⟨xs, rfl, hxs⟩ := exists_front (Agree.suffix (hf a).keeps hb)
      (Agree.suffix hp.keeps ha)
    rw [bind_apply, hp.moves _ _ (fun hnil => hstop (hxs hnil)) ha]
    exact (hf a).moves _ _ hstop hb

/-- What stands in front of a parser that reads a token stops earlier. -/
theorem before (hp : Local v v' False p) (hf : ∀ a, LocalReading v v' B (f a)) :
    LocalReading v v' B (p >>= f) where
  keeps n := (hp.keeps n).bind fun a => (hf a).keeps n
  reads n := (hp.keeps n).bindReading fun a => (hf a).reads n
  moves us us' hstop h := by
    obtain ⟨a, ⟨rest, ps, ws⟩, ha, hb⟩ := bind_eq_ok h
    obtain ⟨xs, rfl, -⟩ := exists_front (Agree.suffix (hf a).keeps hb)
      (Agree.suffix hp.keeps ha)
    rw [bind_apply, hp.moves _ _ (ne_nil_of_reading (hf a).reads hb) ha]
    exact (hf a).moves _ _ hstop hb

theorem ite {c : Prop} [Decidable c] (hp : Local v v' B p) (hq : Local v v' B q) :
    Local v v' B (if c then p else q) := by
  split
  · exact hp
  · exact hq

/-- A parser that does not look at the tokens ahead. -/
theorem blind (h : ∀ {s : ParseState} {a : α} {t : ParseState}, p s = .ok a t →
      t.rest = s.rest ∧ ∀ rest, p { s with rest := rest } = .ok a { t with rest := rest }) :
    Local v v' B p where
  keeps _ _ _ := ⟨rfl, fun _ _ ha => (h ha).1 ▸ List.suffix_refl _⟩
  moves _ _ _ ha := by
    obtain ⟨hrest, hmove⟩ := h ha
    cases List.append_cancel_right hrest
    exact hmove _

theorem pure (a : α) : Local v v' B (pure a) := by
  refine blind fun h => ?_
  cases h
  exact ⟨rfl, fun _ => rfl⟩

theorem fail (e : ParseError) : Local v v' B (fail e : Parser α) :=
  blind fun h => by cases h

theorem ofExcept (r : Except ParseError α) : Local v v' B (ofExcept r : Parser α) := by
  cases r with
  | error e => exact fail e
  | ok a => exact pure a

theorem warn (code : WarningCode) (message : String) (token : Token) :
    Local v v' B (warn code message token) := by
  refine blind fun h => ?_
  cases h
  exact ⟨rfl, fun _ => rfl⟩

theorem register (token : Token) : Local v v' B (register token) := by
  refine blind fun {s a t} h => ?_
  unfold Parser.register at h ⊢
  split at h
  · next hn =>
    cases h
    exact ⟨rfl, fun _ => by simp only [hn]⟩
  · cases h

theorem look {f : List Token → α} (h : ∀ us, (us = [] → B) → f (us ++ v) = f (us ++ v')) :
    Local v v' B (look f) where
  keeps _ := .look f
  moves us us' hstop ha := by
    obtain ⟨hvalue, hstate⟩ := EStateM.Result.ok.inj ha
    cases List.append_cancel_right (congrArg ParseState.rest hstate)
    cases hstate
    rw [Parser.look, ← h us hstop, hvalue]

theorem looks {test : Token → Bool} (h : B → Misses test v ∧ Misses test v') :
    Local v v' B (Parser.look (·.head?.any test)) := by
  refine look fun us hus => ?_
  cases us with
  | nil =>
    obtain ⟨hv, hv'⟩ := h (hus rfl)
    exact hv.trans hv'.symm
  | cons t us => rfl

/-- A next token that is only looked at decides how the parser goes on. -/
theorem peekThen {f : Option Token → Parser β} (hkeeps : ∀ n, Agree n (peek >>= f) (peek >>= f))
    {b : β} (hcons : ∀ t, ∃ r, Local v v' B r ∧ ∀ s, s.rest.head? = some t → f (some t) s = r s)
    (hnil : B → ∀ s, s.rest = v ∨ s.rest = v' → (peek >>= f) s = .ok b s) :
    Local v v' B (peek >>= f) where
  keeps := hkeeps
  moves us us' hstop h := by
    cases us with
    | nil =>
      have hend : us' = [] := eq_nil_of_suffix (Agree.suffix hkeeps h)
      subst hend
      have hstay := hnil (hstop rfl)
      rw [hstay _ (.inl rfl)] at h
      cases h
      exact hstay _ (.inr rfl)
    | cons t us =>
      have hpeek (s : ParseState) : (peek >>= f) s = f s.rest.head? s := rfl
      obtain ⟨r, hr, heq⟩ := hcons t
      rw [hpeek] at h ⊢
      dsimp only [List.cons_append, List.head?_cons] at h ⊢
      rw [heq _ rfl] at h ⊢
      exact hr.moves (t :: us) us' hstop h

/-- A parser that looks at the next token only, and reads it or not. -/
theorem ofHead (hkeeps : ∀ n, Agree n p p)
    (hcons : ∀ {t : Token} {ts : List Token} {ps : Parameters} {ws : List Warning} {a : α}
      {u : ParseState}, p ⟨t :: ts, ps, ws⟩ = .ok a u →
      ∃ kept, u.rest = kept ++ ts ∧
        ∀ ts', p ⟨t :: ts', ps, ws⟩ = .ok a { u with rest := kept ++ ts' })
    (hnil : B → ∀ {ps ps' : Parameters} {ws ws' : List Warning} {a : α},
      p ⟨v, ps, ws⟩ = .ok a ⟨v, ps', ws'⟩ → p ⟨v', ps, ws⟩ = .ok a ⟨v', ps', ws'⟩) :
    Local v v' B p where
  keeps := hkeeps
  moves us us' hstop h := by
    cases us with
    | nil =>
      have hend : us' = [] := eq_nil_of_suffix (Agree.suffix hkeeps h)
      subst hend
      exact hnil (hstop rfl) h
    | cons t us =>
      obtain ⟨kept, hrest, hmove⟩ := hcons h
      have hfront : us' ++ v = (kept ++ us) ++ v := by rw [List.append_assoc]; exact hrest
      rw [List.append_cancel_right hfront, List.append_assoc]
      exact hmove _

theorem current : Local v v' False (current expected) := by
  refine ofHead (fun _ => .current expected) (fun {t _ _ _ _ _} h => ?_) nofun
  cases h
  exact ⟨[t], rfl, fun _ => rfl⟩

theorem accept {test : Token → Bool} (h : B → Misses test v ∧ Misses test v') :
    Local v v' B (accept test) := by
  have hmissed {w : List Token} (hw : Misses test w) (ps : Parameters) (ws : List Warning) :
      Parser.accept test ⟨w, ps, ws⟩ = .ok none ⟨w, ps, ws⟩ := by
    cases w with
    | nil => rfl
    | cons t w => exact if_neg (Bool.eq_false_iff.1 hw)
  refine ofHead (fun _ => .accept test) (fun {t ts ps ws a u} ha => ?_)
    fun hB {ps ps' ws ws' a} ha => ?_
  · unfold Parser.accept at ha ⊢
    dsimp only at ha
    split at ha
    · next ht =>
      cases ha
      exact ⟨[], rfl, fun _ => if_pos ht⟩
    · next ht =>
      cases ha
      exact ⟨[t], rfl, fun _ => if_neg ht⟩
  · rw [hmissed (h hB).1] at ha
    cases ha
    exact hmissed (h hB).2 ps ws

theorem eat {symbol : String} (h : B → Misses (·.is symbol) v ∧ Misses (·.is symbol) v') :
    Local v v' B (eat symbol) :=
  (accept h).bind fun _ => .pure _

theorem eatKeyword {k : Keyword}
    (h : B → Misses (·.isKeyword k) v ∧ Misses (·.isKeyword k) v') :
    Local v v' B (eatKeyword k) :=
  (accept h).bind fun _ => .pure _

theorem eatAnyKeyword {ks : List Keyword}
    (h : B → Misses (ks.any ·.isKeyword) v ∧ Misses (ks.any ·.isKeyword) v') :
    Local v v' B (eatAnyKeyword ks) := by
  have hany : (fun t : Token => ks.any t.isKeyword) = fun t => (ks.find? t.isKeyword).isSome := by
    funext t
    exact List.isSome_find?.symm
  rw [hany] at h
  rw [eatAnyKeyword_eq]
  exact (accept h).bind fun _ => .pure _

theorem loop {round : α → Parser (Option α)} (h : ∀ a, Local v v' B (round a)) (a : α) :
    Local v v' B (loop round a) where
  keeps n := .loop (fun a => (h a).keeps n) a
  moves {ps ps' ws ws' b} us us' hstop hb := by
    induction hn : us.length using Nat.strongRecOn generalizing a us ps ws with
    | ind n ih =>
      rw [Parser.loop] at hb ⊢
      cases hround : round a ⟨us ++ v, ps, ws⟩ with
      | error e u => simp [hround] at hb
      | ok r u =>
        rw [hround] at hb
        cases r with
        | none =>
          cases hb
          rw [(h _).moves _ _ hstop hround]
        | some c =>
          obtain ⟨rest, qs, xs⟩ := u
          dsimp only at hb
          have hloop : us' ++ v <:+ rest := by
            split at hb
            · exact Agree.suffix (fun n => .loop (fun a => (h a).keeps n) c) hb
            · cases hb
              exact List.suffix_refl _
          obtain ⟨ys, rfl, hys⟩ := exists_front hloop (Agree.suffix (h a).keeps hround)
          rw [(h a).moves _ _ (fun hnil => hstop (hys hnil)) hround]
          -- In front of `v'` a round reads as many tokens as in front of `v`.
          simp only [List.length_append, Nat.add_lt_add_iff_right] at hb ⊢
          split at hb
          · next hlt =>
            rw [if_pos hlt]
            exact ih _ (hn ▸ hlt) c ys hb rfl
          · next hlt =>
            obtain ⟨rfl, hstate⟩ := EStateM.Result.ok.inj hb
            cases List.append_cancel_right (congrArg ParseState.rest hstate)
            cases hstate
            exact if_neg hlt

end Local

theorem expectAnyKeyword_cons (ks : List Keyword) (t : Token) (ts : List Token) (ps : Parameters)
    (ws : List Warning) :
    expectAnyKeyword ks ⟨t :: ts, ps, ws⟩ =
      match ks.find? t.isKeyword with
      | some k => .ok k ⟨ts, ps, ws⟩
      | none =>
        .error (.unexpected (" or ".intercalate (ks.map Keyword.display)) t) ⟨t :: ts, ps, ws⟩ := by
  unfold expectAnyKeyword
  rw [bind_apply]
  dsimp only [current]
  rw [bind_apply]
  unfold eatAnyKeyword
  dsimp only
  cases hk : ks.find? t.isKeyword <;> rfl

theorem length_lt_of_balanced {depth : Nat} {ts : List Token} {r : List Token × List Token}
    (h : balanced depth ts = some r) : r.2.length < ts.length := by
  cases ts with
  | nil => cases h
  | cons t ts =>
    rw [balanced_cons] at h
    split at h
    · cases h
      exact Nat.lt_succ_self _
    · obtain ⟨r', h', rfl⟩ := Option.map_eq_some_iff.1 h
      exact Nat.lt_succ_of_le (suffix_of_balanced h').length_le

/-- A group that closes in front of `v` is found whatever stands there. -/
theorem balanced_append {depth : Nat} {inside : List Token}
    (h : balanced depth (us ++ v) = some (inside, us' ++ v)) :
    balanced depth (us ++ v') = some (inside, us' ++ v') := by
  induction us generalizing depth inside with
  | nil =>
    have hlt := length_lt_of_balanced h
    simp only [List.nil_append, List.length_append] at hlt
    omega
  | cons t us ih =>
    rw [List.cons_append, balanced_cons] at h ⊢
    split at h
    · obtain ⟨rfl, hrest⟩ := Prod.mk.inj (Option.some.inj h)
      rw [List.append_cancel_right hrest]
    · obtain ⟨⟨ts, rest⟩, hts, heq⟩ := Option.map_eq_some_iff.1 h
      cases heq
      rw [ih hts]
      rfl

namespace LocalReading

theorem imp (hp : LocalReading v v' B p) (h : C → B) : LocalReading v v' C p where
  toLocal := hp.toLocal.imp h
  reads := hp.reads

theorem bind (hp : LocalReading v v' B p) (hf : ∀ a, Local v v' B (f a)) :
    LocalReading v v' B (p >>= f) where
  toLocal := hp.toLocal.bind hf
  reads n := (hp.reads n).bind fun a => (hf a).keeps n

theorem ite {c : Prop} [Decidable c] (hp : LocalReading v v' B p) (hq : LocalReading v v' B q) :
    LocalReading v v' B (if c then p else q) := by
  split
  · exact hp
  · exact hq

theorem fail (e : ParseError) : LocalReading v v' B (fail e : Parser α) where
  toLocal := .fail e
  reads _ := .fail e

/-- A parser that reads the next token and looks at no other one. -/
theorem ofHead (h : ∀ {s : ParseState} {a : α} {u : ParseState}, p s = .ok a u →
      ∃ t, s.rest = t :: u.rest ∧
        ∀ ts, p { s with rest := t :: ts } = .ok a { u with rest := ts }) :
    LocalReading v v' B p := by
  have hreads (n : Nat) : AgreeReading n p p := by
    refine fun s _ => ⟨rfl, fun a u ha => ?_⟩
    obtain ⟨t, hs, -⟩ := h ha
    simp [hs]
  refine ⟨.ofHead (fun n => (hreads n).agree) (fun ha => ?_) fun _ _ _ _ _ _ ha => ?_, hreads⟩
  · obtain ⟨w, hs, hmove⟩ := h ha
    cases hs
    exact ⟨[], rfl, hmove⟩
  · exact absurd ((hreads _ _ (Nat.le_refl _)).2 _ _ ha).2 (Nat.lt_irrefl _)

theorem require {test : Token → Bool} : LocalReading v v' B (require expected test) := by
  refine ofHead fun {s a u} h => ?_
  obtain ⟨hs, ha, hu⟩ := require_eq_ok h
  refine ⟨a, hs, fun ts => ?_⟩
  rw [hu]
  exact if_pos ha

theorem advance : LocalReading v v' B (advance expected) := require

theorem expect {symbol : String} : LocalReading v v' B (expect symbol) := require

theorem expectKeyword {k : Keyword} : LocalReading v v' B (expectKeyword k) := require

theorem expectIdentifier : LocalReading v v' B (expectIdentifier expected) := require

theorem expectAnyKeyword {ks : List Keyword} : LocalReading v v' B (expectAnyKeyword ks) := by
  refine ofHead fun {s a u} h => ?_
  obtain ⟨rest, ps, ws⟩ := s
  cases rest with
  | nil => cases h
  | cons t rest =>
    rw [expectAnyKeyword_cons] at h
    cases hk : ks.find? t.isKeyword with
    | none =>
      rw [hk] at h
      cases h
    | some k =>
      rw [hk] at h
      cases h
      refine ⟨t, rfl, fun ts => ?_⟩
      rw [expectAnyKeyword_cons, hk]

/-- Behind a token that may be missing. -/
theorem acceptThen {test : Token → Bool} {f : Option Token → Parser β}
    (hreads : ∀ n, AgreeReading n (accept test >>= f) (accept test >>= f))
    (hf : ∀ r, Local v v' B (f r)) : LocalReading v v' B (accept test >>= f) where
  keeps n := (hreads n).agree
  reads := hreads
  moves us us' hstop h := by
    cases us with
    | nil => exact absurd rfl (ne_nil_of_reading hreads h)
    | cons t us =>
      rw [bind_apply] at h ⊢
      unfold accept at h ⊢
      dsimp only [List.cons_append] at h ⊢
      by_cases ht : test t = true
      · rw [if_pos ht] at h ⊢
        exact (hf (some t)).moves us us' hstop h
      · rw [if_neg ht] at h ⊢
        exact (hf none).moves (t :: us) us' hstop h

/-- Where a token is missing, something else is read. -/
theorem acceptOr {test : Token → Bool} {f : Option Token → Parser β}
    (hsome : ∀ t, Local v v' B (f (some t))) (hnone : LocalReading v v' B (f none)) :
    LocalReading v v' B (accept test >>= f) := by
  refine acceptThen (fun n s hn => ⟨rfl, fun b u h => ?_⟩) fun r => ?_
  · obtain ⟨r, t, hr, hu⟩ := bind_eq_ok h
    cases r with
    | none =>
      obtain rfl := accept_eq_none hr
      exact (hnone.reads n _ hn).2 b u hu
    | some w =>
      obtain ⟨hrest, -, -⟩ := accept_eq_some hr
      have hsuffix := Agree.suffix (hsome w).keeps hu
      rw [hrest]
      exact ⟨hsuffix.trans (List.suffix_cons w t.rest), Nat.lt_succ_of_le hsuffix.length_le⟩
  · cases r with
    | none => exact hnone.toLocal
    | some w => exact hsome w

theorem separated (hp : LocalReading v v' B p)
    (h : B → Misses (·.is ",") v ∧ Misses (·.is ",") v') :
    LocalReading v v' B (separated p) :=
  hp.bind fun _ => .loop (fun _ => (Local.eat h).bind fun _ =>
    .ite (hp.toLocal.bind fun _ => .pure _) (.pure _)) _

theorem skipBalanced : LocalReading v v' B skipBalanced := by
  refine expect.bind fun _ => ⟨fun n s _ => ⟨rfl, fun a t h => ?_⟩, fun _ _ _ h => ?_⟩
  · split at h
    · next hb =>
      cases h
      exact suffix_of_balanced hb
    · cases h
  · dsimp only at h ⊢
    split at h
    · next hb =>
      cases h
      rw [balanced_append hb]
    · cases h

end LocalReading

/-! ### Values and type names -/

namespace Local

theorem signedNumber : Local v v' False signedNumber := by
  refine (accept nofun).bind fun sign => ?_
  cases sign with
  | some sign => exact LocalReading.require.toLocal.bind fun _ => pure _
  | none => exact (accept nofun).bind fun _ => pure _

theorem typeSize : Local v v' False typeSize := by
  refine signedNumber.bind fun number => ?_
  cases number with
  | some number => exact pure _
  | none => exact current.bind fun _ => fail _

theorem typeSizes (h : B → Misses (·.is "(") v ∧ Misses (·.is "(") v') :
    Local v v' B typeSizes :=
  (eat h).bind fun _ => ite
    (LocalReading.toLocal <| typeSize.before fun _ => (eat nofun).before fun _ => .ite
      (typeSize.before fun _ => LocalReading.expect.bind fun _ => pure _)
      (LocalReading.expect.bind fun _ => pure _))
    (pure _)

theorem typeName (h : B → Misses isTypeWord v ∧ Misses isTypeWord v')
    (hparen : B → Misses (·.is "(") v ∧ Misses (·.is "(") v') : Local v v' B typeName :=
  (loop (fun _ => (accept h).bind fun _ => pure _) _).bind fun _ =>
    ite (pure _) ((typeSizes hparen).bind fun _ => pure _)

end Local

theorem LocalReading.collation (affinity : Option Affinity) :
    LocalReading v v' B (collation affinity) := by
  refine expectIdentifier.bind fun token => ?_
  refine (Local.ite (.pure _) (.warn _ _ _)).bind fun _ => Local.bind ?_ fun _ => .pure _
  unfold warnNotText
  split
  · exact .pure _
  · exact .warn _ _ _
  · exact .pure _

end SqliteSchema.Parser
