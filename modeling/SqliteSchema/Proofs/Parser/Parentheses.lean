import Mathlib.Order.Bounds.Basic
import SqliteSchema.Proofs.Parameter.Stretch

/-!
Where a group in parentheses ends. From its opening parenthesis on, the opening parentheses are
counted against the closing ones, and the group ends where they first come out even. It has no end
where they never do.
-/
namespace SqliteSchema

namespace Token

variable {t : Token}

/-- The opening parentheses less the closing ones. -/
def nesting (ts : List Token) : Int := ts.countP (·.is "(") - ts.countP (·.is ")")

theorem nesting_append (us vs : List Token) : nesting (us ++ vs) = nesting us + nesting vs := by
  simp only [nesting, List.countP_append]
  omega

theorem nesting_cons (t : Token) (ts : List Token) : nesting (t :: ts) = nesting [t] + nesting ts :=
  nesting_append [t] ts

theorem nesting_of_opens (h : t.is "(" = true) : nesting [t] = 1 := by
  have hother : t.is ")" = false := is_of_is h
  simp [nesting, h, hother]

theorem nesting_of_ends (h : t.is ")" = true) : nesting [t] = -1 := by
  have hother : t.is "(" = false := is_of_is h
  simp [nesting, h, hother]

theorem nesting_of_neither (hopen : t.is "(" = false) (hclose : t.is ")" = false) :
    nesting [t] = 0 := by
  simp [nesting, hopen, hclose]

/-- What is written in a literal or a quoted name is not counted. -/
theorem nesting_uncounted {us vs : List Token} (h : t.isLiteral = true ∨ t.isQuoted = true) :
    t.is ")" = false ∧ nesting (us ++ t :: vs) = nesting (us ++ vs) := by
  obtain ⟨hopen, hclose⟩ : t.is "(" = false ∧ t.is ")" = false := by
    rcases h with h | h
    · exact ⟨is_of_isLiteral h, is_of_isLiteral h⟩
    · exact ⟨is_of_isQuoted h, is_of_isQuoted h⟩
  refine ⟨hclose, ?_⟩
  rw [nesting_append, nesting_cons, nesting_append, nesting_of_neither hopen hclose, Int.zero_add]

end Token

namespace Parser

open Token

variable {s : ParseState} {ts us inside rest tokens : List Token} {t opening closing : Token}
  {depth d start stop : Nat}

/-! ### How deep the parentheses are nested -/

theorem nesting_of_depthBehind_eq_none (h : depthBehind depth t = none) :
    depth + nesting [t] = -1 := by
  unfold depthBehind at h
  split at h
  · cases h
  · split at h
    · next hclose =>
      cases depth with
      | zero =>
        rw [nesting_of_ends hclose]
        rfl
      | succ => cases h
    · cases h

theorem nesting_of_depthBehind (h : depthBehind depth t = some d) : d = depth + nesting [t] := by
  unfold depthBehind at h
  split at h
  · next hopen =>
    cases h
    rw [nesting_of_opens hopen]
    rfl
  · next hopen =>
    split at h
    · next hclose =>
      cases depth with
      | zero => cases h
      | succ =>
        cases h
        rw [nesting_of_ends hclose]
        omega
    · next hclose =>
      cases h
      rw [nesting_of_neither (Bool.eq_false_of_not_eq_true hopen)
        (Bool.eq_false_of_not_eq_true hclose), Int.add_zero]

/-- Over tokens none of which closes the group, the depth is what the count says. -/
theorem nesting_of_foldlM (h : ts.foldlM depthBehind depth = some d) : d = depth + nesting ts := by
  induction ts generalizing depth with
  | nil =>
    cases h
    rfl
  | cons t ts ih =>
    rw [List.foldlM_cons] at h
    obtain ⟨d', ht, hts⟩ := Option.bind_eq_some_iff.1 h
    rw [ih hts, nesting_of_depthBehind ht, nesting_cons t ts, Int.add_assoc]

/-- No front of these tokens closes more than is open. -/
theorem nesting_of_isPrefix (h : ts.foldlM depthBehind depth = some d) (hus : us <+: ts) :
    0 ≤ depth + nesting us := by
  obtain ⟨vs, rfl⟩ := hus
  rw [List.foldlM_append] at h
  obtain ⟨d', hd', -⟩ := Option.bind_eq_some_iff.1 h
  have hdepth := nesting_of_foldlM hd'
  omega

/-- The group is still open in front of the parenthesis that closes it. -/
theorem foldlM_of_balanced (h : balanced depth ts = some (inside, rest)) :
    inside.foldlM depthBehind depth = some 0 := by
  induction ts generalizing depth inside with
  | nil => cases h
  | cons t ts ih =>
    rw [balanced_cons] at h
    cases hd : depthBehind depth t with
    | none =>
      rw [hd] at h
      cases h
      have hdepth := nesting_of_depthBehind_eq_none hd
      rw [nesting_of_ends (is_of_depthBehind hd)] at hdepth
      obtain rfl : depth = 0 := by omega
      rfl
    | some d =>
      rw [hd] at h
      obtain ⟨⟨inside, rest⟩, hr, ⟨⟩⟩ := Option.map_eq_some_iff.1 h
      rw [List.foldlM_cons, hd]
      exact ih hr

/-- A group without an end is open behind all tokens. -/
theorem foldlM_of_balanced_eq_none (h : balanced depth ts = none) :
    ∃ d, ts.foldlM depthBehind depth = some d := by
  induction ts generalizing depth with
  | nil => exact ⟨depth, rfl⟩
  | cons t ts ih =>
    rw [balanced_cons] at h
    cases hd : depthBehind depth t with
    | none =>
      rw [hd] at h
      cases h
    | some d =>
      rw [hd] at h
      rw [List.foldlM_cons, hd]
      exact ih (Option.map_eq_none_iff.1 h)

theorem balanced_inside (h : balanced 0 ts = some (inside, rest)) : Balanced inside := by
  have hrun := foldlM_of_balanced h
  refine ⟨fun us hus => ?_, ?_⟩
  · have hopen := nesting_of_isPrefix hrun hus
    unfold nesting at hopen
    omega
  · have heven := nesting_of_foldlM hrun
    unfold nesting at heven
    omega

/-- Where a group is open, no parenthesis has closed it. -/
theorem nesting_ne_zero_of_isPrefix (h : ts.foldlM depthBehind 0 = some d)
    (hfront : us ++ [closing] <+: ts) (hends : closing.is ")" = true) : nesting us ≠ 0 := by
  have hopen := nesting_of_isPrefix h hfront
  rw [nesting_append, nesting_of_ends hends] at hopen
  omega

/-! ### Where a group ends -/

/-- Behind `start` a closing parenthesis stands here, with which the parentheses from `start` on
come out even. -/
structure ClosesAt (tokens : List Token) (start stop : Nat) : Prop where
  behind : start < stop
  ends : tokens[stop]?.any (·.is ")") = true
  even : nesting (tokens.extract start (stop + 1)) = 0

instance (tokens : List Token) (start stop : Nat) : Decidable (ClosesAt tokens start stop) :=
  decidable_of_iff (start < stop ∧ tokens[stop]?.any (·.is ")") = true ∧
      nesting (tokens.extract start (stop + 1)) = 0)
    ⟨fun h => ⟨h.1, h.2.1, h.2.2⟩, fun h => ⟨h.behind, h.ends, h.even⟩⟩

/-- The two parentheses of a group cancel out. -/
theorem nesting_group (hopen : opening.is "(" = true) (hends : closing.is ")" = true) :
    nesting (opening :: (inside ++ [closing])) = nesting inside := by
  rw [nesting_cons, nesting_append, nesting_of_opens hopen, nesting_of_ends hends]
  omega

/-- Counted from the token behind the opening parenthesis. -/
theorem closesAt_iff (hdrop : tokens.drop start = opening :: ts) (hopen : opening.is "(" = true) :
    ClosesAt tokens start stop ↔ ∃ us closing, us ++ [closing] <+: ts ∧
      closing.is ")" = true ∧ nesting us = 0 ∧ stop = start + 1 + us.length := by
  have hget (n : Nat) : tokens[start + 1 + n]? = ts[n]? := by
    rw [Nat.add_assoc, Nat.add_comm 1, ← List.getElem?_drop, hdrop, List.getElem?_cons_succ]
  have hextract (n : Nat) : tokens.extract start (start + 1 + n + 1) =
      opening :: ts.take (n + 1) := by
    have hlength : start + 1 + n + 1 - start = n + 1 + 1 := by omega
    rw [List.extract_eq_take_drop, hdrop, hlength, List.take_succ_cons]
  constructor
  · rintro ⟨hbehind, hends, heven⟩
    obtain ⟨n, rfl⟩ : ∃ n, stop = start + 1 + n := Nat.exists_eq_add_of_le hbehind
    rw [hget] at hends
    obtain ⟨closing, hclosing, hends⟩ := (Option.any_eq_true _ _).1 hends
    obtain ⟨hn, -⟩ := List.getElem?_eq_some_iff.1 hclosing
    have htake : ts.take (n + 1) = ts.take n ++ [closing] := by
      rw [List.take_add_one, hclosing, Option.toList_some]
    rw [hextract, htake, nesting_group hopen hends] at heven
    refine ⟨ts.take n, closing, htake ▸ List.take_prefix _ _, hends, heven, ?_⟩
    rw [List.length_take_of_le (Nat.le_of_lt hn)]
  · rintro ⟨us, closing, ⟨rest, rfl⟩, hends, heven, rfl⟩
    have hcut : us ++ [closing] ++ rest = us ++ closing :: rest :=
      (List.append_cons us closing rest).symm
    rw [hcut] at hget hextract
    refine ⟨by omega, ?_, ?_⟩
    · rw [hget, List.getElem?_append_right (Nat.le_refl _), Nat.sub_self, List.getElem?_cons_zero,
        Option.any_some, hends]
    · rw [hextract, List.take_length_add_append, List.take_succ_cons, List.take_zero,
        nesting_group hopen hends, heven]

theorem isLeast_closesAt (hdrop : tokens.drop start = opening :: ts)
    (hopen : opening.is "(" = true) (h : balanced 0 ts = some (inside, rest)) :
    IsLeast {stop | ClosesAt tokens start stop} (start + 1 + inside.length) := by
  have hrun := foldlM_of_balanced h
  have heven : nesting inside = 0 := by simpa using (nesting_of_foldlM hrun).symm
  obtain ⟨closing, hends, rfl, -⟩ := balanced_eq_some h
  have hclosed : inside ++ [closing] <+: inside ++ closing :: rest :=
    ⟨rest, (List.append_cons inside closing rest).symm⟩
  refine ⟨(closesAt_iff hdrop hopen).2 ⟨inside, closing, hclosed, hends, heven, rfl⟩, ?_⟩
  intro stop hstop
  obtain ⟨us, closing', hfront, hends', heven', rfl⟩ := (closesAt_iff hdrop hopen).1 hstop
  by_contra hearlier
  -- An earlier end would lie inside the group, which is still open there.
  have hinside : us ++ [closing'] <+: inside := by
    refine List.prefix_of_prefix_length_le hfront (List.prefix_append _ _) ?_
    rw [List.length_append, List.length_singleton]
    omega
  exact nesting_ne_zero_of_isPrefix hrun hinside hends' heven'

theorem not_closesAt (hdrop : tokens.drop start = opening :: ts) (hopen : opening.is "(" = true)
    (h : balanced 0 ts = none) : ¬ ClosesAt tokens start stop := by
  obtain ⟨d, hrun⟩ := foldlM_of_balanced_eq_none h
  intro hstop
  obtain ⟨us, closing, hfront, hends, heven, rfl⟩ := (closesAt_iff hdrop hopen).1 hstop
  exact nesting_ne_zero_of_isPrefix hrun hfront hends heven

/-- What is read of a group, as a piece of all tokens. -/
theorem extract_of_balanced
    (h : balanced 0 (tokens.drop (start + 1)) = some (inside, rest)) :
    tokens.extract (start + 1) (start + 1 + inside.length) = inside ∧
      tokens.drop (start + 1 + inside.length + 1) = rest := by
  obtain ⟨closing, -, hcut, -⟩ := balanced_eq_some h
  constructor
  · rw [List.extract_eq_take_drop, hcut, Nat.add_sub_cancel_left, List.take_left]
  · rw [Nat.add_assoc, ← List.drop_drop, hcut, List.drop_length_add_append, List.drop_one,
      List.tail_cons]

/-- At an opening parenthesis, a group is passed over if some closing parenthesis behind it makes
the count come out even. The group ends at the first one that does, and its inside is balanced.
Without such a parenthesis the tokens run out. What is written in a literal or a quoted name is
not counted. -/
theorem skipBalanced_extent (hs : s.rest = tokens.drop start)
    (hopens : tokens[start]?.any (·.is "(") = true) :
    ((∃ inside t, skipBalanced s = .ok inside t) ↔ ∃ stop, ClosesAt tokens start stop) ∧
    (∀ stop, IsLeast {stop | ClosesAt tokens start stop} stop →
      skipBalanced s = .ok (tokens.extract (start + 1) stop)
        { s with rest := tokens.drop (stop + 1) } ∧
      Balanced (tokens.extract (start + 1) stop)) ∧
    ((¬ ∃ stop, ClosesAt tokens start stop) →
      skipBalanced s = .error (.endOfInput "')'") { s with rest := [] } ∧
      (ParseError.endOfInput "')'").code = .unexpectedEndOfInput) ∧
    ∀ us t vs, t.isLiteral = true ∨ t.isQuoted = true →
      t.is ")" = false ∧ nesting (us ++ t :: vs) = nesting (us ++ vs) := by
  obtain ⟨opening, hopening, hopen⟩ := (Option.any_eq_true _ _).1 hopens
  obtain ⟨hstart, rfl⟩ := List.getElem?_eq_some_iff.1 hopening
  have hdrop := List.drop_eq_getElem_cons hstart
  have hskip := skipBalanced_opened (hs.trans hdrop) hopen
  cases hbalanced : balanced 0 (tokens.drop (start + 1)) with
  | none =>
    rw [hbalanced] at hskip
    have hnone : ¬ ∃ stop, ClosesAt tokens start stop :=
      fun ⟨_, hstop⟩ => not_closesAt hdrop hopen hbalanced hstop
    refine ⟨⟨?_, fun h => absurd h hnone⟩, fun stop h => absurd ⟨stop, h.1⟩ hnone,
      fun _ => ⟨hskip, rfl⟩, fun _ _ _ => nesting_uncounted⟩
    rintro ⟨inside, t, h⟩
    rw [hskip] at h
    cases h
  | some r =>
    obtain ⟨inside, rest⟩ := r
    rw [hbalanced] at hskip
    have hleast := isLeast_closesAt hdrop hopen hbalanced
    refine ⟨⟨fun _ => ⟨_, hleast.1⟩, fun _ => ⟨_, _, hskip⟩⟩, ?_, ?_,
      fun _ _ _ => nesting_uncounted⟩
    · intro stop hstop
      obtain rfl := hstop.unique hleast
      obtain ⟨hinside, hrest⟩ := extract_of_balanced hbalanced
      rw [hinside, hrest]
      exact ⟨hskip, balanced_inside hbalanced⟩
    · exact fun hnone => absurd ⟨_, hleast.1⟩ hnone

/-- A group in a group, with parentheses in a string and in a name, and a group without an end. -/
theorem skipBalanced_extent_nested :
    let word (value : String) : Token := ⟨value, .other, .start⟩
    let tokens := [word "CHECK", word "(", word "(", ⟨"')'", .string, .start⟩, word ")",
      word "[(]", word ")", word "(", word "b"]
    tokens[1]?.any (·.is "(") = true ∧ IsLeast {stop | ClosesAt tokens 1 stop} 6 ∧
      skipBalanced { rest := tokens.drop 1 } =
        .ok (tokens.extract 2 6) { rest := [word "(", word "b"] } ∧
      tokens[7]?.any (·.is "(") = true ∧ (¬ ∃ stop, ClosesAt tokens 7 stop) ∧
      skipBalanced { rest := tokens.drop 7 } = .error (.endOfInput "')'") { rest := [] } := by
  intro word tokens
  have hfirst : tokens[1]?.any (·.is "(") = true := by decide +kernel
  have hsecond : tokens[7]?.any (·.is "(") = true := by decide +kernel
  have hends : ClosesAt tokens 1 6 := by decide +kernel
  have hearlier : ∀ stop < 6, ¬ ClosesAt tokens 1 stop := by decide +kernel
  have hleast : IsLeast {stop | ClosesAt tokens 1 stop} 6 :=
    ⟨hends, fun stop hstop => Nat.le_of_not_lt fun hlt => hearlier stop hlt hstop⟩
  have hnone : ¬ ∃ stop, ClosesAt tokens 7 stop := by
    rintro ⟨stop, hstop⟩
    have hinside : stop < tokens.length := by
      obtain ⟨_, hget, -⟩ := (Option.any_eq_true _ _).1 hstop.ends
      exact (List.getElem?_eq_some_iff.1 hget).1
    have hopen : ∀ stop < tokens.length, ¬ ClosesAt tokens 7 stop := by decide +kernel
    exact hopen stop hinside hstop
  obtain ⟨-, hclosed, -, -⟩ := skipBalanced_extent (s := { rest := tokens.drop 1 }) rfl hfirst
  obtain ⟨-, -, hfails, -⟩ := skipBalanced_extent (s := { rest := tokens.drop 7 }) rfl hsecond
  exact ⟨hfirst, hleast, (hclosed 6 hleast).1, hsecond, hnone, (hfails hnone).1⟩

end Parser

end SqliteSchema
