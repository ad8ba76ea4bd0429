import Mathlib.Data.List.Find
import SqliteSchema.Proofs.Lexeme.Piece
import SqliteSchema.Proofs.Literal.Delimited

/-!
A text may be cut behind a semicolon. No lexeme in front of one is read differently for what stands
behind it, so the tokens of a statement are those of the statement alone, places apart.
-/
namespace SqliteSchema

namespace Literal

variable {us vs ws : List Char}

/-- What follows `us` is a semicolon on both sides. -/
theorem head?_semicolon (us vs ws : List Char) :
    (us ++ ';' :: vs).head? = (us ++ ';' :: ws).head? := by
  cases us <;> rfl

theorem leading_semicolon {q : Char → Bool} (hq : q ';' = false) (us vs : List Char) :
    leading q (us ++ ';' :: vs) = leading q us := by
  induction us with
  | nil => simp [leading, hq]
  | cons c us ih =>
    by_cases hc : q c = true
    · simpa [leading, hc] using ih
    · simp [leading, hc]

theorem leading_le (q : Char → Bool) (cs : List Char) : leading q cs ≤ cs.length :=
  (cs.takeWhile_sublist q).length_le

theorem drop_leading_semicolon {q : Char → Bool} (hq : q ';' = false) (us vs : List Char) :
    (us ++ ';' :: vs).drop (leading q (us ++ ';' :: vs)) = us.drop (leading q us) ++ ';' :: vs := by
  rw [leading_semicolon hq, List.drop_append_of_le_length (leading_le q us)]

namespace Number

theorem finish_semicolon (n : Nat) (us vs ws : List Char) :
    finish n (us ++ ';' :: vs) = finish n (us ++ ';' :: ws) := by
  cases us <;> rfl

/-- A point ends the literal in an error, whatever follows. -/
theorem point_semicolon {r : Scan NumberFault} {f : List Char → Scan NumberFault}
    (hf : f (us ++ ';' :: vs) = f (us ++ ';' :: ws)) :
    (match us ++ ';' :: vs with
      | '.' :: _ => r
      | tail => f tail) =
    (match us ++ ';' :: ws with
      | '.' :: _ => r
      | tail => f tail) := by
  cases us with
  | nil => exact hf
  | cons c us =>
    by_cases hc : c = '.'
    · subst hc
      rfl
    · simpa [hc] using hf

theorem signLength_semicolon (us vs : List Char) :
    signLength (us ++ ';' :: vs) = signLength us ∧ signLength us ≤ us.length := by
  cases us with
  | nil => exact ⟨rfl, Nat.le_refl _⟩
  | cons c us =>
    by_cases hp : c = '+'
    · subst hp
      exact ⟨rfl, Nat.le_add_left 1 _⟩
    · by_cases hm : c = '-'
      · subst hm
        exact ⟨rfl, Nat.le_add_left 1 _⟩
      · simp [signLength, hp, hm]

theorem exponent_semicolon (n : Nat) (us vs ws : List Char) :
    exponent n (us ++ ';' :: vs) = exponent n (us ++ ';' :: ws) := by
  have hdigit : Char.isDigit ';' = false := rfl
  obtain ⟨-, hle⟩ := signLength_semicolon us vs
  have hdigits := leading_le Char.isDigit (us.drop (signLength us))
  rw [List.length_drop] at hdigits
  have hdrop (vs : List Char) :
      (us ++ ';' :: vs).drop (signLength us) = us.drop (signLength us) ++ ';' :: vs :=
    List.drop_append_of_le_length hle
  have hall (vs : List Char) :
      (us ++ ';' :: vs).drop (signLength us + leading Char.isDigit (us.drop (signLength us))) =
        us.drop (signLength us + leading Char.isDigit (us.drop (signLength us))) ++ ';' :: vs :=
    List.drop_append_of_le_length (by omega)
  unfold exponent
  simp only [(signLength_semicolon us _).1, hdrop, leading_semicolon hdigit, hall]
  split
  · rfl
  · exact point_semicolon (finish_semicolon _ _ _ _)

theorem hexadecimal_semicolon (us vs ws : List Char) :
    hexadecimal (us ++ ';' :: vs) = hexadecimal (us ++ ';' :: ws) := by
  have hhex : isHexDigit ';' = false := by decide
  unfold hexadecimal
  simp only [drop_leading_semicolon hhex]
  simp only [leading_semicolon hhex]
  split
  · rfl
  · exact point_semicolon (finish_semicolon _ _ _ _)

theorem scale_semicolon (n : Nat) (us vs ws : List Char) :
    scale n (us ++ ';' :: vs) = scale n (us ++ ';' :: ws) := by
  cases us with
  | nil => rfl
  | cons c us =>
    by_cases he : c = 'e'
    · subst he
      exact exponent_semicolon (n + 1) us vs ws
    · by_cases hE : c = 'E'
      · subst hE
        exact exponent_semicolon (n + 1) us vs ws
      · simpa [scale, he, hE] using finish_semicolon n (c :: us) vs ws

theorem decimal_semicolon (us vs ws : List Char) :
    decimal (us ++ ';' :: vs) = decimal (us ++ ';' :: ws) := by
  have hdigit : Char.isDigit ';' = false := rfl
  unfold decimal
  simp only [drop_leading_semicolon hdigit]
  simp only [leading_semicolon hdigit]
  generalize us.drop (leading Char.isDigit us) = left
  cases left with
  | nil => rfl
  | cons c left =>
    by_cases hc : c = '.'
    · subst hc
      simp only [List.cons_append, drop_leading_semicolon hdigit]
      simp only [leading_semicolon hdigit]
      exact point_semicolon (scale_semicolon _ _ _ _)
    · simpa [hc] using scale_semicolon (leading Char.isDigit us) (c :: left) vs ws

theorem scan_semicolon (us vs ws : List Char) :
    scan (us ++ ';' :: vs) = scan (us ++ ';' :: ws) := by
  have hdecimal := decimal_semicolon us vs ws
  rcases us with _ | ⟨c, _ | ⟨d, us⟩⟩
  · exact hdecimal
  · by_cases hc : c = '0'
    · subst hc
      exact hdecimal
    · simpa [scan, hc] using hdecimal
  · by_cases hc : c = '0'
    · subst hc
      by_cases hx : d = 'x'
      · subst hx
        exact hexadecimal_semicolon us vs ws
      · by_cases hX : d = 'X'
        · subst hX
          exact hexadecimal_semicolon us vs ws
        · simpa [scan, hx, hX] using hdecimal
    · simpa [scan, hc] using hdecimal

end Number

theorem Blob.scan_semicolon (us vs ws : List Char) :
    Blob.scan (us ++ ';' :: vs) = Blob.scan (us ++ ';' :: ws) := by
  have hhex : isHexDigit ';' = false := by decide
  have hdigits (us : List Char) :
      Blob.digits (us ++ ';' :: vs) = Blob.digits (us ++ ';' :: ws) := by
    unfold Blob.digits
    simp only [drop_leading_semicolon hhex]
    simp only [leading_semicolon hhex]
    cases us.drop (leading isHexDigit us) with
    | nil => rfl
    | cons c left =>
      by_cases hc : c = '\''
      · subst hc
        rfl
      · simp
  rcases us with _ | ⟨c, _ | ⟨d, us⟩⟩
  · rfl
  · rfl
  · by_cases hd : d = '\''
    · subst hd
      simp only [Blob.scan, List.cons_append, hdigits us]
    · simp [Blob.scan, hd]

end Literal

namespace Lexeme

variable {us vs ws : List Char} {n : Nat}

theorem blockTail_semicolon (h : blockTail (us ++ ';' :: vs) = some n) (hn : n ≤ us.length) :
    blockTail (us ++ ';' :: ws) = some n := by
  induction us using blockTail.induct generalizing n with
  | case1 =>
    obtain ⟨m, -, rfl⟩ := Option.map_eq_some_iff.1 h
    exact absurd hn (Nat.not_succ_le_zero m)
  | case2 rest => exact h
  | case3 c rest hne ih =>
    have hopen (vs : List Char) : blockTail (c :: rest ++ ';' :: vs) =
        (blockTail (rest ++ ';' :: vs)).map (· + 1) := by
      rw [List.cons_append, blockTail]
      intro tail hc htail
      cases rest with
      | nil => simp at htail
      | cons d rest =>
        simp only [List.cons_append, List.cons.injEq] at htail
        exact hne rest hc (by rw [htail.1])
    rw [hopen] at h ⊢
    obtain ⟨m, hm, rfl⟩ := Option.map_eq_some_iff.1 h
    rw [ih hm (Nat.le_of_add_le_add_right hn)]
    rfl

theorem lineTail_semicolon (hn : lineTail (us ++ ';' :: vs) ≤ us.length) :
    lineTail (us ++ ';' :: ws) = lineTail (us ++ ';' :: vs) := by
  unfold lineTail at hn ⊢
  induction us with
  | nil => simp at hn
  | cons c us ih =>
    by_cases hc : c = '\n'
    · simp [hc]
    · have hmore (vs : List Char) : ((c :: us ++ ';' :: vs).takeWhile (· != '\n')).length =
          ((us ++ ';' :: vs).takeWhile (· != '\n')).length + 1 := by
        simp [hc]
      rw [hmore] at hn ⊢
      rw [hmore, ih (Nat.le_of_add_le_add_right hn)]

theorem isPrefixOf_semicolon {cs : List Char} (hcs : ';' ∉ cs) (us vs ws : List Char) :
    cs.isPrefixOf (us ++ ';' :: vs) = cs.isPrefixOf (us ++ ';' :: ws) := by
  induction cs generalizing us with
  | nil => cases us <;> rfl
  | cons c cs ih =>
    simp only [List.mem_cons, not_or] at hcs
    cases us with
    | nil =>
      have hc : (c == ';') = false := beq_eq_false_iff_ne.2 (Ne.symm hcs.1)
      change (c == ';' && cs.isPrefixOf vs) = (c == ';' && cs.isPrefixOf ws)
      rw [hc, Bool.false_and, Bool.false_and]
    | cons d us => exact congrArg (c == d && ·) (ih hcs.2 us)

theorem match?_semicolon (us vs ws : List Char) :
    Operator.match? (us ++ ';' :: vs) = Operator.match? (us ++ ';' :: ws) := by
  have hall : ∀ op ∈ Operator.symbols, ';' ∉ op.symbol.toList := by decide
  apply List.find?_congr
  intro op hop
  exact isPrefixOf_semicolon (hall op hop) us vs ws

theorem word?_semicolon (us vs ws : List Char) :
    Operator.word? (us ++ ';' :: vs) = Operator.word? (us ++ ';' :: ws) := by
  have hall : ∀ w ∈ Operator.words, ';' ∉ w.toList := by decide
  unfold Operator.word?
  congr 1
  apply List.find?_congr
  intro w hw
  by_cases hle : w.length ≤ us.length
  · rw [List.take_append_of_le_length hle, List.take_append_of_le_length hle,
      List.drop_append_of_le_length hle, List.drop_append_of_le_length hle,
      Literal.head?_semicolon _ vs ws]
  · -- The semicolon would be a letter of the operator.
    have hno (vs : List Char) :
        ((us ++ ';' :: vs).take w.length).map Char.toLower ≠ w.toList := by
      intro heq
      obtain ⟨k, hk⟩ : ∃ k, w.length - us.length = k + 1 := ⟨w.length - us.length - 1, by omega⟩
      have hmem : ';' ∈ ((us ++ ';' :: vs).take w.length).map Char.toLower := by
        rw [List.take_append, hk, List.take_succ_cons]
        exact List.mem_map.2 ⟨';', by simp, rfl⟩
      exact hall w hw (heq ▸ hmem)
    rw [beq_eq_false_iff_ne.2 (hno vs), beq_eq_false_iff_ne.2 (hno ws), Bool.false_and,
      Bool.false_and]

theorem operatorOrWord_semicolon (c : Char) (us vs ws : List Char) :
    operatorOrWord c (us ++ ';' :: vs) = operatorOrWord c (us ++ ';' :: ws) := by
  have hdelimiter : (!isDelimiter ';') = false := by decide
  have hmatch :
      Operator.match? (c :: (us ++ ';' :: vs)) = Operator.match? (c :: (us ++ ';' :: ws)) :=
    match?_semicolon (c :: us) vs ws
  have hword : Operator.word? (c :: (us ++ ';' :: vs)) = Operator.word? (c :: (us ++ ';' :: ws)) :=
    word?_semicolon (c :: us) vs ws
  unfold operatorOrWord word
  rw [hmatch, hword, Literal.leading_semicolon hdelimiter, Literal.leading_semicolon hdelimiter]

/-! ### Lexemes -/

/-- How many characters a lexeme has behind its first one. -/
def more : Lexeme → Nat
  | gap n => n
  | token _ n => n

/-- A lexeme of at most `n + 1` characters on the left is read on the right too. -/
def Until (n : Nat) (r r' : Outcome) : Prop := ∀ l, r = .ok l → l.more ≤ n → r' = .ok l

theorem Until.of_eq {r r' : Outcome} (h : r = r') : Until n r r' := fun _ hl _ => h ▸ hl

theorem Until.ite {c : Prop} [Decidable c] {r r' q q' : Outcome} (h : c → Until n r r')
    (h' : Until n q q') : Until n (if c then r else q) (if c then r' else q') := by
  split
  · next hc => exact h hc
  · exact h'

theorem Until.closed {kind : TokenKind} {fault : Fault} {a b : Option Nat}
    (h : ∀ m, a = some m → m ≤ n → b = some m) :
    Until n (closed kind fault a) (closed kind fault b) := by
  intro l hl hn
  cases a with
  | none => cases hl
  | some m =>
    cases hl
    rw [h m rfl hn]
    rfl

theorem tokenAt_semicolon (c : Char) (us vs ws : List Char) :
    Until us.length (tokenAt c (us ++ ';' :: vs)) (tokenAt c (us ++ ';' :: ws)) := by
  have hnumber : Literal.Number.scan (c :: (us ++ ';' :: vs)) =
      Literal.Number.scan (c :: (us ++ ';' :: ws)) :=
    Literal.Number.scan_semicolon (c :: us) vs ws
  have hblob : Literal.Blob.scan (c :: (us ++ ';' :: vs)) =
      Literal.Blob.scan (c :: (us ++ ';' :: ws)) :=
    Literal.Blob.scan_semicolon (c :: us) vs ws
  unfold tokenAt
  rw [Literal.head?_semicolon us vs ws, hnumber, hblob]
  refine .ite (fun _ => .of_eq rfl) (.ite (fun _ => .of_eq rfl) (.ite (fun _ => .of_eq rfl)
    (.ite (fun _ => .closed ?_) (.ite (fun _ => .of_eq rfl) ?_))))
  · intro m hm hn
    exact Literal.Quoted.stringTail_append hm hn (by rintro d ⟨⟩; decide)
  · cases Literal.Quoted.closing? c with
    | some close => exact .closed fun m hm hn => Literal.Quoted.identifierTail_append hm hn _
    | none => exact .of_eq (operatorOrWord_semicolon c us vs ws)

/-- A comment is told by its first two characters. -/
theorem read_cons (c d : Char) (tail : List Char) :
    read c (d :: tail) =
      if Text.isWhiteSpace c then .ok (.gap 0)
      else if c = '-' ∧ d = '-' then .ok (.gap (1 + lineTail tail))
      else if c = '/' ∧ d = '*' then
        match blockTail tail with
        | some n => .ok (.gap (1 + n))
        | none => .error (.unterminatedComment, 0)
      else tokenAt c (d :: tail) := by
  unfold read
  by_cases hline : c = '-' ∧ d = '-'
  · obtain ⟨rfl, rfl⟩ := hline
    rfl
  · by_cases hblock : c = '/' ∧ d = '*'
    · obtain ⟨rfl, rfl⟩ := hblock
      rfl
    · rw [if_neg hline, if_neg hblock]
      split
      · rfl
      · split
        · next hd _ =>
          exact absurd ⟨rfl, (List.cons.inj hd).1⟩ hline
        · next hd _ =>
          exact absurd ⟨rfl, (List.cons.inj hd).1⟩ hblock
        · rfl

/-- A lexeme in front of a semicolon is read the same whatever stands behind the semicolon. -/
theorem read_semicolon (c : Char) (us vs ws : List Char) :
    Until us.length (read c (us ++ ';' :: vs)) (read c (us ++ ';' :: ws)) := by
  cases us with
  | nil =>
    have htoken := tokenAt_semicolon c [] vs ws
    rw [List.nil_append, List.nil_append, read_cons, read_cons]
    refine .ite (fun _ => .of_eq rfl) (.ite (fun h => ?_) (.ite (fun h => ?_) htoken))
    · exact absurd h.2 (by decide)
    · exact absurd h.2 (by decide)
  | cons d us =>
    have htoken := tokenAt_semicolon c (d :: us) vs ws
    rw [List.cons_append, List.cons_append, read_cons, read_cons]
    refine .ite (fun _ => .of_eq rfl) (.ite (fun _ => ?_) (.ite (fun _ => ?_) htoken))
    · intro l hl hn
      cases hl
      have hn : 1 + lineTail (us ++ ';' :: vs) ≤ us.length + 1 := hn
      rw [@lineTail_semicolon us vs ws (by omega)]
    · intro l hl hn
      split at hl
      · next m hm =>
        cases hl
        have hn : 1 + m ≤ us.length + 1 := hn
        rw [blockTail_semicolon hm (by omega)]
      · cases hl

end Lexeme

namespace Token

/-- The tokens of a piece of text in front of `rest`. -/
inductive Cuts (rest : List Char) : Position → List Char → List Token → Prop
  | nil {p : Position} : Cuts rest p [] []
  | gap {p : Position} {c : Char} {us vs : List Char} {n : Nat} {ts : List Token}
      (h : Lexeme.read c (us ++ (vs ++ rest)) = .ok (.gap n))
      (hn : (us ++ (vs ++ rest)).take n = us) (hc : Cuts rest (p.after (c :: us)) vs ts) :
      Cuts rest p (c :: us ++ vs) ts
  | token {p : Position} {c : Char} {us vs : List Char} {n : Nat} {kind : TokenKind}
      {ts : List Token} (h : Lexeme.read c (us ++ (vs ++ rest)) = .ok (.token kind n))
      (hn : (us ++ (vs ++ rest)).take n = us) (hc : Cuts rest (p.after (c :: us)) vs ts) :
      Cuts rest p (c :: us ++ vs) (⟨String.ofList (c :: us), kind, p⟩ :: ts)

variable {p q : Position} {cs us vs rest : List Char} {ts : List Token} {n : Nat}

theorem drop_of_take {us vs : List Char} (hn : (us ++ vs).take n = us) :
    (us ++ vs).drop n = vs := by
  have hsplit := List.take_append_drop n (us ++ vs)
  rw [hn] at hsplit
  exact List.append_cancel_left hsplit

theorem stream_of_cuts (h : Cuts rest p us ts) :
    stream p (us ++ rest) = (stream (p.after us) rest).map (ts ++ ·) := by
  induction h with
  | @nil p =>
    change stream p rest = (stream p rest).map id
    cases stream p rest <;> rfl
  | @gap p c us vs n ts h hn hc ih =>
    rw [List.append_assoc, List.cons_append, stream_gap h, hn, drop_of_take hn, ih,
      ← Position.after_append]
  | @token p c us vs n kind ts h hn hc ih =>
    rw [List.append_assoc, List.cons_append, stream_token h, hn, drop_of_take hn, ih,
      ← Position.after_append]
    cases stream (p.after (c :: us ++ vs)) rest <;> rfl

/-- The text in front of a token, the token's own text and the text behind it. -/
structure Around (p : Position) (cs : List Char) (ts : List Token) (t : Token) (us : List Token)
    (front value back : List Char) : Prop where
  text : cs = front ++ (value ++ back)
  cuts : Cuts (value ++ back) p front ts
  own : t.value.toList = value
  position : t.position = p.after front
  here : stream (p.after front) (value ++ back) = .ok (t :: us)
  behind : stream (p.after (front ++ value)) back = .ok us

theorem Around.text_step {t : Token} {us : List Token} {front value back : List Char}
    (h : Around q (rest.drop n) ts t us front value back) :
    rest.take n ++ (front ++ (value ++ back)) = rest := by
  rw [← h.text, List.take_append_drop]

/-- One more lexeme in front. -/
theorem Around.step {c : Char} {ts' us : List Token} {t : Token} {front value back : List Char}
    (h : Around (p.after (c :: rest.take n)) (rest.drop n) ts t us front value back)
    (hcuts : Cuts (value ++ back) p (c :: rest.take n ++ front) ts') :
    Around p (c :: rest) ts' t us (c :: rest.take n ++ front) value back where
  text := by rw [List.append_assoc, List.cons_append, h.text_step]
  cuts := hcuts
  own := h.own
  position := by rw [h.position, Position.after_append]
  here := by rw [Position.after_append, h.here]
  behind := by rw [List.append_assoc, Position.after_append, h.behind]

theorem cuts_of_stream (ts : List Token) {t : Token} {us : List Token}
    (h : stream p cs = .ok (ts ++ t :: us)) :
    ∃ front value back, Around p cs ts t us front value back := by
  generalize hall : ts ++ t :: us = all at h
  induction streamed_of_eq_ok h generalizing ts with
  | nil p => simp at hall
  | @gap p c rest n all hread htail ih =>
    obtain ⟨front, value, back, haround⟩ := ih ts hall htail.eq_ok
    refine ⟨c :: rest.take n ++ front, value, back, haround.step ?_⟩
    apply Cuts.gap (n := n) _ _ haround.cuts
    · rw [haround.text_step]
      exact hread
    · rw [haround.text_step]
  | @token p c rest kind n ws hread htail ih =>
    cases ts with
    | nil =>
      rw [List.nil_append, List.cons.injEq] at hall
      obtain ⟨rfl, rfl⟩ := hall
      have hsplit : c :: rest.take n ++ rest.drop n = c :: rest := by
        rw [List.cons_append, List.take_append_drop]
      refine ⟨[], c :: rest.take n, rest.drop n, ?_, .nil, String.toList_ofList, rfl, ?_,
        htail.eq_ok⟩
      · rw [List.nil_append, hsplit]
      · rw [hsplit]
        exact h
    | cons a ts =>
      rw [List.cons_append, List.cons.injEq] at hall
      obtain ⟨rfl, rfl⟩ := hall
      obtain ⟨front, value, back, haround⟩ := ih ts rfl htail.eq_ok
      refine ⟨c :: rest.take n ++ front, value, back, haround.step ?_⟩
      apply Cuts.token (n := n) _ _ haround.cuts
      · rw [haround.text_step]
        exact hread
      · rw [haround.text_step]

/-- The same token in a text that starts at `p` and in one that starts at `q`. -/
structure Moved (p q : Position) (t t' : Token) : Prop where
  same : t.Same t'
  absolute : t.position.absolute + q.absolute = t'.position.absolute + p.absolute

theorem Moved.behind {t t' : Token} {us : List Char} (h : Moved (p.after us) (q.after us) t t') :
    Moved p q t t' := by
  have habsolute := h.absolute
  rw [Position.absolute_after, Position.absolute_after] at habsolute
  exact ⟨h.same, by omega⟩

/-- A lexeme that ends in front of the rest of a text has the length that it says. -/
theorem length_of_take {us vs : List Char} (hn : (us ++ vs).take n = us) (hvs : vs ≠ []) :
    n = us.length := by
  have hlength := congrArg List.length hn
  have hpos := List.length_pos_iff.2 hvs
  rw [List.length_take, List.length_append] at hlength
  omega

/-- In front of a semicolon the same tokens are read at another place and before another text. -/
theorem Cuts.semicolon {vs : List Char} (h : Cuts (';' :: vs) p us ts) (q : Position)
    (ws : List Char) :
    ∃ ts', Cuts (';' :: ws) q us ts' ∧ List.Forall₂ (Moved p q) ts ts' := by
  have hread {c : Char} {us xs : List Char} {n : Nat} {l : Lexeme} (hl : l.more = n)
      (h : Lexeme.read c (us ++ (xs ++ ';' :: vs)) = .ok l)
      (hn : (us ++ (xs ++ ';' :: vs)).take n = us) :
      Lexeme.read c (us ++ (xs ++ ';' :: ws)) = .ok l ∧
        (us ++ (xs ++ ';' :: ws)).take n = us := by
    have hlength := length_of_take hn (by simp)
    rw [← List.append_assoc] at h ⊢
    refine ⟨Lexeme.read_semicolon c (us ++ xs) vs ws l h ?_, ?_⟩
    · rw [hl, hlength, List.length_append]
      exact Nat.le_add_right _ _
    · rw [hlength, List.append_assoc, List.take_left]
  induction h generalizing q with
  | nil => exact ⟨[], .nil, .nil⟩
  | @gap p c us xs n ts h hn hc ih =>
    obtain ⟨h', hn'⟩ := hread rfl h hn
    obtain ⟨ts', hcuts, hmoved⟩ := ih (q.after (c :: us))
    exact ⟨ts', .gap h' hn' hcuts, hmoved.imp fun _ _ ht => ht.behind⟩
  | @token p c us xs n kind ts h hn hc ih =>
    obtain ⟨h', hn'⟩ := hread rfl h hn
    obtain ⟨ts', hcuts, hmoved⟩ := ih (q.after (c :: us))
    have hfirst : Moved p q ⟨String.ofList (c :: us), kind, p⟩ ⟨String.ofList (c :: us), kind, q⟩ :=
      ⟨⟨_, _, _, _⟩, Nat.add_comm _ _⟩
    exact ⟨_, .token h' hn' hcuts, .cons hfirst (hmoved.imp fun _ _ ht => ht.behind)⟩

/-- A semicolon is a token of its own. -/
theorem stream_semicolon (p : Position) (cs : List Char) :
    stream p (';' :: cs) = (stream (p.after [';']) cs).map (⟨";", .other, p⟩ :: ·) :=
  stream_token (n := 0) rfl

/-- The piece of text from one token to a semicolon behind it has the same tokens wherever it
stands. -/
theorem exists_statement {first last : Token} {mid us : List Token}
    (h : stream p cs = .ok (first :: (mid ++ last :: us))) (hlast : last.value = ";") :
    ∃ front body back, cs = front ++ (body ++ ';' :: back) ∧ first.position = p.after front ∧
      last = ⟨";", .other, p.after (front ++ body)⟩ ∧
      stream (p.after (front ++ body ++ [';'])) back = .ok us ∧
      ∀ q ws us', stream (q.after (body ++ [';'])) ws = .ok us' →
        ∃ first' mid', first'.position.absolute = q.absolute ∧ first.Same first' ∧
          List.Forall₂ Same mid mid' ∧ stream q (body ++ ';' :: ws) =
            .ok (first' :: (mid' ++ ⟨";", .other, q.after body⟩ :: us')) := by
  obtain ⟨front, value, rest, hcs, -, -, hfirst, hstream, -⟩ :=
    cuts_of_stream [] h
  obtain ⟨body, semicolon, back, hrest, hcuts, hvalue, hposition, hend, -⟩ :=
    cuts_of_stream (first :: mid) hstream
  rw [hlast] at hvalue
  subst hvalue
  change Cuts (';' :: back) _ body _ at hcuts
  change stream _ (';' :: back) = _ at hend
  have hplace : (p.after front).after body = p.after (front ++ body) :=
    (Position.after_append p front body).symm
  rw [hplace, stream_semicolon, ← Position.after_append] at hend
  cases hback : stream (p.after (front ++ body ++ [';'])) back with
  | error e =>
    rw [hback] at hend
    cases hend
  | ok ws =>
    rw [hback] at hend
    obtain ⟨rfl, rfl⟩ := List.cons.inj (Except.ok.inj hend)
    refine ⟨front, body, back, by rw [hcs, hrest]; rfl, hfirst, rfl, hback, fun q ws us' hws => ?_⟩
    obtain ⟨ts', hcuts', hmoved⟩ := hcuts.semicolon q ws
    cases hmoved with
    | @cons _ first' _ mid' hhead htail =>
    have habsolute := hhead.absolute
    refine ⟨first', mid', ?_, hhead.same, htail.imp fun _ _ ht => ht.same, ?_⟩
    · rw [hfirst] at habsolute
      omega
    · rw [stream_of_cuts hcuts', stream_semicolon, ← Position.after_append, hws]
      rfl

end Token

end SqliteSchema
