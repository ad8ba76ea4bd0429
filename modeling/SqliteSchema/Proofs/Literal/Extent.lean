import Mathlib.Order.Bounds.Defs
import SqliteSchema.Proofs.Lexeme.Partition
import SqliteSchema.Proofs.Literal.Number

/-!
Where the scan of a number stops. It succeeds where a numeral ends and nothing follows that could
belong to it, and it fails at the first character with which no numeral goes on.
-/
namespace SqliteSchema.Literal.Number

variable {cs ds front rest : List Char} {P : List Char → Prop} {n m : Nat} {f : NumberFault}

/-- The front of something that is `P`, perhaps all of it. -/
def Opens (P : List Char → Prop) (front : List Char) : Prop := ∃ more, P (front ++ more)

/-- A text of which `front` can go on to a `P`, while `p` fails as soon as the character behind
`front` is read. -/
inductive Stuck (p : List Char → Scan NumberFault) (P : List Char → Prop) (front : List Char) :
    List Char → Prop
  | intro {rest : List Char} (hopens : Opens P front)
    (hfails : ∀ d ∈ rest.head?, ∀ back k, p (front ++ d :: back) ≠ .ok k) :
    Stuck p P front (front ++ rest)

/-- The first character stays the same where the text behind a character is another one. -/
theorem head?_append_cons {d : Char} (hd : d ∈ rest.head?) (us back : List Char) :
    (us ++ d :: back).head? = (us ++ rest).head? := by
  cases us with
  | nil => exact hd.symm
  | cons => rfl

theorem Bounds.of_head? (h : Bounds rest) (hhead : rest.head? = ds.head?) : Bounds ds :=
  fun d hd => h d (hhead ▸ hd)

/-! ### Faults -/

theorem finish_eq_error (h : finish n cs = .error (f, m)) :
    m = n ∧ ¬ ∀ d ∈ cs.head?, Text.isAlphanumeric d = false ∧ d ≠ '_' := by
  unfold finish at h
  split at h
  · next c rest =>
    split at h
    · next hc =>
      cases h
      refine ⟨rfl, fun hend => ?_⟩
      obtain ⟨halnum, hline⟩ := hend c rfl
      simp [halnum, hline] at hc
    · cases h
  · cases h

/-- The end of a numeral that no point may follow. -/
def pointless (fault : NumberFault) (n : Nat) : List Char → Scan NumberFault
  | '.' :: _ => .error (fault, n)
  | tail => finish n tail

theorem pointless_eq_error {fault : NumberFault} (h : pointless fault n cs = .error (f, m)) :
    m = n ∧ ¬ Bounds cs := by
  unfold pointless at h
  split at h
  · cases h
    exact ⟨rfl, fun hbounds => (hbounds '.' rfl).2.2 rfl⟩
  · obtain ⟨rfl, hend⟩ := finish_eq_error h
    exact ⟨rfl, fun hbounds => hend fun d hd => ⟨(hbounds d hd).1, (hbounds d hd).2.1⟩⟩

/-- Only the next character counts. -/
theorem pointless_ne_ok {fault : NumberFault} (hcs : ¬ Bounds cs) (hhead : cs.head? = ds.head?)
    (k : Nat) : pointless fault n ds ≠ .ok k :=
  fun h => hcs ((pointless_eq_ok.1 h).2.of_head? hhead.symm)

theorem signLength_congr (h : cs.head? = ds.head?) : signLength cs = signLength ds := by
  have hhead (cs : List Char) :
      signLength cs = if cs.head? = some '+' ∨ cs.head? = some '-' then 1 else 0 := by
    unfold signLength
    split
    · rfl
    · rfl
    · next hplus hminus =>
      rw [if_neg]
      rintro (hhead | hhead)
      · obtain ⟨tail, htail⟩ := List.head?_eq_some_iff.1 hhead
        exact hplus tail htail
      · obtain ⟨tail, htail⟩ := List.head?_eq_some_iff.1 hhead
        exact hminus tail htail
  rw [hhead, hhead, h]

/-- The sign and the digits of an exponent, and what is made of the rest. -/
theorem exponent_split {sign digits : List Char}
    (hsign : signLength (sign ++ (digits ++ rest)) = sign.length)
    (hdigits : leading Char.isDigit (digits ++ rest) = digits.length) :
    exponent n (sign ++ (digits ++ rest)) =
      if digits = [] then .error (.noExponentDigits, n + sign.length)
      else pointless .pointAfterExponent (n + sign.length + digits.length) rest := by
  unfold exponent
  simp only [hsign, List.drop_left, hdigits, List.length_eq_zero_iff]
  rw [← List.drop_drop, List.drop_left, List.drop_left]
  rfl

/-- Behind the letter of an exponent. -/
theorem stuck_exponent {e : Char} (he : e = 'e' ∨ e = 'E') (h : exponent n cs = .error (f, m)) :
    ∃ front, m = n + front.length ∧
      Stuck (exponent n) (fun us => IsExponent (e :: us)) front cs := by
  obtain ⟨sign, tail, rfl, hs, hsign⟩ := exists_sign cs
  obtain ⟨digits, rest, rfl, hd, hend⟩ := exists_leading Char.isDigit tail
  have hother {d : Char} (hrest : d ∈ rest.head?) (back : List Char) :
      signLength (sign ++ (digits ++ d :: back)) = sign.length ∧
        leading Char.isDigit (digits ++ d :: back) = digits.length := by
    refine ⟨?_, leading_append hd fun d' hd' => hend d' (hrest.trans hd')⟩
    rw [← hsign, ← List.append_assoc, ← List.append_assoc]
    exact signLength_congr (head?_append_cons hrest _ back)
  rw [exponent_split hsign (leading_append hd hend)] at h
  split at h
  · next hnone =>
    subst hnone
    cases h
    refine ⟨sign, rfl, .intro ⟨['0'], .power he hs (by simp) (by simp)⟩ fun d hrest back k hk => ?_⟩
    obtain ⟨hsign, hdigits⟩ := hother hrest back
    have hfails := exponent_split (n := n) hsign hdigits
    rw [List.nil_append, hk, if_pos rfl] at hfails
    cases hfails
  · next hne =>
    obtain ⟨rfl, hbounds⟩ := pointless_eq_error h
    refine ⟨sign ++ digits, by rw [List.length_append, Nat.add_assoc], ?_⟩
    rw [← List.append_assoc]
    refine .intro ⟨[], ?_⟩ fun d hrest back k hk => ?_
    · rw [List.append_nil]
      exact .power he hs hne hd
    · obtain ⟨hsign, hdigits⟩ := hother hrest back
      rw [List.append_assoc, exponent_split hsign hdigits, if_neg hne] at hk
      have hhead : rest.head? = (d :: back).head? := hrest
      exact pointless_ne_ok hbounds hhead k hk

/-- Without the letter of an exponent the number ends here. -/
theorem scale_eq_finish {c : Char} (he : c ≠ 'e') (hE : c ≠ 'E') (tail : List Char) :
    scale n (c :: tail) = finish n (c :: tail) := by
  unfold scale
  split
  · next heq => exact absurd (List.cons.inj heq).1 he
  · next heq => exact absurd (List.cons.inj heq).1 hE
  · rfl

theorem stuck_scale (h : scale n cs = .error (f, m)) :
    ∃ front, m = n + front.length ∧ Stuck (scale n) IsExponent front cs := by
  have hpower {e : Char} {tail : List Char} (he : e = 'e' ∨ e = 'E')
      (hscale : ∀ tail, scale n (e :: tail) = exponent (n + 1) tail)
      (h : scale n (e :: tail) = .error (f, m)) :
      ∃ front, m = n + front.length ∧ Stuck (scale n) IsExponent front (e :: tail) := by
    rw [hscale] at h
    obtain ⟨front, rfl, hstuck⟩ := stuck_exponent he h
    refine ⟨e :: front, by rw [List.length_cons]; omega, ?_⟩
    cases hstuck with
    | intro hopens hfails =>
    refine .intro hopens fun d hd back k hk => hfails d hd back k ?_
    rwa [List.cons_append, hscale] at hk
  cases cs with
  | nil => cases h
  | cons c tail =>
    by_cases he : c = 'e'
    · subst he
      exact hpower (.inl rfl) (fun _ => rfl) h
    by_cases hE : c = 'E'
    · subst hE
      exact hpower (.inr rfl) (fun _ => rfl) h
    rw [scale_eq_finish he hE] at h
    obtain ⟨rfl, hfault⟩ := finish_eq_error h
    refine ⟨[], rfl, .intro ⟨[], .none⟩ ?_⟩
    rintro d ⟨⟩ back k hk
    rw [List.nil_append, scale_eq_finish he hE] at hk
    exact hfault (finish_eq_ok.1 hk).2

/-! ### Numerals -/

/-- The first character of a number, and the one behind it if the first one is a point. -/
def Starts (cs : List Char) : Prop :=
  ∃ c rest, cs = c :: rest ∧ (c.isDigit = true ∨ c = '.' ∧ ∃ d ∈ rest.head?, d.isDigit = true)

/-- Without a point behind the whole part the exponent is next. -/
theorem decimal_eq_scale {whole : List Char} (hw : ∀ d ∈ whole, d.isDigit = true)
    (hrest : ∀ d ∈ rest.head?, d.isDigit = false ∧ d ≠ '.') :
    decimal (whole ++ rest) = scale whole.length rest := by
  unfold decimal
  simp only [leading_append hw fun d hd => (hrest d hd).1, List.drop_left]
  split
  · next heq => exact absurd rfl (hrest '.' rfl).2
  · rfl

theorem decimal_point {whole digits : List Char} (hw : ∀ d ∈ whole, d.isDigit = true)
    (hd : ∀ d ∈ digits, d.isDigit = true) (hrest : ∀ d ∈ rest.head?, d.isDigit = false) :
    decimal (whole ++ '.' :: (digits ++ rest)) =
      if rest.head? = some '.' then .error (.secondPoint, whole.length + 1 + digits.length)
      else scale (whole.length + 1 + digits.length) rest := by
  have hpoint : ∀ d ∈ ('.' :: (digits ++ rest)).head?, d.isDigit = false := by
    rintro d ⟨⟩
    decide
  unfold decimal
  simp only [leading_append hw hpoint, List.drop_left, leading_append hd hrest]
  split
  · rfl
  · next hne =>
    rw [if_neg]
    intro hhead
    obtain ⟨tail, htail⟩ := List.head?_eq_some_iff.1 hhead
    exact hne tail htail

/-- The scan goes on behind what is a numeral so far, and it fails in there. -/
theorem stuck_behind_mantissa {us : List Char} {k : Nat} (hus : us ≠ []) (hk : us.length = k)
    (hnumeral : ∀ e, IsExponent e → IsNumeral (us ++ e))
    (hscale : ∀ tail, tail.head? = rest.head? → decimal (us ++ tail) = scale k tail)
    (h : scale k rest = .error (f, m)) :
    ∃ front, m = front.length ∧ front ≠ [] ∧ Stuck decimal IsNumeral front (us ++ rest) := by
  obtain ⟨front, rfl, hstuck⟩ := stuck_scale h
  cases hstuck with
  | @intro rest hopens hfails =>
  refine ⟨us ++ front, by rw [List.length_append, hk], by simp [hus], ?_⟩
  rw [← List.append_assoc]
  refine .intro ?_ fun d hd back i hi => hfails d hd back i ?_
  · obtain ⟨more, hmore⟩ := hopens
    exact ⟨more, by rw [List.append_assoc]; exact hnumeral _ hmore⟩
  · rwa [List.append_assoc, hscale _ (head?_append_cons hd front back)] at hi

theorem stuck_decimal (hstart : Starts cs) (h : decimal cs = .error (f, m)) :
    ∃ front, m = front.length ∧ front ≠ [] ∧ Stuck decimal IsNumeral front cs := by
  obtain ⟨c, cs, rfl, hc⟩ := hstart
  obtain ⟨whole, tail, heq, hw, hend⟩ := exists_leading Char.isDigit (c :: cs)
  rw [heq] at h ⊢
  by_cases hpoint : tail.head? = some '.'
  · obtain ⟨tail, rfl⟩ := List.head?_eq_some_iff.1 hpoint
    obtain ⟨digits, rest, rfl, hd, hrest⟩ := exists_leading Char.isDigit tail
    have hne : whole ≠ [] ∨ 1 < ('.' :: digits).length := by
      rcases List.eq_nil_or_concat digits with rfl | ⟨us, d, rfl⟩
      · refine .inl ?_
        rintro rfl
        obtain ⟨rfl, rfl⟩ := List.cons.inj heq
        obtain ⟨-, d, hd, hdigit⟩ := hc.resolve_left (by decide)
        rw [hrest d hd] at hdigit
        cases hdigit
      · exact .inr (by simp)
    have hnumeral (e : List Char) (he : IsExponent e) :
        IsNumeral (whole ++ '.' :: digits ++ e) := by
      rw [List.append_assoc]
      exact .decimal hw (.point hd) he hne
    have hsplit (tail : List Char) (htail : tail.head? = rest.head?) :
        decimal (whole ++ '.' :: digits ++ tail) =
          if rest.head? = some '.' then .error (.secondPoint, whole.length + 1 + digits.length)
          else scale (whole.length + 1 + digits.length) tail := by
      rw [List.append_assoc, List.cons_append, decimal_point hw hd (htail ▸ hrest), htail]
    have hlength : (whole ++ '.' :: digits).length = whole.length + 1 + digits.length := by
      rw [List.length_append, List.length_cons]
      omega
    rw [← List.cons_append, ← List.append_assoc] at h ⊢
    by_cases hsecond : rest.head? = some '.'
    · rw [hsplit rest rfl, if_pos hsecond] at h
      cases h
      refine ⟨_, hlength.symm, by simp, .intro ⟨[], hnumeral [] .none⟩ fun d hd back k hk => ?_⟩
      have hhead : (d :: back).head? = rest.head? := hd.symm
      rw [hsplit _ hhead, if_pos hsecond] at hk
      cases hk
    · simp only [if_neg hsecond] at hsplit
      rw [hsplit rest rfl] at h
      exact stuck_behind_mantissa (by simp) hlength hnumeral hsplit h
  · have hscale (rest : List Char) (hhead : rest.head? = tail.head?) :
        decimal (whole ++ rest) = scale whole.length rest := by
      refine decimal_eq_scale hw fun d hd => ⟨hend d (hhead ▸ hd), ?_⟩
      rintro rfl
      exact hpoint (hhead ▸ hd)
    have hne : whole ≠ [] := by
      rintro rfl
      rw [List.nil_append] at heq
      subst heq
      obtain ⟨rfl, -⟩ := hc.resolve_left (by rw [hend c rfl]; decide)
      exact hpoint rfl
    rw [hscale tail rfl] at h
    exact stuck_behind_mantissa hne rfl (fun e he => .decimal hw .none he (.inl hne)) hscale h

theorem stuck_hexadecimal {x : Char} (hx : x = 'x' ∨ x = 'X')
    (h : hexadecimal cs = .error (f, m)) :
    ∃ front, m = 2 + front.length ∧
      Stuck hexadecimal (fun us => IsNumeral ('0' :: x :: us)) front cs := by
  obtain ⟨digits, rest, rfl, hd, hend⟩ := exists_leading isHexDigit cs
  have hsplit (tail : List Char) (htail : tail.head? = rest.head?) :
      hexadecimal (digits ++ tail) = if digits = [] then .error (.noHexDigits, 2)
        else pointless .hexFraction (2 + digits.length) tail := by
    unfold hexadecimal
    simp only [leading_append hd (htail ▸ hend), List.drop_left, List.length_eq_zero_iff]
    rfl
  have hhead {d : Char} (hd : d ∈ rest.head?) (back : List Char) :
      (d :: back).head? = rest.head? := hd.symm
  rw [hsplit rest rfl] at h
  split at h
  · next hnone =>
    subst hnone
    cases h
    refine ⟨[], rfl, .intro ⟨['0'], .hexadecimal hx (by simp) (List.forall_mem_singleton.2 rfl)⟩
      fun d hd back k hk => ?_⟩
    have hfails := hsplit _ (hhead hd back)
    rw [hk, if_pos rfl] at hfails
    cases hfails
  · next hne =>
    obtain ⟨rfl, hbounds⟩ := pointless_eq_error h
    refine ⟨digits, rfl, .intro ⟨[], ?_⟩ fun d hd back k hk => ?_⟩
    · rw [List.append_nil]
      exact .hexadecimal hx hne hd
    · rw [hsplit _ (hhead hd back), if_neg hne] at hk
      exact pointless_ne_ok hbounds (hhead hd back).symm k hk

theorem stuck_scan (hstart : Starts cs) (h : scan cs = .error (f, m)) :
    ∃ front, m = front.length ∧ Stuck scan IsNumeral front cs := by
  have hhex {x : Char} {tail : List Char} (hx : x = 'x' ∨ x = 'X')
      (hscan : ∀ tail, scan ('0' :: x :: tail) = hexadecimal tail)
      (h : hexadecimal tail = .error (f, m)) :
      ∃ front, m = front.length ∧ Stuck scan IsNumeral front ('0' :: x :: tail) := by
    obtain ⟨front, rfl, hstuck⟩ := stuck_hexadecimal hx h
    refine ⟨'0' :: x :: front, by rw [List.length_cons, List.length_cons]; omega, ?_⟩
    cases hstuck with
    | intro hopens hfails =>
    refine .intro hopens fun d hd back k hk => hfails d hd back k ?_
    rwa [List.cons_append, List.cons_append, hscan] at hk
  unfold scan at h
  split at h
  · exact hhex (.inl rfl) (fun _ => rfl) h
  · exact hhex (.inr rfl) (fun _ => rfl) h
  · next hx hX =>
    obtain ⟨front, rfl, hne, hstuck⟩ := stuck_decimal hstart h
    refine ⟨front, rfl, ?_⟩
    cases hstuck with
    | @intro rest hopens hfails =>
    refine .intro hopens fun d hd back k hk => hfails d hd back k ?_
    -- The first two characters are those of the text that was read as a decimal number.
    obtain ⟨c, us, rfl⟩ := List.exists_cons_of_ne_nil hne
    have hsecond := head?_append_cons hd us back
    rw [List.cons_append] at hk ⊢
    unfold scan at hk
    split at hk
    · next heq =>
      obtain ⟨rfl, htail⟩ := List.cons.inj heq
      rw [htail] at hsecond
      obtain ⟨tail, htail⟩ := List.head?_eq_some_iff.1 hsecond.symm
      exact absurd (by rw [List.cons_append, htail]) (hx tail)
    · next heq =>
      obtain ⟨rfl, htail⟩ := List.cons.inj heq
      rw [htail] at hsecond
      obtain ⟨tail, htail⟩ := List.head?_eq_some_iff.1 hsecond.symm
      exact absurd (by rw [List.cons_append, htail]) (hX tail)
    · exact hk

/-! ### Where a scan stops -/

/-- A numeral stands here, with nothing behind it that could belong to it. -/
structure NumeralAt (text : List Char) (start stop : Nat) : Prop where
  le : start ≤ stop
  inside : stop ≤ text.length
  numeral : IsNumeral (between text start stop)
  bounds : Bounds (text.drop stop)

/-- The text from one place to the other can go on to a numeral. -/
structure NumeralUpTo (text : List Char) (start stop : Nat) : Prop where
  le : start ≤ stop
  inside : stop ≤ text.length
  opens : Opens IsNumeral (between text start stop)

theorem exists_between {text : List Char} {start stop : Nat} (hle : start ≤ stop)
    (hinside : stop ≤ text.length) :
    stop = start + (between text start stop).length ∧
      text.drop start = between text start stop ++ text.drop stop := by
  constructor
  · rw [between, List.length_take, List.length_drop]
    omega
  · have hdrop : text.drop stop = (text.drop start).drop (stop - start) := by
      rw [List.drop_drop, Nat.add_sub_cancel' hle]
    rw [between, hdrop, List.take_append_drop]

/-- A front of the rest of a text as a piece of the text. -/
theorem between_of_drop {text us vs : List Char} {start : Nat} (hne : text.drop start ≠ [])
    (h : text.drop start = us ++ vs) :
    start + us.length ≤ text.length ∧ between text start (start + us.length) = us ∧
      text.drop (start + us.length) = vs := by
  have hlength := congrArg List.length h
  have hpos := List.length_pos_iff.2 hne
  rw [List.length_drop] at hlength hpos
  rw [List.length_append] at hlength
  refine ⟨by omega, ?_, ?_⟩
  · rw [between, Nat.add_sub_cancel_left, h, List.take_left]
  · rw [← List.drop_drop, h, List.drop_left]

variable {text : List Char} {start stop : Nat}

theorem Starts.ne_nil (h : Starts cs) : cs ≠ [] := by
  obtain ⟨c, rest, rfl, -⟩ := h
  exact List.cons_ne_nil c rest

theorem NumeralAt.scan_eq_ok (h : NumeralAt text start stop) :
    ∃ n, stop = start + n ∧ scan (text.drop start) = .ok n := by
  obtain ⟨hstop, htext⟩ := exists_between h.le h.inside
  exact ⟨_, hstop, by rw [htext, scan_append h.numeral h.bounds]⟩

/-- No longer piece of the text can go on to a numeral than the one in front of the fault. -/
theorem Stuck.isGreatest (hne : text.drop start ≠ [])
    (h : Stuck scan IsNumeral front (text.drop start)) :
    IsGreatest {stop | NumeralUpTo text start stop} (start + front.length) := by
  generalize hcs : text.drop start = cs at h
  cases h with
  | @intro rest hopens hfails =>
  obtain ⟨hinside, hbetween, -⟩ := between_of_drop hne hcs
  refine ⟨⟨Nat.le_add_right _ _, hinside, by rwa [hbetween]⟩, fun stop hstop => ?_⟩
  obtain ⟨heq, htext⟩ := exists_between hstop.le hstop.inside
  by_contra hlonger
  rw [hcs] at htext
  have hlt : front.length < (between text start stop).length := by omega
  obtain ⟨us, hus⟩ : front <+: between text start stop :=
    List.prefix_of_prefix_length_le (List.prefix_append front rest)
      (htext ▸ List.prefix_append _ _) (Nat.le_of_lt hlt)
  rw [← hus, List.append_assoc, List.append_cancel_left_eq] at htext
  cases us with
  | nil =>
    rw [← hus, List.append_nil] at hlt
    exact Nat.lt_irrefl _ hlt
  | cons d us =>
    obtain ⟨more, hmore⟩ := hstop.opens
    rw [← hus] at hmore
    have hnone : Bounds [] := nofun
    have hscan := scan_append hmore hnone
    rw [List.append_nil, List.append_assoc, List.cons_append] at hscan
    exact hfails d (by rw [htext]; rfl) _ _ hscan

/-- A number that starts at a digit, or at a point in front of a digit, is scanned up to where a
numeral ends with nothing behind it that could belong to it, and there is one such place at most.
If there is none, the scan fails behind the longest piece of text that can go on to a numeral. -/
theorem scan_extent (hstart : Starts (text.drop start)) :
    (∀ stop, NumeralAt text start stop ↔
      ∃ n, stop = start + n ∧ scan (text.drop start) = .ok n) ∧
    (∀ stop stop', NumeralAt text start stop → NumeralAt text start stop' → stop = stop') ∧
    ((¬ ∃ stop, NumeralAt text start stop) →
      ∃ f n, scan (text.drop start) = .error (f, n) ∧
        IsGreatest {stop | NumeralUpTo text start stop} (start + n)) := by
  have hiff (stop : Nat) : NumeralAt text start stop ↔
      ∃ n, stop = start + n ∧ scan (text.drop start) = .ok n := by
    refine ⟨NumeralAt.scan_eq_ok, ?_⟩
    rintro ⟨n, rfl, hscan⟩
    have hne := hstart.ne_nil
    obtain ⟨c, cs, hcs, hc⟩ := hstart
    rw [hcs] at hscan
    obtain ⟨ds, rest, heq, hds, hrest, rfl⟩ := exists_numeral hscan hc
    obtain ⟨hinside, hbetween, hdrop⟩ := between_of_drop hne (hcs.trans heq)
    exact ⟨Nat.le_add_right _ _, hinside, by rwa [hbetween], by rwa [hdrop]⟩
  refine ⟨hiff, fun stop stop' h h' => ?_, fun hnone => ?_⟩
  · obtain ⟨n, rfl, hn⟩ := h.scan_eq_ok
    obtain ⟨n', rfl, hn'⟩ := h'.scan_eq_ok
    rw [hn] at hn'
    rw [Except.ok.inj hn']
  · cases hscan : scan (text.drop start) with
    | ok n => exact absurd ⟨start + n, (hiff _).2 ⟨n, rfl, hscan⟩⟩ hnone
    | error fault =>
      obtain ⟨f, n⟩ := fault
      obtain ⟨front, rfl, hstuck⟩ := stuck_scan hstart hscan
      exact ⟨f, front.length, rfl, hstuck.isGreatest hstart.ne_nil⟩

/-- A hexadecimal number in front of a sign, and a point behind an exponent. -/
theorem scan_extent_exponents :
    let text := "0x1e+5 1.e5.0".toList
    Starts (text.drop 0) ∧ Starts (text.drop 7) ∧ NumeralAt text 0 4 ∧
      (¬ ∃ stop, NumeralAt text 7 stop) ∧
      scan (text.drop 7) = .error (.pointAfterExponent, 4) ∧
      IsGreatest {stop | NumeralUpTo text 7 stop} 11 := by
  intro text
  have hfirst : Starts (text.drop 0) := ⟨'0', "x1e+5 1.e5.0".toList, rfl, .inl rfl⟩
  have hsecond : Starts (text.drop 7) := ⟨'1', ".e5.0".toList, rfl, .inl rfl⟩
  obtain ⟨hends, -, -⟩ := scan_extent hfirst
  obtain ⟨hiff, -, hfails⟩ := scan_extent hsecond
  have herror : scan (text.drop 7) = .error (.pointAfterExponent, 4) := by decide +kernel
  have hnone : ¬ ∃ stop, NumeralAt text 7 stop := by
    rintro ⟨stop, hstop⟩
    obtain ⟨n, -, hn⟩ := (hiff stop).1 hstop
    rw [herror] at hn
    cases hn
  obtain ⟨f, n, hn, hgreatest⟩ := hfails hnone
  rw [herror] at hn
  cases hn
  exact ⟨hfirst, hsecond, (hends 4).2 ⟨4, rfl, by decide +kernel⟩, hnone, herror, hgreatest⟩

end SqliteSchema.Literal.Number
