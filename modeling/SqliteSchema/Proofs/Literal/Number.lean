import SqliteSchema.Literal.Number

/-!
What the scanner of numbers accepts: a numeral that nothing follows that could belong to it.
-/
namespace SqliteSchema.Literal

theorem isAlphanumeric_of_isHexDigit {c : Char} (h : isHexDigit c = true) :
    Text.isAlphanumeric c = true := by
  apply Text.isAlphanumeric_of_isAlphanum
  simp only [isHexDigit, Bool.or_eq_true, Bool.and_eq_true, decide_eq_true_eq] at h
  delta Char.isAlphanum Char.isAlpha Char.isUpper Char.isLower
  simp only [Bool.or_eq_true, decide_eq_true_eq, Bool.and_eq_true]
  have hf : 'f' ≤ 'z' := by decide
  have hF : 'F' ≤ 'Z' := by decide
  rcases h with (h | ⟨h, h'⟩) | ⟨h, h'⟩
  · exact .inr h
  · exact .inl (.inr ⟨h, Char.le_trans h' hf⟩)
  · exact .inl (.inl ⟨h, Char.le_trans h' hF⟩)

namespace Number

def IsSign (cs : List Char) : Prop := cs = [] ∨ cs = ['+'] ∨ cs = ['-']

inductive IsFraction : List Char → Prop
  | none : IsFraction []
  | point {digits : List Char} (hd : ∀ d ∈ digits, d.isDigit = true) : IsFraction ('.' :: digits)

inductive IsExponent : List Char → Prop
  | none : IsExponent []
  | power {e : Char} {sign digits : List Char} (he : e = 'e' ∨ e = 'E') (hs : IsSign sign)
      (hne : digits ≠ []) (hd : ∀ d ∈ digits, d.isDigit = true) :
      IsExponent (e :: (sign ++ digits))

/-- A numeral has a digit in its whole part or in its fraction. -/
inductive IsNumeral : List Char → Prop
  | hexadecimal {x : Char} {digits : List Char} (hx : x = 'x' ∨ x = 'X') (hne : digits ≠ [])
      (hd : ∀ d ∈ digits, isHexDigit d = true) : IsNumeral ('0' :: x :: digits)
  | decimal {whole fraction exponent : List Char} (hw : ∀ d ∈ whole, d.isDigit = true)
      (hf : IsFraction fraction) (he : IsExponent exponent)
      (hne : whole ≠ [] ∨ 1 < fraction.length) : IsNumeral (whole ++ (fraction ++ exponent))

/-- Nothing that a numeral could go on with. -/
def Bounds (rest : List Char) : Prop :=
  ∀ d ∈ rest.head?, Text.isAlphanumeric d = false ∧ d ≠ '_' ∧ d ≠ '.'

variable {cs rest : List Char} {n m : Nat}

/-- No character of a name follows. -/
theorem Bounds.eq_false (h : Bounds rest) {q : Char → Bool}
    (hq : ∀ c, q c = true → Text.isAlphanumeric c = true) : ∀ d ∈ rest.head?, q d = false := by
  intro d hd
  rw [Bool.eq_false_iff]
  intro hdigit
  have halnum := hq d hdigit
  rw [(h d hd).1] at halnum
  cases halnum

theorem Bounds.isDigit (h : Bounds rest) : ∀ d ∈ rest.head?, d.isDigit = false :=
  h.eq_false fun c hc => by rw [Text.isAlphanumeric, Text.isNumeric_of_isDigit hc, Bool.or_true]

theorem Bounds.isHexDigit (h : Bounds rest) : ∀ d ∈ rest.head?, isHexDigit d = false :=
  h.eq_false fun _ => isAlphanumeric_of_isHexDigit

theorem Bounds.isAlpha (h : Bounds rest) : ∀ d ∈ rest.head?, d.isAlpha = false :=
  h.eq_false fun c hc => by rw [Text.isAlphanumeric, Text.isAlphabetic_of_isAlpha hc, Bool.true_or]

theorem finish_eq_ok : finish n cs = .ok m ↔
    m = n ∧ ∀ d ∈ cs.head?, Text.isAlphanumeric d = false ∧ d ≠ '_' := by
  cases cs with
  | nil =>
    constructor
    · rintro ⟨⟩
      exact ⟨rfl, nofun⟩
    · rintro ⟨rfl, -⟩
      rfl
  | cons c cs =>
    have hhead : (∀ d ∈ (c :: cs).head?, Text.isAlphanumeric d = false ∧ d ≠ '_') ↔
        ¬ (Text.isAlphanumeric c || c == '_') = true := by
      simp
    rw [hhead, finish]
    split
    · next h => simp [h]
    · next h => simp [h, eq_comm]

/-- The end of a numeral that no point may follow. -/
theorem pointless_eq_ok {fault : NumberFault × Nat} :
    (match cs with
      | '.' :: _ => Except.error fault
      | tail => finish n tail) = .ok m ↔ m = n ∧ Bounds cs := by
  have hbounds : (∀ d ∈ cs.head?, d ≠ '.') →
      ((∀ d ∈ cs.head?, Text.isAlphanumeric d = false ∧ d ≠ '_') ↔ Bounds cs) := by
    intro hp
    constructor
    · intro h d hd
      exact ⟨(h d hd).1, (h d hd).2, hp d hd⟩
    · intro h d hd
      exact ⟨(h d hd).1, (h d hd).2.1⟩
  split
  · next tail =>
    simp only [reduceCtorEq, false_iff, not_and]
    rintro - h
    exact (h '.' rfl).2.2 rfl
  · next hne =>
    rw [finish_eq_ok, hbounds]
    rintro d hd rfl
    cases cs with
    | nil => cases hd
    | cons c cs =>
      cases hd
      exact hne cs rfl

/-! ### Exponents -/

theorem exists_sign (cs : List Char) :
    ∃ sign rest, cs = sign ++ rest ∧ IsSign sign ∧ signLength cs = sign.length := by
  unfold signLength
  split
  · next rest => exact ⟨['+'], rest, rfl, .inr (.inl rfl), rfl⟩
  · next rest => exact ⟨['-'], rest, rfl, .inr (.inr rfl), rfl⟩
  · exact ⟨[], cs, rfl, .inl rfl, rfl⟩

/-- A sign in front of digits. -/
theorem signLength_append {sign digits : List Char} (hs : IsSign sign) (hne : digits ≠ [])
    (hd : ∀ d ∈ digits, d.isDigit = true) (rest : List Char) :
    signLength (sign ++ (digits ++ rest)) = sign.length := by
  rcases hs with rfl | rfl | rfl
  · obtain ⟨d, ds, rfl⟩ := List.exists_cons_of_ne_nil hne
    have hdigit := hd d List.mem_cons_self
    change signLength (d :: (ds ++ rest)) = 0
    unfold signLength
    split
    · next heq =>
      rw [(List.cons.inj heq).1] at hdigit
      cases hdigit
    · next heq =>
      rw [(List.cons.inj heq).1] at hdigit
      cases hdigit
    · rfl
  · rfl
  · rfl

theorem exponent_append {sign digits : List Char} (hs : IsSign sign) (hne : digits ≠ [])
    (hd : ∀ d ∈ digits, d.isDigit = true) (hr : Bounds rest) (n : Nat) :
    exponent n (sign ++ (digits ++ rest)) = .ok (n + sign.length + digits.length) := by
  have hsign := signLength_append hs hne hd rest
  have hdigits := leading_append hd hr.isDigit
  have hpos : digits.length ≠ 0 := mt List.length_eq_zero_iff.1 hne
  unfold exponent
  simp only [hsign, List.drop_left, hdigits, hpos, if_false]
  rw [← List.drop_drop, List.drop_left, List.drop_left]
  exact pointless_eq_ok.2 ⟨rfl, hr⟩

theorem exists_exponent (h : exponent n cs = .ok m) :
    ∃ sign digits rest, cs = sign ++ (digits ++ rest) ∧ IsSign sign ∧ digits ≠ [] ∧
      (∀ d ∈ digits, d.isDigit = true) ∧ Bounds rest ∧ m = n + sign.length + digits.length := by
  obtain ⟨sign, tail, rfl, hs, hsign⟩ := exists_sign cs
  obtain ⟨digits, rest, rfl, hd, hend⟩ := exists_leading Char.isDigit tail
  have hdigits := leading_append hd hend
  unfold exponent at h
  simp only [hsign, List.drop_left, hdigits] at h
  rw [← List.drop_drop, List.drop_left, List.drop_left] at h
  split at h
  · cases h
  · next hpos =>
    obtain ⟨hm, hr⟩ := pointless_eq_ok.1 h
    exact ⟨sign, digits, rest, rfl, hs, mt List.length_eq_zero_iff.2 hpos, hd, hr, hm⟩

theorem scale_append {e : List Char} (he : IsExponent e) (hr : Bounds rest) (n : Nat) :
    scale n (e ++ rest) = .ok (n + e.length) := by
  cases he with
  | none =>
    have hfinish : finish n rest = .ok n :=
      finish_eq_ok.2 ⟨rfl, fun d hd => ⟨(hr d hd).1, (hr d hd).2.1⟩⟩
    rw [List.nil_append]
    unfold scale
    split
    · exact absurd (hr.isAlpha 'e' rfl) (by decide)
    · exact absurd (hr.isAlpha 'E' rfl) (by decide)
    · exact hfinish
  | @power e sign digits he hs hne hd =>
    have hexponent := exponent_append hs hne hd hr (n + 1)
    have hlength : n + (e :: (sign ++ digits)).length = n + 1 + sign.length + digits.length := by
      rw [List.length_cons, List.length_append]
      omega
    rw [List.cons_append, List.append_assoc, hlength]
    rcases he with rfl | rfl
    · exact hexponent
    · exact hexponent

theorem exists_scale (h : scale n cs = .ok m) (hp : ∀ d ∈ cs.head?, d ≠ '.') :
    ∃ e rest, cs = e ++ rest ∧ IsExponent e ∧ Bounds rest ∧ m = n + e.length := by
  have hpower {e : Char} {tail : List Char} (he : e = 'e' ∨ e = 'E')
      (h : exponent (n + 1) tail = .ok m) :
      ∃ es rest, e :: tail = es ++ rest ∧ IsExponent es ∧ Bounds rest ∧ m = n + es.length := by
    obtain ⟨sign, digits, rest, rfl, hs, hne, hd, hr, rfl⟩ := exists_exponent h
    refine ⟨e :: (sign ++ digits), rest, by simp, .power he hs hne hd, hr, ?_⟩
    rw [List.length_cons, List.length_append]
    omega
  unfold scale at h
  split at h
  · exact hpower (.inl rfl) h
  · exact hpower (.inr rfl) h
  · obtain ⟨rfl, hr⟩ := finish_eq_ok.1 h
    exact ⟨[], cs, rfl, .none, fun d hd => ⟨(hr d hd).1, (hr d hd).2, hp d hd⟩, rfl⟩

/-! ### Numerals -/

/-- What stands behind the whole part of a number, or behind its fraction. -/
theorem head?_exponent {e : List Char} (he : IsExponent e) (hr : Bounds rest) :
    ∀ d ∈ (e ++ rest).head?, d.isDigit = false ∧ d ≠ '.' := by
  cases he with
  | none => exact fun d hd => ⟨hr.isDigit d hd, (hr d hd).2.2⟩
  | power he =>
    rintro d ⟨⟩
    rcases he with rfl | rfl
    · decide
    · decide

theorem decimal_append {whole fraction e : List Char} (hw : ∀ d ∈ whole, d.isDigit = true)
    (hf : IsFraction fraction) (he : IsExponent e) (hr : Bounds rest) :
    decimal (whole ++ (fraction ++ (e ++ rest))) =
      .ok (whole.length + fraction.length + e.length) := by
  have hhead := head?_exponent he hr
  have hscale := scale_append he hr
  unfold decimal
  cases hf with
  | none =>
    have hwhole : leading Char.isDigit (whole ++ (e ++ rest)) = whole.length :=
      leading_append hw fun d hd => (hhead d hd).1
    simp only [List.nil_append, hwhole, List.drop_left]
    split
    · next heq => exact absurd rfl (hhead '.' (by rw [heq]; rfl)).2
    · exact hscale _
  | @point digits hd =>
    have hwhole : leading Char.isDigit (whole ++ ('.' :: digits ++ (e ++ rest))) = whole.length :=
      leading_append hw fun d hd => by cases hd; rfl
    have hdigits : leading Char.isDigit (digits ++ (e ++ rest)) = digits.length :=
      leading_append hd fun d hd => (hhead d hd).1
    have hlength : whole.length + ('.' :: digits).length + e.length =
        whole.length + 1 + digits.length + e.length := by
      rw [List.length_cons]
      omega
    rw [hlength]
    simp only [hwhole, List.drop_left]
    simp only [List.cons_append, hdigits, List.drop_left]
    split
    · next heq => exact absurd rfl (hhead '.' (by rw [heq]; rfl)).2
    · exact hscale _

theorem exists_decimal (h : decimal cs = .ok n) :
    ∃ whole fraction e rest, cs = whole ++ (fraction ++ (e ++ rest)) ∧
      (∀ d ∈ whole, d.isDigit = true) ∧ IsFraction fraction ∧ IsExponent e ∧ Bounds rest ∧
      n = whole.length + fraction.length + e.length := by
  obtain ⟨whole, tail, rfl, hw, hend⟩ := exists_leading Char.isDigit cs
  unfold decimal at h
  simp only [leading_append hw hend, List.drop_left] at h
  split at h
  · next tail =>
    obtain ⟨digits, left, rfl, hd, hend⟩ := exists_leading Char.isDigit tail
    simp only [leading_append hd hend, List.drop_left] at h
    split at h
    · cases h
    · next hne =>
      obtain ⟨e, rest, rfl, he, hr, rfl⟩ := exists_scale h fun d hd hp => by
        obtain ⟨tail, htail⟩ := List.head?_eq_some_iff.1 (hp ▸ hd)
        exact hne tail htail
      refine ⟨whole, '.' :: digits, e, rest, rfl, hw, .point hd, he, hr, ?_⟩
      rw [List.length_cons]
      omega
  · next hne =>
    obtain ⟨e, rest, rfl, he, hr, rfl⟩ := exists_scale h fun d hd hp => by
      obtain ⟨tail, htail⟩ := List.head?_eq_some_iff.1 (hp ▸ hd)
      exact hne tail htail
    exact ⟨whole, [], e, rest, rfl, hw, .none, he, hr, rfl⟩

theorem hexadecimal_eq_ok : hexadecimal cs = .ok n ↔
    ∃ digits rest, cs = digits ++ rest ∧ digits ≠ [] ∧ (∀ d ∈ digits, isHexDigit d = true) ∧
      Bounds rest ∧ n = 2 + digits.length := by
  unfold hexadecimal
  constructor
  · intro h
    obtain ⟨digits, rest, rfl, hd, hend⟩ := exists_leading isHexDigit cs
    simp only [leading_append hd hend, List.drop_left] at h
    split at h
    · cases h
    · next hpos =>
      obtain ⟨hn, hr⟩ := pointless_eq_ok.1 h
      exact ⟨digits, rest, rfl, mt List.length_eq_zero_iff.2 hpos, hd, hr, hn⟩
  · rintro ⟨digits, rest, rfl, hne, hd, hr, rfl⟩
    have hpos : digits.length ≠ 0 := mt List.length_eq_zero_iff.1 hne
    simp only [leading_append hd hr.isHexDigit, List.drop_left, hpos, if_false]
    exact pointless_eq_ok.2 ⟨rfl, hr⟩

/-- Behind the whole part comes no digit and no letter of a hexadecimal number. -/
theorem head?_fraction {fraction e : List Char} (hf : IsFraction fraction) (he : IsExponent e)
    (hr : Bounds rest) :
    ∀ d ∈ (fraction ++ (e ++ rest)).head?, d.isDigit = false ∧ d ≠ 'x' ∧ d ≠ 'X' := by
  cases hf with
  | point =>
    rintro d ⟨⟩
    decide
  | none =>
    cases he with
    | none =>
      intro d hd
      have halpha := hr.isAlpha d hd
      refine ⟨hr.isDigit d hd, ?_, ?_⟩
      · rintro rfl
        cases halpha
      · rintro rfl
        cases halpha
    | power he =>
      rintro d ⟨⟩
      rcases he with rfl | rfl
      · decide
      · decide

theorem scan_eq_decimal {whole fraction e : List Char} (hw : ∀ d ∈ whole, d.isDigit = true)
    (hf : IsFraction fraction) (he : IsExponent e) (hr : Bounds rest) :
    scan (whole ++ (fraction ++ (e ++ rest))) = decimal (whole ++ (fraction ++ (e ++ rest))) := by
  have hhead := head?_fraction hf he hr
  generalize fraction ++ (e ++ rest) = tail at hhead
  have hsecond (x : Char) (xs : List Char) (heq : whole ++ tail = '0' :: x :: xs) :
      x ≠ 'x' ∧ x ≠ 'X' := by
    match whole, heq, hw with
    | [], heq, _ =>
      rw [List.nil_append] at heq
      exact absurd (hhead '0' (by rw [heq]; rfl)).1 (by decide)
    | [_], heq, _ =>
      have htail : tail = x :: xs := (List.cons.inj heq).2
      exact (hhead x (by rw [htail]; rfl)).2
    | _ :: d :: _, heq, hw =>
      have hd := hw d (by simp)
      rw [(List.cons.inj (List.cons.inj heq).2).1] at hd
      constructor
      · rintro rfl
        cases hd
      · rintro rfl
        cases hd
  unfold scan
  split
  · next heq => exact absurd rfl (hsecond _ _ heq).1
  · next heq => exact absurd rfl (hsecond _ _ heq).2
  · rfl

/-- A numeral that starts with a point goes on with a digit. -/
theorem IsNumeral.exists_cons {ds : List Char} (h : IsNumeral ds) :
    ∃ c us, ds = c :: us ∧ (c = '.' → ∃ d ∈ us.head?, d.isDigit = true) := by
  cases h with
  | hexadecimal => exact ⟨_, _, rfl, nofun⟩
  | @decimal whole fraction e hw hf he hne =>
    cases whole with
    | cons d whole =>
      refine ⟨d, whole ++ (fraction ++ e), rfl, ?_⟩
      rintro rfl
      exact absurd (hw '.' List.mem_cons_self) (by decide)
    | nil =>
      have hlong := hne.resolve_left (absurd rfl)
      cases hf with
      | none => exact absurd hlong (Nat.not_lt_zero 1)
      | @point digits hd =>
        cases digits with
        | nil => exact absurd hlong (Nat.lt_irrefl 1)
        | cons d digits => exact ⟨'.', _, rfl, fun _ => ⟨d, rfl, hd d List.mem_cons_self⟩⟩

/-- A numeral is read as a whole. -/
theorem scan_append {ds : List Char} (h : IsNumeral ds) (hr : Bounds rest) :
    scan (ds ++ rest) = .ok ds.length := by
  cases h with
  | @hexadecimal x digits hx hne hd =>
    have hhex : hexadecimal (digits ++ rest) = .ok (2 + digits.length) :=
      hexadecimal_eq_ok.2 ⟨digits, rest, rfl, hne, hd, hr, rfl⟩
    have hlength : ('0' :: x :: digits).length = 2 + digits.length := by
      rw [List.length_cons, List.length_cons]
      omega
    rw [hlength, ← hhex]
    rcases hx with rfl | rfl
    · rfl
    · rfl
  | decimal hw hf he =>
    rw [List.append_assoc, List.append_assoc, scan_eq_decimal hw hf he hr,
      decimal_append hw hf he hr, List.length_append, List.length_append, Nat.add_assoc]

/-- What is read as a number is a numeral and ends where the numeral does. -/
theorem exists_numeral {c : Char} (h : scan (c :: cs) = .ok n)
    (hc : c.isDigit = true ∨ c = '.' ∧ ∃ d ∈ cs.head?, d.isDigit = true) :
    ∃ ds rest, c :: cs = ds ++ rest ∧ IsNumeral ds ∧ Bounds rest ∧ n = ds.length := by
  have hhex {x : Char} {tail : List Char} (hx : x = 'x' ∨ x = 'X')
      (h : hexadecimal tail = .ok n) :
      ∃ ds rest, '0' :: x :: tail = ds ++ rest ∧ IsNumeral ds ∧ Bounds rest ∧ n = ds.length := by
    obtain ⟨digits, rest, rfl, hne, hd, hr, rfl⟩ := hexadecimal_eq_ok.1 h
    refine ⟨'0' :: x :: digits, rest, rfl, .hexadecimal hx hne hd, hr, ?_⟩
    rw [List.length_cons, List.length_cons]
    omega
  unfold scan at h
  split at h
  · next heq =>
    rw [heq]
    exact hhex (.inl rfl) h
  · next heq =>
    rw [heq]
    exact hhex (.inr rfl) h
  · obtain ⟨whole, fraction, e, rest, heq, hw, hf, he, hr, rfl⟩ := exists_decimal h
    have hne : whole ≠ [] ∨ 1 < fraction.length := by
      cases whole with
      | cons => exact .inl (List.cons_ne_nil _ _)
      | nil =>
        -- The number starts with a point, and its fraction with the digit behind it.
        rw [List.nil_append] at heq
        have hhead := (head?_fraction hf he hr c (by rw [← heq]; rfl)).1
        obtain ⟨rfl, d, hd, hdigit⟩ : c = '.' ∧ ∃ d ∈ cs.head?, d.isDigit = true :=
          hc.resolve_left (by rw [hhead]; decide)
        cases hf with
        | none =>
          rw [List.nil_append] at heq
          exact absurd rfl (head?_exponent he hr '.' (by rw [← heq]; rfl)).2
        | @point digits =>
          cases digits with
          | cons => exact .inr (Nat.lt_add_of_pos_left (Nat.succ_pos _))
          | nil =>
            obtain rfl : cs = e ++ rest := (List.cons.inj heq).2
            rw [(head?_exponent he hr d hd).1] at hdigit
            cases hdigit
    refine ⟨whole ++ (fraction ++ e), rest, by simp [heq], .decimal hw hf he hne, hr, ?_⟩
    rw [List.length_append, List.length_append, Nat.add_assoc]

end Number

end SqliteSchema.Literal
