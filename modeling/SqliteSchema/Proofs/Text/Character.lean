import SqliteSchema.Lexeme.Stream

/-!
Classes of characters. Letters, digits and white space exclude each other, and letter case is a
matter of letters only.
-/
namespace SqliteSchema.Text

/-- What holds of the ASCII characters, checked one by one. -/
theorem forall_ascii {P : Char → Prop} (h : ∀ n < 128, P (Char.ofNat n)) (c : Char)
    (hc : c.toNat < 128) : P c := by
  have hchar := h c.toNat hc
  rwa [Char.ofNat_toNat] at hchar

theorem toNat_lt_of_isAlpha {c : Char} (h : c.isAlpha = true) : c.toNat < 128 := by
  delta Char.isAlpha Char.isUpper Char.isLower at h
  simp [UInt32.le_iff_toNat_le] at h
  omega

theorem toNat_lt_of_isDigit {c : Char} (h : c.isDigit = true) : c.toNat < 128 := by
  simp [Char.isDigit, UInt32.le_iff_toNat_le] at h
  omega

/-- White space ends words, and belongs to no other class of characters. -/
theorem isWhiteSpace_facts {c : Char} (h : isWhiteSpace c = true) :
    Lexeme.isDelimiter c = true ∧ isAlphanumeric c = false ∧ c.isDigit = false ∧
      c ∉ ['\'', '.', '_', '-', '*'] ∧
      ∀ op ∈ Lexeme.Operator.symbols, c ∉ op.symbol.toList := by
  have hall : ∀ r ∈ whiteSpaceRanges, ∀ n ∈ List.range' r.1 (r.2 + 1 - r.1),
      isAlphanumeric (Char.ofNat n) = false ∧ (Char.ofNat n).isDigit = false ∧
        Char.ofNat n ∉ ['\'', '.', '_', '-', '*'] ∧
        ∀ op ∈ Lexeme.Operator.symbols, Char.ofNat n ∉ op.symbol.toList := by
    decide +kernel
  have hdelimiter : Lexeme.isDelimiter c = true := by
    rw [Lexeme.isDelimiter, h, Bool.true_or, Bool.true_or]
  obtain ⟨r, hr, hle, hge⟩ := Ranges.contains_iff.1 h
  have hn : c.toNat ∈ List.range' r.1 (r.2 + 1 - r.1) := by
    rw [List.mem_range'_1]
    omega
  have hc := hall r hr c.toNat hn
  rw [Char.ofNat_toNat] at hc
  exact ⟨hdelimiter, hc⟩

/-! ### Letter case -/

/-- Only letters have another case, and it is that of a letter. -/
theorem toLower_eq_or_isAlpha (c : Char) :
    c.toLower = c ∨ c.isAlpha = true ∧ c.toLower.isAlpha = true := by
  have hascii : ∀ c : Char, c.toNat < 128 →
      c.toLower = c ∨ c.isAlpha = true ∧ c.toLower.isAlpha = true :=
    forall_ascii (by decide)
  by_cases hc : c.toNat < 128
  · exact hascii c hc
  · left
    unfold Char.toLower
    rw [dif_neg]
    intro h
    have hle : c.toNat ≤ 90 := h.2
    omega

/-- What is the same for all letters does not depend on the case. -/
theorem congr_toLower {β : Type} {f : Char → β} {b : β} (hf : ∀ c, c.isAlpha = true → f c = b)
    (c : Char) : f c.toLower = f c := by
  rcases toLower_eq_or_isAlpha c with h | ⟨h, h'⟩
  · rw [h]
  · rw [hf _ h, hf _ h']

theorem toLower_toLower (c : Char) : c.toLower.toLower = c.toLower := by
  have hascii : ∀ c : Char, c.toNat < 128 → c.toLower.toLower = c.toLower :=
    forall_ascii (by decide)
  rcases toLower_eq_or_isAlpha c with h | ⟨h, -⟩
  · rw [h, h]
  · exact hascii c (toNat_lt_of_isAlpha h)

theorem toLower_eq_iff {c d : Char} (hd : d.isAlpha = false) : c.toLower = d ↔ c = d := by
  rcases toLower_eq_or_isAlpha c with h | ⟨h, h'⟩
  · rw [h]
  · constructor
    · rintro rfl
      rw [h'] at hd
      cases hd
    · rintro rfl
      rw [h] at hd
      cases hd

end SqliteSchema.Text
