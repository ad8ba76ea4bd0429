import Mathlib.Data.List.Find
import SqliteSchema.Literal.Blob
import SqliteSchema.Literal.Quoted

/-!
Where blobs, strings and quoted names end. They have delimiters of their own, so that what follows
them is not looked at; a quote behind a string is the one exception.
-/
namespace SqliteSchema.Literal

/-- A blob is an even number of hexadecimal digits between its quotes. -/
theorem Blob.scan_eq_ok {cs : List Char} {n : Nat} : Blob.scan cs = .ok n ↔
    ∃ x digits rest, cs = x :: '\'' :: (digits ++ '\'' :: rest) ∧ (x = 'x' ∨ x = 'X') ∧
      (∀ d ∈ digits, isHexDigit d = true) ∧ digits.length % 2 = 0 ∧ n = digits.length + 3 := by
  constructor
  · intro h
    unfold Blob.scan at h
    split at h
    · cases h
    · next x rest =>
      split at h
      · next hx =>
        split at h
        · next tail =>
          obtain ⟨digits, rest, rfl, hd, hend⟩ := exists_leading isHexDigit tail
          simp only [Blob.digits, leading_append hd hend, List.drop_left] at h
          split at h
          · next tail =>
            split at h
            · next heven =>
              cases h
              exact ⟨x, digits, tail, rfl, hx, hd, heven, by omega⟩
            · cases h
          · cases h
          · cases h
        · cases h
      · cases h
  · rintro ⟨x, digits, rest, rfl, hx, hd, heven, rfl⟩
    have hquote : ∀ d ∈ ('\'' :: rest).head?, isHexDigit d = false := by
      rintro d ⟨⟩
      decide
    rw [Blob.scan, if_pos hx]
    simp only [Blob.digits, leading_append hd hquote, List.drop_left, heven, if_true]
    rw [Nat.add_right_comm, Nat.add_comm]

namespace Quoted

theorem stringTail_pos {cs : List Char} {n : Nat} (h : stringTail cs = some n) : 0 < n := by
  unfold stringTail at h
  split at h
  · cases h
  · obtain ⟨m, -, rfl⟩ := Option.map_eq_some_iff.1 h
    exact Nat.succ_pos _
  · obtain ⟨m, -, rfl⟩ := Option.map_eq_some_iff.1 h
    exact Nat.succ_pos _
  · cases h
    exact Nat.one_pos
  · obtain ⟨m, -, rfl⟩ := Option.map_eq_some_iff.1 h
    exact Nat.succ_pos _

/-- Only a quote ends a string. -/
theorem one_lt_of_stringTail {c : Char} {cs : List Char} {n : Nat} (hc : c ≠ '\'')
    (h : stringTail (c :: cs) = some n) : 1 < n := by
  unfold stringTail at h
  split at h
  · contradiction
  · obtain ⟨m, -, rfl⟩ := Option.map_eq_some_iff.1 h
    omega
  · exact absurd (List.cons.inj ‹_›).1 hc
  · exact absurd (List.cons.inj ‹_›).1 hc
  · next heq =>
    obtain ⟨m, hm, rfl⟩ := Option.map_eq_some_iff.1 h
    have hpos := stringTail_pos hm
    omega

theorem stringTail_le {cs : List Char} {n : Nat} (h : stringTail cs = some n) : n ≤ cs.length := by
  induction cs using stringTail.induct generalizing n with
  | case1 => cases h
  | case2 rest ih =>
    obtain ⟨m, hm, rfl⟩ := Option.map_eq_some_iff.1 h
    exact Nat.add_le_add_right (ih hm) 2
  | case3 rest ih =>
    obtain ⟨m, hm, rfl⟩ := Option.map_eq_some_iff.1 h
    exact Nat.add_le_add_right (ih hm) 2
  | case4 rest hne =>
    rw [stringTail] at h
    · cases h
      exact Nat.succ_pos _
    · exact hne
  | case5 c rest h₁ h₂ h₃ ih =>
    rw [stringTail] at h
    · obtain ⟨m, hm, rfl⟩ := Option.map_eq_some_iff.1 h
      exact Nat.succ_le_succ (ih hm)
    · exact h₁
    · exact h₂
    · exact h₃

theorem identifierTail_le {close : Char} {cs : List Char} {n : Nat}
    (h : identifierTail close cs = some n) : n ≤ cs.length := by
  obtain ⟨i, hi, rfl⟩ := Option.map_eq_some_iff.1 h
  exact (List.findIdx?_eq_some_iff_getElem.1 hi).1

variable {us vs ws : List Char} {n : Nat}

/-- A string that ends within `us` ends there whatever follows, unless that is a quote. -/
theorem stringTail_append (h : stringTail (us ++ vs) = some n) (hn : n ≤ us.length)
    (hws : ∀ d ∈ ws.head?, d ≠ '\'') : stringTail (us ++ ws) = some n := by
  induction us using stringTail.induct generalizing n with
  | case1 =>
    have hpos := stringTail_pos h
    exact absurd hn (Nat.not_le_of_gt hpos)
  | case2 rest ih =>
    obtain ⟨m, hm, rfl⟩ := Option.map_eq_some_iff.1 h
    have hrest := ih hm (Nat.le_of_add_le_add_right hn)
    simp [stringTail, hrest]
  | case3 rest ih =>
    obtain ⟨m, hm, rfl⟩ := Option.map_eq_some_iff.1 h
    have hrest := ih hm (Nat.le_of_add_le_add_right hn)
    simp [stringTail, hrest]
  | case4 rest hne =>
    cases rest with
    | nil =>
      have hpos := stringTail_pos h
      obtain rfl : n = 1 := Nat.le_antisymm hn hpos
      cases ws with
      | nil => rfl
      | cons d ws =>
        have hd : d ≠ '\'' := hws d rfl
        simp [stringTail, hd]
    | cons d rest =>
      have hd : d ≠ '\'' := fun hd => hne rest (hd ▸ rfl)
      simpa [stringTail, hd] using h
  | case5 c rest h₁ h₂ h₃ ih =>
    cases rest with
    | nil =>
      have hlt := one_lt_of_stringTail h₃ h
      exact absurd hn (Nat.not_le_of_gt hlt)
    | cons d rest =>
      have hopen (xs : List Char) : stringTail (c :: d :: rest ++ xs) =
          (stringTail (d :: rest ++ xs)).map (· + 1) := by
        rw [List.cons_append, stringTail]
        · intro tail hc htail
          exact h₁ rest hc (by rw [(List.cons.inj htail).1])
        · intro tail hc htail
          exact h₃ hc
        · exact h₃
      rw [hopen] at h ⊢
      obtain ⟨m, hm, rfl⟩ := Option.map_eq_some_iff.1 h
      rw [ih hm (Nat.le_of_add_le_add_right hn)]
      rfl

/-- A quoted name that ends within `us` ends there whatever follows. -/
theorem identifierTail_append {close : Char} (h : identifierTail close (us ++ vs) = some n)
    (hn : n ≤ us.length) (ws : List Char) : identifierTail close (us ++ ws) = some n := by
  unfold identifierTail at h ⊢
  rw [List.findIdx?_append] at h ⊢
  cases hfind : us.findIdx? (· == close) with
  | some i =>
    rw [hfind] at h
    exact h
  | none =>
    rw [hfind, Option.none_or] at h
    obtain ⟨i, hi, rfl⟩ := Option.map_eq_some_iff.1 h
    obtain ⟨j, -, rfl⟩ := Option.map_eq_some_iff.1 hi
    omega

end Quoted

end SqliteSchema.Literal
