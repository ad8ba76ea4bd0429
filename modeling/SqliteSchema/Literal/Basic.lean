/-!
What scanners of literals have in common. A scanner reads the front of a text and says how long
the literal is.
-/
namespace SqliteSchema.Literal

/-- The length of a literal, or what is wrong with it and how far behind its first character. -/
abbrev Scan (Fault : Type) := Except (Fault × Nat) Nat

/-- How many characters at the front of a text satisfy `p`. -/
def leading (p : Char → Bool) (cs : List Char) : Nat := (cs.takeWhile p).length

def isHexDigit (c : Char) : Bool :=
  c.isDigit || ('a' ≤ c && c ≤ 'f') || ('A' ≤ c && c ≤ 'F')

theorem take_leading (p : Char → Bool) (cs : List Char) :
    cs.take (leading p cs) = cs.takeWhile p := by
  induction cs with
  | nil => rfl
  | cons c cs ih =>
    cases h : p c
    · simp [leading, h]
    · simpa [leading, h] using ih

theorem drop_leading (p : Char → Bool) (cs : List Char) :
    cs.drop (leading p cs) = cs.dropWhile p := by
  induction cs with
  | nil => rfl
  | cons c cs ih =>
    cases h : p c
    · simp [leading, h]
    · simpa [leading, h] using ih

/-- A run of characters ends where something else follows. -/
theorem leading_append {q : Char → Bool} {cs rest : List Char} (hq : ∀ c ∈ cs, q c = true)
    (hr : ∀ c ∈ rest.head?, q c = false) : leading q (cs ++ rest) = cs.length := by
  rw [leading, List.takeWhile_append_of_pos hq]
  cases rest with
  | nil => simp
  | cons c rest => simp [hr c rfl]

/-- The run at the front of a text and what follows it. -/
theorem exists_leading (q : Char → Bool) (cs : List Char) :
    ∃ front rest, cs = front ++ rest ∧ (∀ c ∈ front, q c = true) ∧
      ∀ c ∈ rest.head?, q c = false := by
  induction cs with
  | nil => exact ⟨[], [], rfl, by simp, by simp⟩
  | cons c cs ih =>
    by_cases hc : q c = true
    · obtain ⟨front, rest, rfl, hf, hr⟩ := ih
      refine ⟨c :: front, rest, rfl, ?_, hr⟩
      rw [List.forall_mem_cons]
      exact ⟨hc, hf⟩
    · refine ⟨[], c :: cs, rfl, by simp, ?_⟩
      rintro d ⟨⟩
      exact Bool.not_eq_true _ ▸ hc

end SqliteSchema.Literal
