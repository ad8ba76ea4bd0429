/-!
Classes of characters as tables of code point ranges. All tables of this folder follow version
17.0 of the Unicode Character Database.
-/
namespace SqliteSchema.Text

/-- First and last code point of each range, in ascending order. -/
abbrev Ranges := List (Nat × Nat)

def Ranges.contains (rs : Ranges) (c : Char) : Bool :=
  rs.any fun r => decide (r.1 ≤ c.toNat) && decide (c.toNat ≤ r.2)

theorem Ranges.contains_iff {rs : Ranges} {c : Char} :
    rs.contains c = true ↔ ∃ r ∈ rs, r.1 ≤ c.toNat ∧ c.toNat ≤ r.2 := by
  simp [Ranges.contains]

end SqliteSchema.Text
