import Mathlib.Data.List.TakeWhile
import SqliteSchema.Parameter
import SqliteSchema.Proofs.Text.Character

/-!
Names for generated code are identifiers. A name that is made from ASCII text consists of ASCII
letters, digits and underscores, and does not start with a digit.
-/
namespace SqliteSchema

namespace Text

def isAscii (cs : List Char) : Bool := cs.all fun c => decide (c.toNat < 128)

theorem isAscii_iff {cs : List Char} : isAscii cs = true ↔ ∀ c ∈ cs, c.toNat < 128 := by
  simp [isAscii]

/-- ASCII letters and digits are the only alphanumeric characters of ASCII. -/
theorem isAlphanumeric_of_ascii {c : Char} (hc : c.toNat < 128) :
    isAlphanumeric c = c.isAlphanum := by
  rw [isAlphanumeric, isAlphabetic, isNumeric, if_pos hc, if_pos hc]
  rfl

theorem toNat_lt_of_isAlphanum {c : Char} (h : c.isAlphanum = true) : c.toNat < 128 := by
  rw [Char.isAlphanum, Bool.or_eq_true] at h
  exact h.elim toNat_lt_of_isAlpha toNat_lt_of_isDigit

theorem isAlphanum_toUpper {c : Char} (h : c.isAlphanum = true) : c.toUpper.isAlphanum = true := by
  have hascii : ∀ c : Char, c.toNat < 128 → c.isAlphanum = true → c.toUpper.isAlphanum = true :=
    forall_ascii (by decide)
  exact hascii c (toNat_lt_of_isAlphanum h) h

theorem isAlphanum_toLower {c : Char} (h : c.isAlphanum = true) : c.toLower.isAlphanum = true := by
  have hascii : ∀ c : Char, c.toNat < 128 → c.isAlphanum = true → c.toLower.isAlphanum = true :=
    forall_ascii (by decide)
  exact hascii c (toNat_lt_of_isAlphanum h) h

theorem isAlphanum_lowercaseAfter {before cs : List Char} (h : ∀ c ∈ cs, c.isAlphanum = true) :
    ∀ c ∈ lowercaseAfter before cs, c.isAlphanum = true := by
  induction cs generalizing before with
  | nil => simp [lowercaseAfter]
  | cons a cs ih =>
    rw [List.forall_mem_cons] at h
    have ha := toNat_lt_of_isAlphanum h.1
    have hsigma : a ≠ 'Σ' := by
      rintro rfl
      exact absurd ha (by decide)
    rw [lowercaseAfter, if_neg hsigma, lower, if_pos ha, List.singleton_append,
      List.forall_mem_cons]
    exact ⟨isAlphanum_toLower h.1, ih h.2⟩

end Text

namespace Name

/-- The characters of an identifier. -/
def isPart (c : Char) : Bool := c.isAlphanum || c == '_'

theorem toNat_lt_of_isPart {c : Char} (h : isPart c = true) : c.toNat < 128 := by
  rw [isPart, Bool.or_eq_true, beq_iff_eq] at h
  rcases h with h | rfl
  · exact Text.toNat_lt_of_isAlphanum h
  · decide

/-- Letters, digits and underscores, and a letter or an underscore first. -/
def isIdentifier (s : String) : Bool :=
  match s.toList with
  | [] => false
  | c :: cs => (c.isAlpha || c == '_') && cs.all isPart

theorem isIdentifier_iff {s : String} : isIdentifier s = true ↔
    (∀ c ∈ s.toList, isPart c = true) ∧ ∃ c ∈ s.toList.head?, c.isDigit = false := by
  have halpha : ∀ c : Char, c.toNat < 128 → c.isAlpha = true → c.isDigit = false :=
    Text.forall_ascii (by decide)
  have hfirst (c : Char) :
      (c.isAlpha || c == '_') = true ↔ isPart c = true ∧ c.isDigit = false := by
    cases hc : c.isAlpha with
    | true =>
      have hdigit := halpha c (Text.toNat_lt_of_isAlpha hc) hc
      simp [isPart, Char.isAlphanum, hc, hdigit]
    | false =>
      by_cases hu : c = '_'
      · subst hu
        decide
      · simp [isPart, Char.isAlphanum, hc, hu]
  unfold isIdentifier
  cases s.toList with
  | nil => simp
  | cons c cs =>
    rw [Bool.and_eq_true, hfirst, List.all_eq_true, List.forall_mem_cons]
    simp only [List.head?_cons, Option.mem_some_iff, exists_eq_left']
    exact and_right_comm

/-- Anything that an identifier can go on with. -/
theorem isIdentifier_append {a b : String} (ha : isIdentifier a = true)
    (hb : ∀ c ∈ b.toList, isPart c = true) : isIdentifier (a ++ b) = true := by
  rw [isIdentifier_iff] at ha ⊢
  obtain ⟨hall, c, hc, hdigit⟩ := ha
  rw [String.toList_append]
  constructor
  · intro d hd
    exact (List.mem_append.1 hd).elim (hall d) (hb d)
  · refine ⟨c, ?_, hdigit⟩
    rw [List.head?_append, hc]
    rfl

theorem isPart_repr (n : Nat) : ∀ c ∈ n.repr.toList, isPart c = true := by
  intro c hc
  rw [Nat.toList_repr] at hc
  have hdigit := Nat.isDigit_of_mem_toDigits (by decide) (by decide) hc
  rw [isPart, Char.isAlphanum, hdigit, Bool.or_true, Bool.true_or]

theorem isIdentifier_number {a : String} (ha : isIdentifier a = true) (n : Nat) :
    isIdentifier s!"{a}{n}" = true :=
  isIdentifier_append ha (isPart_repr n)

/-! ### Output names -/

theorem mem_parts {cs part : List Char} (h : part ∈ parts cs) :
    ∀ c ∈ part, c ∈ cs ∧ Text.isAlphanumeric c = true := by
  fun_induction parts cs with
  | case1 => cases h
  | case2 cs c rest hrest ih =>
    have hsuffix : c :: rest <:+ cs := hrest ▸ List.dropWhile_suffix _
    have hfirst := List.head?_dropWhile_not (!Text.isAlphanumeric ·) cs
    rw [hrest] at hfirst
    have hc : Text.isAlphanumeric c = true := by simpa using hfirst
    rcases List.mem_cons.1 h with rfl | h
    · rw [List.forall_mem_cons]
      refine ⟨⟨hsuffix.subset List.mem_cons_self, hc⟩, fun d hd => ⟨?_, List.mem_takeWhile_imp hd⟩⟩
      exact hsuffix.subset (List.mem_cons_of_mem c ((List.takeWhile_sublist _).subset hd))
    · intro d hd
      obtain ⟨hmem, halnum⟩ := ih h d hd
      have hrest := (List.dropWhile_suffix Text.isAlphanumeric).subset hmem
      exact ⟨hsuffix.subset (List.mem_cons_of_mem c hrest), halnum⟩

theorem isAlphanum_capitalize {part : List Char} (h : ∀ c ∈ part, c.isAlphanum = true) :
    ∀ c ∈ capitalize part, c.isAlphanum = true := by
  have hall : ∀ c ∈ (if part.length > 1 && !part.any Text.isLowercase then Text.lowercase part
      else part), c.isAlphanum = true := by
    split
    · exact Text.isAlphanum_lowercaseAfter h
    · exact h
  unfold capitalize
  split
  · simp
  · next c rest heq =>
    rw [heq, List.forall_mem_cons] at hall
    have hc := Text.toNat_lt_of_isAlphanum hall.1
    rw [Text.upper, if_pos hc, List.singleton_append, List.forall_mem_cons]
    exact ⟨Text.isAlphanum_toUpper hall.1, hall.2⟩

theorem isIdentifier_output {s : String} (h : Text.isAscii s.toList = true) :
    isIdentifier (output s) = true := by
  have hall : ∀ c ∈ ((parts s.toList).map capitalize).flatten, c.isAlphanum = true := by
    intro c hc
    rw [List.mem_flatten] at hc
    obtain ⟨cs, hcs, hc⟩ := hc
    obtain ⟨part, hpart, rfl⟩ := List.mem_map.1 hcs
    refine isAlphanum_capitalize (fun d hd => ?_) c hc
    obtain ⟨hmem, halnum⟩ := mem_parts hpart d hd
    rwa [Text.isAlphanumeric_of_ascii (Text.isAscii_iff.1 h d hmem)] at halnum
  rw [isIdentifier_iff, output]
  generalize ((parts s.toList).map capitalize).flatten = text at hall
  have hpart : ∀ c ∈ text, isPart c = true := by
    intro c hc
    rw [isPart, hall c hc, Bool.true_or]
  rw [String.toList_ofList]
  split
  · next hdigit =>
    rw [List.forall_mem_cons]
    exact ⟨⟨by decide, hpart⟩, '_', rfl, by decide⟩
  · next hdigit =>
    refine ⟨hpart, ?_⟩
    cases text with
    | nil => exact absurd rfl hdigit
    | cons c text => exact ⟨c, rfl, by simpa using hdigit⟩

theorem isIdentifier_parameter {s : String} (h : Text.isAscii s.toList = true) :
    isIdentifier (parameter s) = true := by
  have houtput := isIdentifier_output h
  rw [isIdentifier_iff] at houtput ⊢
  obtain ⟨hall, c, hc, hdigit⟩ := houtput
  unfold parameter
  split
  · next hnil =>
    rw [hnil] at hc
    cases hc
  · next d rest hcons =>
    rw [hcons, List.forall_mem_cons] at hall
    rw [hcons] at hc
    obtain rfl := Option.some.inj hc
    have hascii : ∀ c : Char, c.toNat < 128 → isPart c = true → c.isDigit = false →
        isPart c.toLower = true ∧ c.toLower.isDigit = false :=
      Text.forall_ascii (by decide)
    have hlt := toNat_lt_of_isPart hall.1
    obtain ⟨hpart, hdigit⟩ := hascii d hlt hall.1 hdigit
    rw [Text.lower, if_pos hlt, List.singleton_append, String.toList_ofList, List.forall_mem_cons]
    exact ⟨⟨hpart, hall.2⟩, _, rfl, hdigit⟩

end Name

end SqliteSchema
