import SqliteSchema.Parser.Value
import SqliteSchema.Proofs.Lexeme.Piece

/-!
The tokens of pieces, and what parsers take them for.
-/
namespace SqliteSchema

namespace Keyword

/-- Keywords have several characters, which are small letters and underscores. -/
theorem text_spec (k : Keyword) :
    2 ≤ k.text.toList.length ∧ ∀ c ∈ k.text.toList, c.isLower = true ∨ c = '_' := by
  have hall : ∀ k ∈ all, 2 ≤ k.text.toList.length ∧
      k.text.toList.all (fun c => c.isLower || c == '_') = true := by
    decide +kernel
  obtain ⟨hlength, hchars⟩ := hall k (mem_all k)
  refine ⟨hlength, fun c hc => ?_⟩
  simpa using List.all_eq_true.1 hchars c hc

theorem toList_display (k : Keyword) : k.display.toList = k.text.toList.map Char.toUpper := by
  rw [display, String.toUpper, String.toList_map]

theorem toLower_display (k : Keyword) : k.display.toLower = k.text := by
  have hchar {c : Char} (hc : c.isLower = true ∨ c = '_') : c.toUpper.toLower = c := by
    have hascii : ∀ c : Char, c.toNat < 128 → c.isLower = true ∨ c = '_' →
        c.toUpper.toLower = c :=
      Text.forall_ascii (by decide)
    have hlt : c.toNat < 128 := by
      rcases hc with hc | rfl
      · apply Text.toNat_lt_of_isAlpha
        delta Char.isAlpha
        rw [hc, Bool.or_true]
      · decide
    exact hascii c hlt hc
  rw [← String.toList_inj, toList_toLower, toList_display, List.map_map]
  refine (List.map_congr_left fun c hc => ?_).trans (List.map_id _)
  exact hchar ((text_spec k).2 c hc)

end Keyword

namespace Token

def ofMark (c : Char) : Token := ⟨String.ofList [c], .other, .start⟩

def ofName (s : String) : Token := ⟨String.ofList ('[' :: (s.toList ++ [']'])), .other, .start⟩

def ofWord (s : String) : Token := ⟨s, .other, .start⟩

def ofNumber (s : String) : Token := ⟨s, .number, .start⟩

def ofKeyword (k : Keyword) : Token := ofWord k.display

variable {s symbol : String} {c : Char} {k : Keyword}

theorem value_of_is {t : Token} (h : t.is symbol = true) : t.value = symbol := by
  simp only [is, Bool.and_eq_true, beq_iff_eq] at h
  exact h.2

/-- A token is one mark at most. -/
theorem is_of_is {t : Token} {symbol' : String} (ht : t.is symbol = true)
    (hsymbol : symbol ≠ symbol' := by decide) : t.is symbol' = false := by
  rw [is, value_of_is ht, beq_false_of_ne hsymbol, Bool.and_false]

theorem is_of_isLiteral {t : Token} (ht : t.isLiteral = true) : t.is symbol = false := by
  rw [is, ht, Bool.not_true, Bool.false_and]

theorem is_of_isQuoted {t : Token} (ht : t.isQuoted = true)
    (hsymbol : Literal.Quoted.inside? symbol.toList = none := by decide) :
    t.is symbol = false := by
  rw [Bool.eq_false_iff]
  intro his
  rw [isQuoted, value_of_is his, hsymbol, Option.isSome_none, Bool.and_false] at ht
  cases ht

/-- A word is one keyword at most. -/
theorem isKeyword_of_isKeyword {t : Token} {k' : Keyword} (ht : t.isKeyword k = true)
    (hk : k ≠ k' := by decide) : t.isKeyword k' = false := by
  rw [Bool.eq_false_iff]
  intro ht'
  rw [isKeyword_iff_keyword] at ht ht'
  exact hk (Option.some.inj (ht.symm.trans ht'))

theorem is_of_isKeyword {t : Token} (ht : t.isKeyword k = true)
    (hsymbol : symbol.toLower ≠ k.text := by decide +kernel) : t.is symbol = false := by
  rw [Bool.eq_false_iff]
  intro his
  have hvalue : t.value.toLower = k.text := eq_of_beq (Bool.and_eq_true_iff.1 ht).2
  rw [value_of_is his] at hvalue
  exact hsymbol hvalue

/-! ### Names -/

theorem inside?_ofName : Literal.Quoted.inside? (ofName s).value.toList = some s.toList := by
  rw [ofName, String.toList_ofList, Literal.Quoted.inside?, List.getLast?_concat,
    List.dropLast_concat]
  rfl

@[simp] theorem isIdentifier_ofName : (ofName s).isIdentifier = true := by
  rw [isIdentifier, isQuoted, inside?_ofName]
  rfl

@[simp] theorem unquoted_ofName : (ofName s).unquoted = s := by
  have h : (ofName s).unquoted =
      ((Literal.Quoted.inside? (ofName s).value.toList).map String.ofList).getD (ofName s).value :=
    rfl
  rw [h, inside?_ofName, Option.map_some, Option.getD_some, String.ofList_toList]

@[simp] theorem isKeyword_ofName : (ofName s).isKeyword k = false := by
  have hlower : '[' ∈ (ofName s).value.toLower.toList := by
    rw [ofName, toList_toLower, String.toList_ofList]
    exact List.mem_cons_self
  rw [Bool.eq_false_iff]
  intro h
  rw [isKeyword, Bool.and_eq_true, beq_iff_eq] at h
  exact absurd ((Keyword.text_spec k).2 '[' (h.2 ▸ hlower)) (by decide)

/-! ### Keywords -/

@[simp] theorem keyword_ofKeyword : (ofKeyword k).keyword = some k := by
  have h : (ofKeyword k).keyword = Keyword.ofText? k.display.toLower := rfl
  rw [h, Keyword.toLower_display, Keyword.ofText?_text]

theorem isKeyword_ofKeyword {k' : Keyword} : (ofKeyword k).isKeyword k' = decide (k = k') := by
  rw [Bool.eq_iff_iff, isKeyword_iff_keyword, keyword_ofKeyword, decide_eq_true_eq,
    Option.some_inj]

theorem isKeyword_self : (ofKeyword k).isKeyword k = true := by
  rw [isKeyword_ofKeyword, decide_eq_true_eq]

theorem find?_ofKeyword {ks : List Keyword} (h : k ∈ ks) :
    ks.find? (ofKeyword k).isKeyword = some k := by
  cases hf : ks.find? (ofKeyword k).isKeyword with
  | none => exact absurd isKeyword_self (List.find?_eq_none.1 hf k h)
  | some k' =>
    have hk := List.find?_some hf
    rw [isKeyword_ofKeyword, decide_eq_true_eq] at hk
    rw [hk]

theorem find?_ofKeyword_eq_none {ks : List Keyword} (h : k ∉ ks) :
    ks.find? (ofKeyword k).isKeyword = none := by
  refine List.find?_eq_none.2 fun k' hk' he => h ?_
  rw [isKeyword_ofKeyword, decide_eq_true_eq] at he
  exact he ▸ hk'

/-- No keyword is a mark. -/
theorem is_ofKeyword (h : symbol.toList.length = 1) : (ofKeyword k).is symbol = false := by
  rw [Bool.eq_false_iff]
  intro he
  rw [is, Bool.and_eq_true, beq_iff_eq] at he
  have hlength := congrArg (fun s => s.toList.length) he.2
  have hdisplay : (ofKeyword k).value.toList.length = k.text.toList.length := by
    rw [ofKeyword, ofWord, Keyword.toList_display, List.length_map]
  have hlong := (Keyword.text_spec k).1
  simp only [hdisplay] at hlength
  omega

/-! ### Marks -/

theorem isKeyword_ofMark (h : c ∈ Lexeme.punctuation) : (ofMark c).isKeyword k = false := by
  have hall : ∀ k ∈ Keyword.all, (ofMark c).isKeyword k = false := by
    simp only [Lexeme.punctuation, List.mem_cons, List.not_mem_nil, or_false] at h
    rcases h with rfl | rfl | rfl | rfl <;> decide +kernel
  exact hall k (Keyword.mem_all k)

end Token

namespace Piece

open Token

@[simp] theorem tokens_gap (c : Char) (xs : List Piece) : tokens (.gap c :: xs) = tokens xs := rfl

@[simp] theorem tokens_mark (c : Char) (xs : List Piece) :
    tokens (.mark c :: xs) = ofMark c :: tokens xs := rfl

@[simp] theorem tokens_name (s : String) (xs : List Piece) :
    tokens (.name s :: xs) = ofName s :: tokens xs := rfl

@[simp] theorem tokens_word (s : String) (xs : List Piece) :
    tokens (.word s :: xs) = ofWord s :: tokens xs := by
  have h : tokens (.word s :: xs) = ofWord (String.ofList s.toList) :: tokens xs := rfl
  rw [h, String.ofList_toList]

@[simp] theorem tokens_number (s : String) (xs : List Piece) :
    tokens (.number s :: xs) = ofNumber s :: tokens xs := by
  have h : tokens (.number s :: xs) = ofNumber (String.ofList s.toList) :: tokens xs := rfl
  rw [h, String.ofList_toList]

end Piece

end SqliteSchema
