import SqliteSchema.Proofs.Lexeme.FirstCharacter
import SqliteSchema.Proofs.Lexeme.Spelling

/-!
Texts that are put together from the tokens of another text. Names and numbers are read again where
white space, a mark or nothing follows, and a sign in front of a number. Such a text is cut into the
tokens that it is put together from.
-/
namespace SqliteSchema

namespace Lexeme

open Literal

variable {c d : Char} {rest tail : List Char} {kind : TokenKind} {n : Nat}

/-- White space or a punctuation mark follows, or nothing at all. -/
def Ended (tail : List Char) : Prop :=
  ∀ d ∈ tail.head?, Text.isWhiteSpace d = true ∨ d ∈ punctuation

theorem ended_mark (hc : c ∈ punctuation) (cs : List Char) : Ended (c :: cs) := by
  rintro d ⟨⟩
  exact .inr hc

theorem Ended.isDelimiter (h : Ended tail) : ∀ d ∈ tail.head?, isDelimiter d = true := by
  intro d hd
  rcases h d hd with hspace | hmark
  · exact (Text.isWhiteSpace_facts hspace).1
  · rw [Lexeme.isDelimiter, List.contains_iff_mem.2 hmark, Bool.or_true, Bool.true_or]

theorem Ended.bounds (h : Ended tail) : Number.Bounds tail := by
  have hall : ∀ d ∈ punctuation, Text.isAlphanumeric d = false ∧ d ≠ '_' ∧ d ≠ '.' := by
    rw [punctuation, List.forall_mem_cons, List.forall_mem_cons, List.forall_mem_cons,
      List.forall_mem_singleton]
    decide
  intro d hd
  rcases h d hd with hspace | hmark
  · obtain ⟨-, halnum, -, hmem, -⟩ := Text.isWhiteSpace_facts hspace
    simp only [List.mem_cons, not_or] at hmem
    exact ⟨halnum, hmem.2.2.1, hmem.2.1⟩
  · exact hall d hmark

theorem length_take_of_read (h : read c rest = .ok (.token kind n)) : (rest.take n).length = n := by
  obtain ⟨us, hus⟩ := kept_read h
  have hlength : us.length = n := hus.length
  exact List.length_take_of_le (hlength ▸ hus.front.length_le)

/-! ### Numbers -/

theorem read_number (h : StartsNumber c rest) :
    read c rest = literal .number .number (Number.scan (c :: rest)) := by
  rcases h with hdigit | ⟨rfl, d, hd, hdigit⟩
  · obtain ⟨hspace, hmem⟩ := Piece.isDigit_facts hdigit
    simp only [List.mem_cons, not_or] at hmem
    obtain ⟨-, -, hpoint, hminus, hslash, hmark⟩ := hmem
    have hmark : c ∉ punctuation := by simpa [punctuation] using hmark
    rw [Piece.read_eq_tokenAt hspace hminus hslash]
    simp [tokenAt, hmark, hpoint, hdigit]
  · rw [Piece.read_eq_tokenAt (by decide) (by decide) (by decide), tokenAt_point,
      if_pos ((Option.any_eq_true _ _).2 ⟨d, hd, hdigit⟩)]

/-- A number is read again in front of anything that ends it. -/
theorem read_number_again (h : read c rest = .ok (.token .number n)) (ht : Ended tail) :
    read c (rest.take n ++ tail) = .ok (.token .number n) := by
  obtain ⟨hstart, m, hscan, rfl⟩ := readAs_of_read h
  obtain ⟨ds, left, heq, hds, -, rfl⟩ := Number.exists_numeral hscan hstart
  obtain ⟨d, us, rfl, hpoint⟩ := hds.exists_cons
  obtain ⟨rfl, hrest⟩ := List.cons.inj heq
  have htake : rest.take ((c :: us).length - 1) = us := hrest ▸ List.take_left
  have hstart' : StartsNumber c (us ++ tail) := by
    refine hstart.imp_right fun ⟨hc, _⟩ => ⟨hc, ?_⟩
    obtain ⟨d, hd, hdigit⟩ := hpoint hc
    exact ⟨d, by rw [List.head?_append, hd]; rfl, hdigit⟩
  rw [htake, read_number hstart', literal_eq_ok]
  exact ⟨_, Number.scan_append hds ht.bounds, rfl⟩

/-- A sign is a token of its own in front of a number. -/
theorem read_sign (hc : c = '+' ∨ c = '-') (h : StartsNumber d rest) :
    read c (d :: rest) = .ok (.token (.operator true true) 0) := by
  -- Two minus signs open a comment, and the other operators with one are arrows.
  have hd : d ≠ '-' ∧ d ≠ '>' := by
    rcases h with hdigit | ⟨rfl, -⟩
    · constructor
      · rintro rfl
        cases hdigit
      · rintro rfl
        cases hdigit
    · decide
  rcases hc with rfl | rfl
  · rfl
  · rw [read_cons, if_neg (by decide), if_neg (by simp [hd.1]), if_neg (by simp)]
    have hmatch : Operator.match? ('-' :: d :: rest) = some { symbol := "-", unary := true } := by
      simp [Operator.match?, Operator.symbols, List.isPrefixOf, beq_eq_false_iff_ne.2 hd.2.symm]
    have htoken : tokenAt '-' (d :: rest) = operatorOrWord '-' (d :: rest) := rfl
    rw [htoken, operatorOrWord, hmatch]
    rfl

/-! ### Names -/

/-- A name in quotes is read again in front of anything. -/
theorem read_quoted_again {close : Char} (hc : Quoted.closing? c = some close)
    (h : Quoted.identifierTail close rest = some n) (tail : List Char) :
    read c (rest.take n ++ tail) = .ok (.token .other n) := by
  have hread (cs : List Char) : read c cs =
      closed .other .unterminatedIdentifier (Quoted.identifierTail close cs) := by
    rcases closing?_cases hc with ⟨rfl, rfl⟩ | ⟨rfl, rfl⟩ | ⟨rfl, rfl⟩
    · rfl
    · rfl
    · rfl
  have hlength : (rest.take n).length = n :=
    List.length_take_of_le (Quoted.identifierTail_le h)
  rw [← List.take_append_drop n rest] at h
  rw [hread, closed_eq_ok]
  exact ⟨n, Quoted.identifierTail_append h (Nat.le_of_eq hlength.symm) tail, rfl⟩

/-- No operator starts with a character of a word. -/
theorem match?_eq_none_of_word (hc : isDelimiter c = false) (cs : List Char) :
    Operator.match? (c :: cs) = none := by
  have hall : ∀ op ∈ Operator.symbols, op.symbol.toList.head?.any isDelimiter = true := by decide
  rw [Operator.match?, List.find?_eq_none]
  intro op hop hleads
  obtain ⟨a, ha, hdelimiter⟩ := (Option.any_eq_true _ _).1 (hall op hop)
  obtain ⟨as, has⟩ := List.head?_eq_some_iff.1 ha
  rw [has, List.isPrefixOf_iff_prefix, List.cons_prefix_cons] at hleads
  rw [hleads.1, hc] at hdelimiter
  cases hdelimiter

/-- Only words start with such a character, and blobs. -/
theorem read_eq_operatorOrWord (hc : isDelimiter c = false) (hdigit : c.isDigit = false)
    (hquote : rest.head? ≠ some '\'') : read c rest = operatorOrWord c rest := by
  simp only [isDelimiter, Bool.or_eq_false_iff, List.contains_eq_mem, decide_eq_false_iff_not,
    List.mem_cons, not_or] at hc
  obtain ⟨⟨hspace, hmark⟩, hpoint, hstring, hdouble, hback, hbracket, -, hminus, -, -, -, -, -,
    hslash, -⟩ := hc
  have hclosing : Quoted.closing? c = none := by
    rw [Quoted.closing?, if_neg hbracket, if_neg hdouble, if_neg hback]
  rw [Piece.read_eq_tokenAt hspace hminus hslash, tokenAt]
  simp only [List.contains_eq_mem, decide_eq_false hmark, beq_eq_false_iff_ne.2 hpoint,
    beq_eq_false_iff_ne.2 hstring, hdigit, beq_eq_false_iff_ne.2 hquote, hclosing, Bool.false_and,
    Bool.and_false, Bool.or_false, Bool.false_eq_true, if_false]

/-- A plain word is read again in front of anything that ends it, if it is no word operator there. -/
theorem read_word_again (h : operatorOrWord c rest = .ok (.token .other n))
    (hdigit : c.isDigit = false) (hw : ¬ SpellsOperator (c :: rest.take n)) (ht : Ended tail) :
    read c (rest.take n ++ tail) = .ok (.token .other n) := by
  unfold operatorOrWord at h
  split at h
  · cases h
  split at h
  · cases h
  unfold word at h
  split at h
  · cases h
  next hc =>
  cases h
  rw [Bool.not_eq_true] at hc
  obtain ⟨us, left, rfl, hus, hleft⟩ := exists_leading (!isDelimiter ·) rest
  rw [leading_append hus hleft, List.take_left] at hw ⊢
  have hword : ∀ a ∈ c :: us, isDelimiter a = false :=
    List.forall_mem_cons.2 ⟨hc, fun a ha => by simpa using hus a ha⟩
  have hspace : ∀ a ∈ c :: us, Text.isWhiteSpace a = false :=
    fun a ha => isWhiteSpace_of_word (hword a ha)
  have hquote : (us ++ tail).head? ≠ some '\'' := by
    cases us with
    | nil =>
      intro hhead
      rcases ht _ hhead with hhead | hhead
      · cases hhead
      · exact absurd hhead (by decide)
    | cons a us =>
      rintro ⟨⟩
      exact absurd (hword '\'' (by simp)) (by decide)
  rw [read_eq_operatorOrWord hc hdigit hquote, operatorOrWord, match?_eq_none_of_word hc,
    ← List.cons_append, Piece.word?_append hspace ht.isDelimiter, if_neg fun h => hw h.1]
  exact Piece.word_append hword ht.isDelimiter

/-- The characters that a name can start with. -/
def StartsName (c : Char) : Prop := (Quoted.closing? c).isSome = true ∨ Token.startsWord c = true

/-- A name is read again in front of anything that ends it, if it is no word operator there. -/
theorem read_name_again (h : read c rest = .ok (.token .other n)) (hc : StartsName c)
    (hw : ¬ SpellsOperator (c :: rest.take n)) (ht : Ended tail) :
    read c (rest.take n ++ tail) = .ok (.token .other n) := by
  obtain ⟨-, -, htoken⟩ := read_eq_token.1 h
  have hbegins := begins_tokenAt c rest
  generalize tokenAt c rest = o at htoken hbegins
  cases hbegins with
  | mark hmark =>
    have hall : ∀ c ∈ '.' :: punctuation, Quoted.closing? c = none ∧ Token.startsWord c = false := by
      rw [punctuation, List.forall_mem_cons, List.forall_mem_cons, List.forall_mem_cons,
        List.forall_mem_cons, List.forall_mem_singleton]
      decide
    obtain ⟨hclosing, hstarts⟩ := hall c (List.mem_cons.2 hmark.symm)
    rcases hc with hc | hc
    · rw [hclosing] at hc
      cases hc
    · rw [hstarts] at hc
      cases hc
  | number =>
    obtain ⟨m, -, hl⟩ := literal_eq_ok.1 htoken
    cases hl
  | string =>
    obtain ⟨m, -, hl⟩ := closed_eq_ok.1 htoken
    cases hl
  | blob =>
    obtain ⟨m, -, hl⟩ := literal_eq_ok.1 htoken
    cases hl
  | identifier hopen =>
    obtain ⟨m, htail, hl⟩ := closed_eq_ok.1 htoken
    cases hl
    exact read_quoted_again hopen htail tail
  | word hmark hclosing =>
    refine read_word_again htoken ?_ hw ht
    -- A digit would have started a number.
    rw [Bool.eq_false_iff]
    intro hdigit
    rw [read_number (.inl hdigit)] at h
    obtain ⟨m, -, hl⟩ := literal_eq_ok.1 h
    cases hl

end Lexeme

namespace Token

variable {t : Token} {as ts : List Token} {cs tail : List Char} {p : Position}

/-- The token is read where its text stands in front of this one. -/
def ReadBefore (t : Token) (cs : List Char) : Prop :=
  ∃ c us, t.value.toList = c :: us ∧ Lexeme.read c (us ++ cs) = .ok (.token t.kind us.length)

theorem readBefore_ofMark {c : Char} (hc : c ∈ Lexeme.punctuation) (cs : List Char) :
    (ofMark c).ReadBefore cs :=
  ⟨c, [], String.toList_ofList, Piece.read_mark hc _⟩

/-- The token is read again from its own text in front of anything that ends it. -/
def Rereads (t : Token) : Prop := ∀ tail, Lexeme.Ended tail → t.ReadBefore tail

theorem isIdentifier_eq_true {c : Char} {us : List Char} (h : t.isIdentifier = true)
    (hvalue : t.value.toList = c :: us) : t.kind = .other ∧ Lexeme.StartsName c := by
  rw [isIdentifier, Bool.and_eq_true, Bool.or_eq_true, isQuoted, Bool.and_eq_true, hvalue] at h
  obtain ⟨hkind, hstarts⟩ := h
  refine ⟨eq_of_beq hkind, hstarts.imp (fun hboth => ?_) id⟩
  obtain ⟨-, hquoted⟩ := hboth
  unfold Literal.Quoted.inside? at hquoted
  dsimp only at hquoted
  split at hquoted
  · next hclosing => exact (Bool.and_eq_true_iff.1 hclosing).1
  · cases hquoted

/-- Names that are no word operators and numbers are read again. -/
theorem rereads_of_stream (h : stream p cs = .ok ts) : ∀ t ∈ ts,
    t.isIdentifier = true ∧ t.value.toLower ∉ Lexeme.Operator.words ∨ t.kind = .number →
      t.Rereads := by
  refine forall_of_stream (fun {c rest kind n} hread p ht tail htail => ?_) h
  have hvalue : (String.ofList (c :: rest.take n)).toList = c :: rest.take n := String.toList_ofList
  refine ⟨c, rest.take n, hvalue, ?_⟩
  dsimp only
  rw [Lexeme.length_take_of_read hread]
  rcases ht with ⟨hname, hword⟩ | hnumber
  · obtain ⟨hkind, hstarts⟩ := isIdentifier_eq_true hname hvalue
    obtain rfl : kind = .other := hkind
    rw [← Lexeme.spellsOperator_toList, hvalue] at hword
    exact Lexeme.read_name_again hread hstarts hword htail
  · obtain rfl : kind = .number := hnumber
    exact Lexeme.read_number_again hread htail

/-- A text that is put together from these tokens. -/
inductive Rejoined : List Char → List Token → Prop
  | nil : Rejoined [] []
  | space {cs : List Char} {as : List Token} (h : Rejoined cs as) : Rejoined (' ' :: cs) as
  | token {t : Token} {cs : List Char} {as : List Token} (ht : t.ReadBefore cs)
    (h : Rejoined cs as) : Rejoined (t.value.toList ++ cs) (t.atStart :: as)

/-- Its tokens are these. -/
theorem Rejoined.exists_stream (h : Rejoined cs as) (p : Position) :
    ∃ ts, stream p cs = .ok ts ∧ ts.map atStart = as := by
  induction h generalizing p with
  | nil => exact ⟨[], stream_nil p, rfl⟩
  | space _ ih =>
    obtain ⟨ts, hts, has⟩ := ih (p.after [' '])
    exact ⟨ts, by rw [stream_space, hts], has⟩
  | @token t cs as ht _ ih =>
    obtain ⟨c, us, hvalue, hread⟩ := ht
    obtain ⟨ts, hts, rfl⟩ := ih (p.after (c :: us))
    refine ⟨⟨t.value, t.kind, p⟩ :: ts, ?_, rfl⟩
    rw [hvalue, List.cons_append, stream_token hread, List.take_left, List.drop_left, hts,
      ← hvalue, String.ofList_toList]
    rfl

end Token

end SqliteSchema
