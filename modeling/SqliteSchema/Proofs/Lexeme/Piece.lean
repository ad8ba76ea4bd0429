import Mathlib.Data.List.Chain
import SqliteSchema.Proofs.Text.Character

/-!
Texts that are put together from tokens and gaps. Where no word or number touches another one, the
text is cut into exactly these tokens.
-/
namespace SqliteSchema

theorem toList_toLower (s : String) : s.toLower.toList = s.toList.map Char.toLower :=
  String.toList_map

/-- The token without its place. -/
def Token.atStart (t : Token) : Token := { t with position := .start }

namespace Token

/-- Tokens that differ in their places at most. -/
inductive Same : Token → Token → Prop
  | intro (value : String) (kind : TokenKind) (p q : Position) :
    Same ⟨value, kind, p⟩ ⟨value, kind, q⟩

theorem Same.refl (t : Token) : t.Same t := ⟨t.value, t.kind, t.position, t.position⟩

theorem same_iff {t t' : Token} : t.Same t' ↔ t.atStart = t'.atStart := by
  constructor
  · rintro ⟨v, k, p, q⟩
    rfl
  · obtain ⟨v, k, p⟩ := t
    obtain ⟨v', k', q⟩ := t'
    intro h
    simp only [atStart, mk.injEq, and_true] at h
    obtain ⟨rfl, rfl⟩ := h
    exact ⟨v, k, p, q⟩

/-- What does not hang on a token's place is the same. -/
theorem Same.congr {β : Type} {f : Token → β} (hf : ∀ t, f t = f t.atStart) {t t' : Token}
    (h : t.Same t') : f t = f t' := by
  rw [hf t, same_iff.1 h, ← hf t']

end Token

/-- A piece of a text: a gap, a punctuation mark, a name in brackets, a word, or a number. -/
inductive Piece
  | gap (c : Char)
  | mark (c : Char)
  | name (s : String)
  | word (s : String)
  | number (s : String)
  deriving DecidableEq, Repr

namespace Piece

def text : Piece → List Char
  | gap c => [c]
  | mark c => [c]
  | name s => '[' :: (s.toList ++ [']'])
  | word s => s.toList
  | number s => s.toList

def kind? : Piece → Option TokenKind
  | gap _ => none
  | number _ => some .number
  | _ => some .other

/-- The token of a piece that stands at a place. -/
def tokenAt (p : Position) (x : Piece) : Option Token :=
  x.kind?.map fun kind => ⟨String.ofList x.text, kind, p⟩

/-- Words and numbers, which have no delimiters of their own. -/
def isBare : Piece → Bool
  | word _ => true
  | number _ => true
  | _ => false

/-- The piece is read back as one lexeme. -/
def Valid : Piece → Prop
  | gap c => c = ' ' ∨ c = '\n'
  | mark c => c ∈ Lexeme.punctuation
  | name s => ']' ∉ s.toList
  | word s => s ≠ "" ∧ s.toList.all Char.isAlpha = true ∧ s.toLower ∉ Lexeme.Operator.words
  | number s => s ≠ "" ∧ s.toList.all Char.isDigit = true

instance (x : Piece) : Decidable x.Valid :=
  match x with
  | gap c => inferInstanceAs (Decidable (c = ' ' ∨ c = '\n'))
  | mark c => inferInstanceAs (Decidable (c ∈ Lexeme.punctuation))
  | name s => inferInstanceAs (Decidable (']' ∉ s.toList))
  | word s => inferInstanceAs (Decidable
      (s ≠ "" ∧ s.toList.all Char.isAlpha = true ∧ s.toLower ∉ Lexeme.Operator.words))
  | number s => inferInstanceAs (Decidable (s ≠ "" ∧ s.toList.all Char.isDigit = true))

/-- What a piece without bare text starts with. -/
def openers : List Char := [' ', '\n', ',', '(', ')', ';', '[']

/-- Nothing follows, or something that ends words and numbers. -/
def Closes (cs : List Char) : Prop := ∀ c ∈ cs.head?, c ∈ openers

def chars (xs : List Piece) : List Char := xs.flatMap text

@[simp] theorem chars_cons (x : Piece) (xs : List Piece) : chars (x :: xs) = x.text ++ chars xs :=
  List.flatMap_cons

@[simp] theorem chars_append (xs ys : List Piece) : chars (xs ++ ys) = chars xs ++ chars ys :=
  List.flatMap_append

/-- The tokens of a text that starts at a place. -/
def place (p : Position) : List Piece → List Token
  | [] => []
  | x :: xs => (x.tokenAt p).toList ++ place (p.after x.text) xs

/-- Every piece is valid, and bare pieces do not touch. -/
structure Separate (xs : List Piece) : Prop where
  valid : ∀ x ∈ xs, x.Valid
  chain : xs.IsChain fun x y => x.isBare = true → y.isBare = false

/-! ### Classes of characters -/

/-- No letter belongs to another class of characters that the reader asks for. -/
theorem isAlpha_facts {c : Char} (h : c.isAlpha = true) :
    Text.isWhiteSpace c = false ∧ Lexeme.isDelimiter c = false ∧ c.isDigit = false ∧
      Literal.Quoted.closing? c = none ∧ c ∉ '\'' :: '.' :: '-' :: '/' :: Lexeme.punctuation := by
  have hascii : ∀ c : Char, c.toNat < 128 → c.isAlpha = true →
      Text.isWhiteSpace c = false ∧ Lexeme.isDelimiter c = false ∧ c.isDigit = false ∧
        Literal.Quoted.closing? c = none ∧
        c ∉ '\'' :: '.' :: '-' :: '/' :: Lexeme.punctuation :=
    Text.forall_ascii (by decide)
  exact hascii c (Text.toNat_lt_of_isAlpha h) h

theorem isDigit_facts {c : Char} (h : c.isDigit = true) :
    Text.isWhiteSpace c = false ∧ c ∉ 'x' :: 'X' :: '.' :: '-' :: '/' :: Lexeme.punctuation := by
  have hascii : ∀ c : Char, c.toNat < 128 → c.isDigit = true →
      Text.isWhiteSpace c = false ∧ c ∉ 'x' :: 'X' :: '.' :: '-' :: '/' :: Lexeme.punctuation :=
    Text.forall_ascii (by decide)
  exact hascii c (Text.toNat_lt_of_isDigit h) h

theorem openers_facts : ∀ c ∈ openers,
    Lexeme.isDelimiter c = true ∧ Text.isAlphanumeric c = false ∧ c.isDigit = false ∧
      c.isAlpha = false ∧ c ∉ ['\'', '.', 'e', 'E', 'x', 'X', '_'] := by
  intro c hc
  simp only [openers, List.mem_cons, List.not_mem_nil, or_false] at hc
  rcases hc with rfl | rfl | rfl | rfl | rfl | rfl | rfl <;> decide

/-! ### Reading one piece -/

theorem match?_eq_none {c : Char} (h : c.isAlpha = true) (rest : List Char) :
    Lexeme.Operator.match? (c :: rest) = none := by
  have hall : ∀ op ∈ Lexeme.Operator.symbols, ∃ a as, op.symbol.toList = a :: as ∧
      a.isAlpha = false := by
    intro op hop
    have hne : op.symbol.toList.head?.any (!·.isAlpha) = true := by
      revert op hop
      decide
    cases hs : op.symbol.toList with
    | nil => simp [hs] at hne
    | cons a as => exact ⟨a, as, rfl, by simpa [hs] using hne⟩
  rw [Lexeme.Operator.match?, List.find?_eq_none]
  intro op hop
  obtain ⟨a, as, hs, ha⟩ := hall op hop
  have hne : a ≠ c := fun he => by simp [he, h] at ha
  simp [hs, hne]

/-- The word operators are spelled with letters. -/
theorem isAlpha_of_toLower_mem {w : String} (hw : w ∈ Lexeme.Operator.words) {c : Char}
    (hc : c.toLower ∈ w.toList) : c.isAlpha = true := by
  have hwords : Lexeme.Operator.words.all (fun w => w.toList.all Char.isAlpha) = true := by decide
  have hall := List.all_eq_true.1 (List.all_eq_true.1 hwords w hw)
  rcases Text.toLower_eq_or_isAlpha c with h | ⟨h, -⟩
  · rw [h] at hc
    exact hall c hc
  · exact h

/-- A word operator stands at the front of a text if the word there is spelled like it and white
space follows. -/
theorem matchesWord_append {cs rest : List Char} (hcs : ∀ c ∈ cs, Text.isWhiteSpace c = false)
    (hr : ∀ c ∈ rest.head?, Lexeme.isDelimiter c = true) {w : String}
    (hw : w ∈ Lexeme.Operator.words) :
    (((cs ++ rest).take w.length).map Char.toLower == w.toList &&
      ((cs ++ rest).drop w.length).head?.any Text.isWhiteSpace) = true ↔
    cs.map Char.toLower = w.toList ∧ rest.head?.any Text.isWhiteSpace = true := by
  rw [Bool.and_eq_true, beq_iff_eq]
  have hlength (heq : cs.map Char.toLower = w.toList) : cs.length = w.length := by
    rw [← String.length_toList, ← heq, List.length_map]
  rcases Nat.lt_trichotomy w.length cs.length with hl | hl | hl
  · -- A character of the word follows the operator.
    have hc := hcs cs[w.length] (List.getElem_mem hl)
    rw [List.drop_append_of_le_length (Nat.le_of_lt hl), List.drop_eq_getElem_cons hl,
      List.cons_append, List.head?_cons, Option.any_some, hc]
    constructor
    · rintro ⟨-, ⟨⟩⟩
    · intro h
      have heq := hlength h.1
      omega
  · rw [hl, List.take_left, List.drop_left]
  · constructor
    · rintro ⟨htake, -⟩
      cases rest with
      | nil =>
        have hshort := congrArg List.length htake
        rw [List.append_nil, List.length_map, List.length_take, String.length_toList] at hshort
        omega
      | cons c rest =>
        -- What follows the word would be a letter of the operator.
        have hc : c ∈ (cs ++ c :: rest).take w.length := by
          obtain ⟨k, hk⟩ : ∃ k, w.length - cs.length = k + 1 :=
            ⟨w.length - cs.length - 1, by omega⟩
          rw [List.take_append, hk, List.take_succ_cons]
          simp
        have hletter := isAlpha_of_toLower_mem hw (htake ▸ List.mem_map_of_mem hc)
        have hdelimiter := hr c rfl
        rw [(isAlpha_facts hletter).2.1] at hdelimiter
        cases hdelimiter
    · intro h
      have heq := hlength h.1
      omega

/-- A word is an operator if it is spelled like one and white space follows. -/
theorem word?_append {cs rest : List Char} (hcs : ∀ c ∈ cs, Text.isWhiteSpace c = false)
    (hr : ∀ c ∈ rest.head?, Lexeme.isDelimiter c = true) :
    Lexeme.Operator.word? (cs ++ rest) =
      if cs.map Char.toLower ∈ Lexeme.Operator.words.map String.toList ∧
        rest.head?.any Text.isWhiteSpace = true then some cs.length else none := by
  unfold Lexeme.Operator.word?
  split
  · next h =>
    obtain ⟨hspelled, hspace⟩ := h
    obtain ⟨w, hw, heq⟩ := List.mem_map.1 hspelled
    cases hfind : List.find? _ Lexeme.Operator.words with
    | none =>
      have hmatches := (matchesWord_append hcs hr hw).2 ⟨heq.symm, hspace⟩
      exact absurd hmatches (List.find?_eq_none.1 hfind w hw)
    | some v =>
      have hfound := List.find?_some hfind
      have hmem : v ∈ Lexeme.Operator.words := List.mem_of_find?_eq_some hfind
      obtain ⟨hv, -⟩ := (matchesWord_append hcs hr hmem).1 hfound
      rw [Option.map_some, ← String.length_toList, ← hv, List.length_map]
  · next h =>
    rw [Option.map_eq_none_iff, List.find?_eq_none]
    intro w hw hfound
    obtain ⟨heq, hspace⟩ := (matchesWord_append hcs hr hw).1 hfound
    exact h ⟨List.mem_map.2 ⟨w, hw, heq.symm⟩, hspace⟩

/-- A word ends where a delimiter follows. -/
theorem word_append {c : Char} {cs rest : List Char}
    (hcs : ∀ a ∈ c :: cs, Lexeme.isDelimiter a = false)
    (hr : ∀ a ∈ rest.head?, Lexeme.isDelimiter a = true) :
    Lexeme.word c (cs ++ rest) = .ok (.token .other cs.length) := by
  rw [List.forall_mem_cons] at hcs
  rw [Lexeme.word, hcs.1, Literal.leading_append]
  · rfl
  · intro a ha
    rw [hcs.2 a ha]
    rfl
  · intro a ha
    rw [hr a ha]
    rfl

/-- Only comments and gaps are no tokens. -/
theorem read_eq_tokenAt {c : Char} (hspace : Text.isWhiteSpace c = false) (hm : c ≠ '-')
    (hs : c ≠ '/') (rest : List Char) : Lexeme.read c rest = Lexeme.tokenAt c rest := by
  unfold Lexeme.read
  rw [hspace]
  split
  · contradiction
  · split
    · exact absurd rfl hm
    · exact absurd rfl hs
    · rfl

theorem read_gap {c : Char} (hc : c = ' ' ∨ c = '\n') (rest : List Char) :
    Lexeme.read c rest = .ok (.gap 0) := by
  rcases hc with rfl | rfl
  · rfl
  · rfl

theorem read_mark {c : Char} (hc : c ∈ Lexeme.punctuation) (rest : List Char) :
    Lexeme.read c rest = .ok (.token .other 0) := by
  simp only [Lexeme.punctuation, List.mem_cons, List.not_mem_nil, or_false] at hc
  rcases hc with rfl | rfl | rfl | rfl
  · rfl
  · rfl
  · rfl
  · rfl

theorem read_name {cs : List Char} (hcs : ']' ∉ cs) (rest : List Char) :
    Lexeme.read '[' (cs ++ ']' :: rest) = .ok (.token .other (cs.length + 1)) := by
  have htail : Literal.Quoted.identifierTail ']' (cs ++ ']' :: rest) = some (cs.length + 1) := by
    have hfind : (cs ++ ']' :: rest).findIdx? (· == ']') = some cs.length := by
      have hnone : cs.findIdx? (· == ']') = none := by
        rw [List.findIdx?_eq_none_iff]
        intro a ha
        rw [beq_eq_false_iff_ne]
        exact fun he => hcs (he ▸ ha)
      rw [List.findIdx?_append, hnone, List.findIdx?_cons]
      simp
    rw [Literal.Quoted.identifierTail, hfind]
    rfl
  have hread : Lexeme.read '[' (cs ++ ']' :: rest) =
      Lexeme.closed .other .unterminatedIdentifier
        (Literal.Quoted.identifierTail ']' (cs ++ ']' :: rest)) := rfl
  rw [hread, htail]
  rfl

/-- A letter starts a word, or a blob if it is an `x` in front of a quote. -/
theorem read_letter {c : Char} (hc : c.isAlpha = true) {rest : List Char}
    (hquote : rest.head? ≠ some '\'') : Lexeme.read c rest = Lexeme.operatorOrWord c rest := by
  obtain ⟨hspace, hdelimiter, hdigit, hquoted, hmem⟩ := isAlpha_facts hc
  simp only [List.mem_cons, not_or] at hmem
  obtain ⟨hq, hp, hm, hs, hmem⟩ := hmem
  have hmem : Lexeme.punctuation.contains c = false := by
    simpa [Lexeme.punctuation] using hmem
  -- None of the special cases applies to a letter.
  rw [read_eq_tokenAt hspace hm hs, Lexeme.tokenAt]
  simp only [hmem, beq_eq_false_iff_ne.2 hp, beq_eq_false_iff_ne.2 hq, hdigit,
    beq_eq_false_iff_ne.2 hquote, hquoted, Bool.false_and, Bool.and_false, Bool.or_false,
    Bool.false_eq_true, if_false]

theorem read_word {c : Char} {cs rest : List Char} (hcs : ∀ a ∈ c :: cs, a.isAlpha = true)
    (hw : (c :: cs).map Char.toLower ∉ Lexeme.Operator.words.map String.toList)
    (hr : Closes rest) : Lexeme.read c (cs ++ rest) = .ok (.token .other cs.length) := by
  have hc : c.isAlpha = true := hcs c List.mem_cons_self
  have hword : Lexeme.Operator.word? (c :: (cs ++ rest)) = none := by
    rw [← List.cons_append, word?_append (fun a ha => (isAlpha_facts (hcs a ha)).1)
      (fun a ha => (openers_facts a (hr a ha)).1), if_neg fun h => hw h.1]
  have hquote : (cs ++ rest).head? ≠ some '\'' := by
    cases cs with
    | nil => exact fun he => absurd (hr _ he) (by decide)
    | cons a cs =>
      intro he
      have ha := (isAlpha_facts (hcs a (by simp))).2.2.2.2
      cases he
      exact ha List.mem_cons_self
  rw [read_letter hc hquote, Lexeme.operatorOrWord, match?_eq_none hc, hword]
  exact word_append (fun a ha => (isAlpha_facts (hcs a ha)).2.1)
    fun a ha => (openers_facts a (hr a ha)).1

theorem scan_digits {cs rest : List Char} (hcs : ∀ a ∈ cs, a.isDigit = true) (hr : Closes rest) :
    Literal.Number.scan (cs ++ rest) = .ok cs.length := by
  have hsecond (a b : Char) (tail : List Char) (h : cs ++ rest = a :: b :: tail) :
      a ∉ openers → b ≠ 'x' ∧ b ≠ 'X' := by
    intro ha
    match cs, h, hcs with
    | [], h, _ => exact absurd (hr a (by rw [List.nil_append] at h; simp [h])) ha
    | [_], h, _ =>
      have hb := (openers_facts b (hr b (by simp at h; simp [h.2]))).2.2.2.2
      simp at hb
      exact ⟨hb.2.2.2.2.1, hb.2.2.2.2.2.1⟩
    | _ :: c :: _, h, hcs =>
      have hc := (isDigit_facts (hcs c (by simp))).2
      simp at h hc
      exact ⟨h.2.1 ▸ hc.1, h.2.1 ▸ hc.2.1⟩
  have hdecimal : Literal.Number.decimal (cs ++ rest) = .ok cs.length := by
    have hdigit : ∀ c ∈ rest.head?, c.isDigit = false :=
      fun c hc => (openers_facts c (hr c hc)).2.2.1
    rw [Literal.Number.decimal, Literal.leading_append hcs hdigit]
    simp only [List.drop_left]
    cases rest with
    | nil => rfl
    | cons c rest =>
      obtain ⟨-, halnum, -, -, hmem⟩ := openers_facts c (hr c rfl)
      simp only [List.mem_cons, List.not_mem_nil, not_or] at hmem
      obtain ⟨-, hp, he, hE, -, -, hu, -⟩ := hmem
      simp [Literal.Number.scale, Literal.Number.finish, hp, he, hE, halnum, hu]
  unfold Literal.Number.scan
  split
  · next h => exact absurd rfl (hsecond _ _ _ h (by decide)).1
  · next h => exact absurd rfl (hsecond _ _ _ h (by decide)).2
  · exact hdecimal

theorem read_number {c : Char} {cs rest : List Char} (hcs : ∀ a ∈ c :: cs, a.isDigit = true)
    (hr : Closes rest) : Lexeme.read c (cs ++ rest) = .ok (.token .number cs.length) := by
  have hc : c.isDigit = true := hcs c List.mem_cons_self
  obtain ⟨hspace, hmem⟩ := isDigit_facts hc
  have hscan := scan_digits hcs hr
  rw [List.cons_append] at hscan
  simp only [List.mem_cons, not_or] at hmem
  obtain ⟨-, -, hp, hm, hs, hmem⟩ := hmem
  have hmem : Lexeme.punctuation.contains c = false := by
    simpa [Lexeme.punctuation] using hmem
  rw [read_eq_tokenAt hspace hm hs, Lexeme.tokenAt]
  simp only [hmem, beq_eq_false_iff_ne.2 hp, hc, hscan, Bool.false_and, Bool.or_true,
    Bool.false_eq_true, if_false, if_true]
  rfl

/-- The lexeme at the front of a piece is the whole piece. -/
theorem read_text {x : Piece} (hx : x.Valid) {rest : List Char}
    (hr : x.isBare = true → Closes rest) :
    ∃ c cs, x.text = c :: cs ∧ Lexeme.read c (cs ++ rest) =
      .ok (x.kind?.elim (.gap cs.length) fun kind => .token kind cs.length) := by
  cases x with
  | gap c => exact ⟨c, [], rfl, read_gap hx rest⟩
  | mark c => exact ⟨c, [], rfl, read_mark hx rest⟩
  | name s =>
    refine ⟨'[', s.toList ++ [']'], rfl, ?_⟩
    rw [List.append_assoc, List.length_append]
    exact read_name hx rest
  | word s =>
    obtain ⟨hne, hletters, hword⟩ := hx
    obtain ⟨c, cs, hs⟩ := List.exists_cons_of_ne_nil (mt String.toList_eq_nil_iff.1 hne)
    refine ⟨c, cs, hs, ?_⟩
    rw [hs, List.all_eq_true] at hletters
    refine read_word hletters (fun hm => hword ?_) (hr rfl)
    obtain ⟨w, hw, he⟩ := List.mem_map.1 hm
    have hlower : s.toLower = w := by
      rw [← String.toList_inj, toList_toLower, hs, he]
    exact hlower ▸ hw
  | number s =>
    obtain ⟨hne, hdigits⟩ := hx
    obtain ⟨c, cs, hs⟩ := List.exists_cons_of_ne_nil (mt String.toList_eq_nil_iff.1 hne)
    rw [hs, List.all_eq_true] at hdigits
    exact ⟨c, cs, hs, read_number hdigits (hr rfl)⟩

theorem stream_text {x : Piece} (hx : x.Valid) {rest : List Char}
    (hr : x.isBare = true → Closes rest) (p : Position) :
    Token.stream p (x.text ++ rest) =
      (Token.stream (p.after x.text) rest).map ((x.tokenAt p).toList ++ ·) := by
  obtain ⟨c, cs, htext, hread⟩ := read_text hx hr
  rw [htext, List.cons_append, Token.stream, hread]
  cases hk : x.kind? with
  | none =>
    simp only [tokenAt, hk, Option.elim_none, List.drop_left, List.take_left, htext]
    cases Token.stream (p.after (c :: cs)) rest <;> rfl
  | some kind => simp [tokenAt, hk, htext]

theorem closes_chars {xs : List Piece} (hv : ∀ x ∈ xs, x.Valid)
    (hb : ∀ x ∈ xs.head?, x.isBare = false) : Closes (chars xs) := by
  cases xs with
  | nil => exact nofun
  | cons x xs =>
    have hx := hv x List.mem_cons_self
    cases x with
    | gap c =>
      rintro _ ⟨⟩
      rcases hx with rfl | rfl <;> decide
    | mark c =>
      have hall : Lexeme.punctuation ⊆ openers := by decide
      rintro _ ⟨⟩
      exact hall hx
    | name s =>
      rintro _ ⟨⟩
      decide
    | word s => simp [isBare] at hb
    | number s => simp [isBare] at hb

/-- A text of separate pieces is cut into their tokens. -/
theorem stream_chars {xs : List Piece} (h : Separate xs) (p : Position) :
    Token.stream p (chars xs) = .ok (place p xs) := by
  induction xs generalizing p with
  | nil => rw [chars, List.flatMap_nil, Token.stream_nil, place]
  | cons x xs ih =>
    have hv : ∀ y ∈ xs, y.Valid := fun y hy => h.valid y (List.mem_cons_of_mem _ hy)
    have hr : x.isBare = true → Closes (chars xs) := by
      intro hb
      apply closes_chars hv
      intro y hy
      cases xs with
      | nil => cases hy
      | cons z zs =>
        cases hy
        exact h.chain.rel hb
    rw [chars_cons, stream_text (h.valid x List.mem_cons_self) hr,
      ih ⟨hv, h.chain.tail⟩]
    rfl

/-! ### Texts put together -/

/-- The tokens of a text without their places. -/
def tokens (xs : List Piece) : List Token := xs.filterMap (tokenAt .start)

@[simp] theorem tokens_nil : tokens [] = [] := rfl

@[simp] theorem tokens_append (xs ys : List Piece) : tokens (xs ++ ys) = tokens xs ++ tokens ys :=
  List.filterMap_append

@[simp] theorem tokens_flatMap {α : Type} (xs : List α) (f : α → List Piece) :
    tokens (xs.flatMap f) = xs.flatMap fun x => tokens (f x) := by
  induction xs with
  | nil => rfl
  | cons x xs ih => rw [List.flatMap_cons, tokens_append, ih, List.flatMap_cons]

theorem place_append (p : Position) (xs ys : List Piece) :
    place p (xs ++ ys) = place p xs ++ place (p.after (chars xs)) ys := by
  induction xs generalizing p with
  | nil => rfl
  | cons x xs ih =>
    rw [List.cons_append, place, ih, place, List.append_assoc, chars_cons, Position.after_append]

theorem map_atStart_place (p : Position) (xs : List Piece) :
    (place p xs).map Token.atStart = tokens xs := by
  induction xs generalizing p with
  | nil => rfl
  | cons x xs ih =>
    rw [place, List.map_append, ih, tokens, tokens, List.filterMap_cons, tokenAt, tokenAt]
    cases x.kind? <;> rfl

/-- Separate pieces whose first one may stand behind a bare piece. -/
structure Loose (xs : List Piece) : Prop extends Separate xs where
  head : ∀ x ∈ xs.head?, x.isBare = false

variable {xs ys : List Piece} {x : Piece}

theorem Separate.append (h : Separate xs) (h' : Separate ys)
    (hj : ∀ x ∈ xs.getLast?, ∀ y ∈ ys.head?, x.isBare = true → y.isBare = false) :
    Separate (xs ++ ys) := by
  refine ⟨fun z hz => ?_, h.chain.append h'.chain hj⟩
  rcases List.mem_append.1 hz with hz | hz
  · exact h.valid z hz
  · exact h'.valid z hz

theorem separate_nil : Separate [] := ⟨nofun, .nil⟩

theorem loose_nil : Loose [] := ⟨separate_nil, nofun⟩

theorem Loose.append (h : Loose xs) (h' : Loose ys) : Loose (xs ++ ys) := by
  refine ⟨h.toSeparate.append h'.toSeparate fun x _ y hy _ => h'.head y hy, fun x hx => ?_⟩
  cases xs with
  | nil => exact h'.head x hx
  | cons z zs => exact h.head x hx

theorem loose_flatMap {α : Type} {l : List α} {f : α → List Piece} (h : ∀ a ∈ l, Loose (f a)) :
    Loose (l.flatMap f) := by
  induction l with
  | nil => exact loose_nil
  | cons a l ih =>
    rw [List.flatMap_cons]
    exact (h a List.mem_cons_self).append (ih fun b hb => h b (List.mem_cons_of_mem _ hb))

theorem Loose.ite {c : Prop} [Decidable c] (h : c → Loose xs) (h' : ¬c → Loose ys) :
    Loose (if c then xs else ys) := by
  split
  · next hc => exact h hc
  · next hc => exact h' hc

theorem Separate.appendLoose (h : Separate xs) (h' : Loose ys) : Separate (xs ++ ys) :=
  h.append h'.toSeparate fun _ _ y hy _ => h'.head y hy

theorem separate_singleton (hx : x.Valid) : Separate [x] := ⟨by simpa using hx, .singleton x⟩

/-- Anything may stand behind a gap, a mark or a name. -/
theorem loose_cons (hx : x.Valid) (hb : x.isBare = false) (h : Separate xs) : Loose (x :: xs) := by
  refine ⟨(separate_singleton hx).append h fun y hy z _ hbare => ?_, by simpa using hb⟩
  rw [List.getLast?_singleton, Option.mem_some_iff] at hy
  rw [← hy, hb] at hbare
  cases hbare

theorem Separate.behindSpace (h : Separate xs) : Loose (.gap ' ' :: xs) :=
  loose_cons (x := .gap ' ') (.inl rfl) rfl h

theorem Separate.behindMark {c : Char} (h : Separate xs) (hc : c ∈ Lexeme.punctuation) :
    Loose (.mark c :: xs) :=
  loose_cons (x := .mark c) hc rfl h

theorem Separate.behindName {s : String} (h : Separate xs) (hs : (name s).Valid) :
    Loose (.name s :: xs) :=
  loose_cons hs rfl h

end Piece

end SqliteSchema
