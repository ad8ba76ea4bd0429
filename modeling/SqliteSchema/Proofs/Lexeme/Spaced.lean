import SqliteSchema.Proofs.Lexeme.Partition
import SqliteSchema.Proofs.Lexeme.Seam
import SqliteSchema.Proofs.Literal.Number

/-!
Tokens in front of white space. A token is read again from its own text where white space or
nothing follows, so the tokens of a text can be written with single spaces between them; only a
word operator needs the space and is a plain word without it.
-/
namespace SqliteSchema

namespace Lexeme

/-- White space follows, or nothing at all. -/
def Spaced (tail : List Char) : Prop := ∀ d ∈ tail.head?, Text.isWhiteSpace d = true

/-- The letters are those of a word operator, in any case. -/
def SpellsOperator (cs : List Char) : Prop :=
  cs.map Char.toLower ∈ Operator.words.map String.toList

instance (cs : List Char) : Decidable (SpellsOperator cs) :=
  inferInstanceAs (Decidable (cs.map Char.toLower ∈ Operator.words.map String.toList))

theorem spellsOperator_toList {s : String} :
    SpellsOperator s.toList ↔ s.toLower ∈ Operator.words := by
  rw [SpellsOperator, ← toList_toLower]
  exact List.mem_map_of_injective fun _ _ => String.toList_inj.1

variable {c : Char} {us rest tail : List Char} {kind : TokenKind} {l : Lexeme}

theorem Spaced.isDelimiter (h : Spaced tail) : ∀ d ∈ tail.head?, isDelimiter d = true :=
  fun d hd => (Text.isWhiteSpace_facts (h d hd)).1

/-- What holds of white space and of the character that followed still holds of the one that does
if only the front of what followed is left in front of white space. -/
theorem Spaced.forall_head? {P : Char → Prop} {back left : List Char} (ht : Spaced tail)
    (hspace : ∀ d, Text.isWhiteSpace d = true → P d) (hback : back <+: left)
    (hleft : ∀ d ∈ left.head?, P d) : ∀ d ∈ (back ++ tail).head?, P d := by
  cases back with
  | nil => exact fun d hd => hspace d (ht d hd)
  | cons b back =>
    obtain ⟨after, rfl⟩ := hback
    exact hleft

theorem Spaced.bounds {back left : List Char} (ht : Spaced tail) (hback : back <+: left)
    (hleft : Literal.Number.Bounds left) : Literal.Number.Bounds (back ++ tail) := by
  refine ht.forall_head? (fun d hd => ?_) hback hleft
  obtain ⟨-, halnum, -, hmem, -⟩ := Text.isWhiteSpace_facts hd
  simp only [List.mem_cons, not_or] at hmem
  exact ⟨halnum, hmem.2.2.1, hmem.2.1⟩

theorem SpellsOperator.isAlpha {cs : List Char} (h : SpellsOperator cs) :
    ∀ c ∈ cs, c.isAlpha = true := by
  intro c hc
  obtain ⟨w, hw, heq⟩ := List.mem_map.1 h
  exact Piece.isAlpha_of_toLower_mem hw (heq ▸ List.mem_map_of_mem hc)

theorem SpellsOperator.exists_cons {cs : List Char} (h : SpellsOperator cs) :
    ∃ a b us, cs = a :: b :: us := by
  obtain ⟨w, hw, heq⟩ := List.mem_map.1 h
  have hlong : ∀ w ∈ Operator.words, 1 < w.toList.length := by decide
  have hlength := hlong w hw
  rw [heq, List.length_map] at hlength
  match cs, hlength with
  | a :: b :: us, _ => exact ⟨a, b, us, rfl⟩

/-- No blob starts where such a word does. -/
theorem SpellsOperator.head?_ne_quote {c : Char} {us : List Char} (h : SpellsOperator (c :: us))
    (tail : List Char) : (us ++ tail).head? ≠ some '\'' := by
  obtain ⟨a, b, us, heq⟩ := h.exists_cons
  obtain ⟨rfl, rfl⟩ := List.cons.inj heq
  rintro ⟨⟩
  exact absurd (h.isAlpha '\'' (by simp)) (by decide)

theorem literal_eq_ok {φ : Type} {fault : φ → Fault} {scan : Literal.Scan φ} :
    literal kind fault scan = .ok l ↔ ∃ m, scan = .ok m ∧ l = .token kind (m - 1) := by
  cases scan <;> simp [literal, eq_comm]

theorem closed_eq_ok {fault : Fault} {r : Option Nat} :
    closed kind fault r = .ok l ↔ ∃ m, r = some m ∧ l = .token kind m := by
  cases r <;> simp [closed, eq_comm]

/-! ### One kind of token each -/

/-- A token that goes on with `us` behind its first character. It is the same token where the text
behind it is cut short in front of white space, unless nothing of that text is left and the token is
spelled like a word operator. -/
structure Kept (c : Char) (read : List Char → Outcome) (rest : List Char) (l : Lexeme)
    (us : List Char) : Prop where
  front : us <+: rest
  length : us.length = l.more
  again : ∀ back tail, us ++ back <+: rest → (back = [] → ¬ SpellsOperator (c :: us)) →
    Spaced tail → read (us ++ (back ++ tail)) = .ok l

theorem kept_number (h : literal .number .number (Literal.Number.scan (c :: rest)) = .ok l)
    (hc : c.isDigit = true ∨ c = '.' ∧ ∃ d ∈ rest.head?, d.isDigit = true) :
    ∃ us, Kept c (fun cs => literal .number .number (Literal.Number.scan (c :: cs))) rest l us ∧
      (c = '.' → ∃ d ∈ us.head?, d.isDigit = true) := by
  obtain ⟨m, hscan, rfl⟩ := literal_eq_ok.1 h
  obtain ⟨ds, left, heq, hds, hleft, rfl⟩ := Literal.Number.exists_numeral hscan hc
  obtain ⟨d, us, rfl, hpoint⟩ := hds.exists_cons
  obtain ⟨rfl, rfl⟩ := List.cons.inj heq
  refine ⟨us, ⟨List.prefix_append us left, rfl, fun back tail hback _ ht => ?_⟩, hpoint⟩
  have hbounds := ht.bounds ((List.prefix_append_right_inj us).1 hback) hleft
  exact literal_eq_ok.2 ⟨_, Literal.Number.scan_append hds hbounds, rfl⟩

theorem kept_string
    (h : closed .string .unterminatedString (Literal.Quoted.stringTail rest) = .ok l) :
    ∃ us, Kept c (fun cs => closed .string .unterminatedString (Literal.Quoted.stringTail cs))
      rest l us := by
  obtain ⟨m, htail, rfl⟩ := closed_eq_ok.1 h
  have hlength : (rest.take m).length = m :=
    List.length_take_of_le (Literal.Quoted.stringTail_le htail)
  refine ⟨rest.take m, List.take_prefix m rest, hlength, fun back tail hback _ ht => ?_⟩
  have hquote : ∀ d ∈ tail.head?, d ≠ '\'' := by
    rintro d hd rfl
    exact absurd (ht _ hd) (by decide)
  have hle : m ≤ (rest.take m ++ back).length := by
    rw [List.length_append, hlength]
    exact Nat.le_add_right m _
  obtain ⟨after, hafter⟩ := hback
  rw [← hafter] at htail
  rw [← List.append_assoc]
  exact closed_eq_ok.2 ⟨m, Literal.Quoted.stringTail_append htail hle hquote, rfl⟩

theorem kept_identifier {close : Char}
    (h : closed .other .unterminatedIdentifier (Literal.Quoted.identifierTail close rest) = .ok l) :
    ∃ us, Kept c (fun cs => closed .other .unterminatedIdentifier
      (Literal.Quoted.identifierTail close cs)) rest l us := by
  obtain ⟨m, htail, rfl⟩ := closed_eq_ok.1 h
  have hlength : (rest.take m).length = m :=
    List.length_take_of_le (Literal.Quoted.identifierTail_le htail)
  refine ⟨rest.take m, List.take_prefix m rest, hlength, fun back tail _ _ _ => ?_⟩
  rw [← List.take_append_drop m rest] at htail
  exact closed_eq_ok.2
    ⟨m, Literal.Quoted.identifierTail_append htail (Nat.le_of_eq hlength.symm) (back ++ tail), rfl⟩

theorem kept_blob (h : literal .blob .blob (Literal.Blob.scan (c :: rest)) = .ok l) :
    ∃ us, Kept c (fun cs => literal .blob .blob (Literal.Blob.scan (c :: cs))) rest l us ∧
      us.head? = some '\'' := by
  obtain ⟨m, hscan, rfl⟩ := literal_eq_ok.1 h
  obtain ⟨x, digits, left, heq, hx, hd, heven, rfl⟩ := Literal.Blob.scan_eq_ok.1 hscan
  obtain ⟨rfl, rfl⟩ := List.cons.inj heq
  refine ⟨'\'' :: (digits ++ ['\'']),
    ⟨⟨left, by simp⟩, by simp [more], fun back tail _ _ _ => ?_⟩, rfl⟩
  have hagain : c :: ('\'' :: (digits ++ ['\'']) ++ (back ++ tail)) =
      c :: '\'' :: (digits ++ '\'' :: (back ++ tail)) := by
    simp
  exact literal_eq_ok.2
    ⟨_, Literal.Blob.scan_eq_ok.2 ⟨c, digits, back ++ tail, hagain, hx, hd, heven, rfl⟩, rfl⟩

/-- White space is in no operator, so that it makes no operator longer. -/
theorem match?_spaced (ht : Spaced tail) (us : List Char) :
    Operator.match? (us ++ tail) = Operator.match? us := by
  apply List.find?_congr
  intro op hop
  rw [Bool.eq_iff_iff, List.isPrefixOf_iff_prefix, List.isPrefixOf_iff_prefix]
  constructor
  · intro h
    rcases Nat.le_total op.symbol.toList.length us.length with hl | hl
    · exact List.prefix_of_prefix_length_le h (List.prefix_append us tail) hl
    · obtain ⟨ds, hds⟩ := List.prefix_of_prefix_length_le (List.prefix_append us tail) h hl
      rw [← hds, List.prefix_append_right_inj] at h
      cases ds with
      | nil =>
        rw [List.append_nil] at hds
        exact hds ▸ List.prefix_rfl
      | cons d ds =>
        obtain ⟨back, rfl⟩ := h
        have hmem := (Text.isWhiteSpace_facts (ht d rfl)).2.2.2.2 op hop
        exact absurd (hds ▸ by simp) hmem
  · intro h
    exact h.trans (List.prefix_append us tail)

theorem match?_eq_some {cs : List Char} {op : Operator} (h : Operator.match? cs = some op) :
    op ∈ Operator.symbols ∧ op.symbol.toList <+: cs := by
  have hfound := List.find?_some h
  exact ⟨List.mem_of_find?_eq_some h, List.isPrefixOf_iff_prefix.1 hfound⟩

/-- No operator stands at the front of a text where none stands at the front of a longer one. -/
theorem match?_none {cs ds : List Char} (h : Operator.match? ds = none) (hcs : cs <+: ds) :
    Operator.match? cs = none := by
  rw [Operator.match?, List.find?_eq_none] at h ⊢
  intro op hop hprefix
  have hlonger := (List.isPrefixOf_iff_prefix.1 hprefix).trans hcs
  exact h op hop (List.isPrefixOf_iff_prefix.2 hlonger)

/-- The longest operator of a text is that of every front of the text that still holds it. -/
theorem match?_some {cs ds : List Char} {op : Operator} (h : Operator.match? ds = some op)
    (hcs : cs <+: ds) (hop : op.symbol.toList <+: cs) : Operator.match? cs = some op := by
  obtain ⟨-, before, after, hsymbols, hbefore⟩ := List.find?_eq_some_iff_append.1 h
  refine List.find?_eq_some_iff_append.2
    ⟨List.isPrefixOf_iff_prefix.2 hop, before, after, hsymbols, fun longer hmem => ?_⟩
  have hnot := hbefore longer hmem
  rw [Bool.not_eq_true', Bool.eq_false_iff, ne_eq, List.isPrefixOf_iff_prefix] at hnot ⊢
  exact fun hlead => hnot (hlead.trans hcs)

theorem symbol_ne_nil {op : Operator} (h : op ∈ Operator.symbols) : op.symbol.toList ≠ [] := by
  have hall : ∀ op ∈ Operator.symbols, op.symbol.toList ≠ [] := by decide
  exact hall op h

theorem kept_symbol {op : Operator} (h : Operator.match? (c :: rest) = some op) :
    ∃ us, Kept c (operatorOrWord c) rest
      (.token (.operator op.binary op.unary) (op.symbol.length - 1)) us := by
  obtain ⟨hmem, hprefix⟩ := match?_eq_some h
  obtain ⟨d, us, hsymbol⟩ := List.exists_cons_of_ne_nil (symbol_ne_nil hmem)
  rw [hsymbol, List.cons_prefix_cons] at hprefix
  obtain ⟨rfl, hfront⟩ := hprefix
  refine ⟨us, hfront, ?_, fun back tail hback _ ht => ?_⟩
  · rw [more, ← String.length_toList, hsymbol, List.length_cons, Nat.add_sub_cancel]
  · have hshort : Operator.match? (d :: (us ++ back)) = some op := by
      apply match?_some h (List.cons_prefix_cons.2 ⟨rfl, hback⟩)
      rw [hsymbol]
      exact List.prefix_append (d :: us) back
    have hagain := match?_spaced ht (d :: (us ++ back))
    rw [List.cons_append, List.append_assoc, hshort] at hagain
    rw [operatorOrWord, hagain]

/-- The letters of a word operator are one where white space follows. -/
theorem word?_spelled {cs left : List Char} (h : SpellsOperator cs)
    (hleft : ∀ d ∈ left.head?, isDelimiter d = true) :
    Operator.word? (cs ++ left) =
      if left.head?.any Text.isWhiteSpace then some cs.length else none := by
  rw [Piece.word?_append (fun a ha => (Piece.isAlpha_facts (h.isAlpha a ha)).1) hleft]
  exact if_congr (and_iff_right h) rfl rfl

theorem word?_eq_some {cs : List Char} {m : Nat} (h : Operator.word? cs = some m) :
    ∃ ws left, cs = ws ++ left ∧ SpellsOperator ws ∧ m = ws.length ∧
      ∃ d ∈ left.head?, Text.isWhiteSpace d = true := by
  obtain ⟨w, hfind, rfl⟩ := Option.map_eq_some_iff.1 h
  have hfound := List.find?_some hfind
  rw [Bool.and_eq_true, beq_iff_eq] at hfound
  have hlength := congrArg List.length hfound.1
  rw [List.length_map, String.length_toList] at hlength
  exact ⟨cs.take w.length, cs.drop w.length, (List.take_append_drop _ _).symm,
    List.mem_map.2 ⟨w, List.mem_of_find?_eq_some hfind, hfound.1.symm⟩, hlength.symm,
    (Option.any_eq_true _ _).1 hfound.2⟩

theorem kept_wordOperator {m : Nat} (h : Operator.word? (c :: rest) = some m) :
    ∃ us, Kept c (operatorOrWord c) rest (.token (.operator true false) (m - 1)) us := by
  obtain ⟨ws, left, heq, hspelled, rfl, d, hd, hspace⟩ := word?_eq_some h
  obtain ⟨a, b, us, rfl⟩ := hspelled.exists_cons
  obtain ⟨rfl, rfl⟩ := List.cons.inj heq
  refine ⟨b :: us, List.prefix_append (b :: us) left, rfl, fun back tail hback hend ht => ?_⟩
  cases back with
  | nil => exact absurd hspelled (hend rfl)
  | cons e back =>
    obtain ⟨after, rfl⟩ := (List.prefix_append_right_inj _).1 hback
    obtain rfl : e = d := Option.some.inj hd
    have hdelimiter : ∀ d ∈ (e :: back ++ tail).head?, isDelimiter d = true := by
      rintro d ⟨⟩
      exact (Text.isWhiteSpace_facts hspace).1
    have hany : (e :: back ++ tail).head?.any Text.isWhiteSpace = true := hspace
    rw [operatorOrWord, Piece.match?_eq_none (hspelled.isAlpha c List.mem_cons_self),
      ← List.cons_append, word?_spelled hspelled hdelimiter, if_pos hany]

/-- No white space is in a word. -/
theorem isWhiteSpace_of_word (h : isDelimiter c = false) : Text.isWhiteSpace c = false := by
  rw [isDelimiter, Bool.or_eq_false_iff, Bool.or_eq_false_iff] at h
  exact h.1.1

theorem kept_word (hmatch : Operator.match? (c :: rest) = none)
    (hword : Operator.word? (c :: rest) = none) (h : word c rest = .ok l) :
    ∃ us, Kept c (operatorOrWord c) rest l us := by
  unfold word at h
  split at h
  · cases h
  · next hc =>
    cases h
    obtain ⟨us, left, rfl, hus, hleft⟩ := Literal.exists_leading (!isDelimiter ·) rest
    rw [Literal.leading_append hus hleft]
    refine ⟨us, List.prefix_append us left, rfl, fun back tail hback hend ht => ?_⟩
    have hletter : ∀ a ∈ c :: us, isDelimiter a = false := by
      rw [List.forall_mem_cons]
      exact ⟨Bool.not_eq_true _ ▸ hc, fun a ha => by simpa using hus a ha⟩
    have hspace : ∀ a ∈ c :: us, Text.isWhiteSpace a = false :=
      fun a ha => isWhiteSpace_of_word (hletter a ha)
    have hdelimiter : ∀ d ∈ left.head?, isDelimiter d = true := fun d hd => by
      simpa using hleft d hd
    have hprefix := (List.prefix_append_right_inj us).1 hback
    have hbehind := ht.forall_head? (fun d hd => (Text.isWhiteSpace_facts hd).1) hprefix hdelimiter
    have hmatch' : Operator.match? (c :: (us ++ (back ++ tail))) = none := by
      rw [← List.append_assoc, ← List.cons_append, match?_spaced ht]
      exact match?_none hmatch (List.cons_prefix_cons.2 ⟨rfl, hback⟩)
    have hword' : Operator.word? (c :: (us ++ (back ++ tail))) = none := by
      rw [← List.cons_append, Piece.word?_append hspace hdelimiter] at hword
      rw [← List.cons_append, Piece.word?_append hspace hbehind]
      cases back with
      | nil => exact if_neg fun h => hend rfl h.1
      | cons b back =>
        obtain ⟨after, rfl⟩ := hprefix
        exact hword
    rw [operatorOrWord, hmatch', hword']
    exact Piece.word_append hletter hbehind

theorem kept_operatorOrWord (h : operatorOrWord c rest = .ok l) :
    ∃ us, Kept c (operatorOrWord c) rest l us := by
  unfold operatorOrWord at h
  split at h
  · next op hop =>
    cases h
    exact kept_symbol hop
  · next hnone =>
    split at h
    · next m hm =>
      cases h
      exact kept_wordOperator hm
    · next hword => exact kept_word hnone hword h

/-- A point is a token of its own unless a digit follows. -/
theorem tokenAt_point (cs : List Char) : tokenAt '.' cs =
    if cs.head?.any Char.isDigit then literal .number .number (Literal.Number.scan ('.' :: cs))
    else .ok (.token .other 0) := by
  have hp : '.' ∉ punctuation := by decide
  by_cases hd : cs.head?.any Char.isDigit = true
  · simp [tokenAt, hp, hd]
  · simp [tokenAt, hp, hd]

theorem kept_point (h : tokenAt '.' rest = .ok l) : ∃ us, Kept '.' (tokenAt '.') rest l us := by
  rw [tokenAt_point] at h
  split at h
  · next hdigit =>
    obtain ⟨us, hus, hhead⟩ := kept_number h (.inr ⟨rfl, (Option.any_eq_true _ _).1 hdigit⟩)
    refine ⟨us, hus.front, hus.length, fun back tail hback hend ht => ?_⟩
    rw [tokenAt_point, if_pos]
    · exact hus.again back tail hback hend ht
    · obtain ⟨d, hd, hdigit⟩ := hhead rfl
      rw [List.head?_append, hd]
      exact hdigit
  · next hdigit =>
    cases h
    refine ⟨[], List.nil_prefix, rfl, fun back tail hback _ ht => ?_⟩
    rw [List.nil_append, tokenAt_point, if_neg]
    have hnone : ∀ d ∈ rest.head?, d.isDigit ≠ true := fun d hd hd' =>
      hdigit ((Option.any_eq_true _ _).2 ⟨d, hd, hd'⟩)
    have hspace : ∀ d, Text.isWhiteSpace d = true → d.isDigit ≠ true := fun d hd =>
      Bool.eq_false_iff.1 (Text.isWhiteSpace_facts hd).2.2.1
    intro hdigit'
    obtain ⟨d, hd, hd'⟩ := (Option.any_eq_true _ _).1 hdigit'
    exact ht.forall_head? hspace hback hnone d hd hd'

/-- An `x` in front of a quote starts a blob. -/
theorem tokenAt_x (hc : c = 'x' ∨ c = 'X') (cs : List Char) : tokenAt c cs =
    if cs.head? = some '\'' then literal .blob .blob (Literal.Blob.scan (c :: cs))
    else operatorOrWord c cs := by
  have hx : 'x' ∉ punctuation := by decide
  have hX : 'X' ∉ punctuation := by decide
  by_cases hquote : cs.head? = some '\''
  · rcases hc with rfl | rfl
    · simp [tokenAt, hx, hquote]
    · simp [tokenAt, hX, hquote]
  · rcases hc with rfl | rfl
    · simp [tokenAt, hx, hquote, Literal.Quoted.closing?]
    · simp [tokenAt, hX, hquote, Literal.Quoted.closing?]

theorem kept_x (hc : c = 'x' ∨ c = 'X') (h : tokenAt c rest = .ok l) :
    ∃ us, Kept c (tokenAt c) rest l us := by
  rw [tokenAt_x hc] at h
  split at h
  · obtain ⟨us, hus, hhead⟩ := kept_blob h
    refine ⟨us, hus.front, hus.length, fun back tail hback hend ht => ?_⟩
    rw [tokenAt_x hc, if_pos]
    · exact hus.again back tail hback hend ht
    · rw [List.head?_append, hhead]
      rfl
  · next hquote =>
    obtain ⟨us, hus⟩ := kept_operatorOrWord h
    refine ⟨us, hus.front, hus.length, fun back tail hback hend ht => ?_⟩
    rw [tokenAt_x hc, if_neg]
    · exact hus.again back tail hback hend ht
    · rw [← List.append_assoc]
      intro hhead
      have hnone : ∀ d ∈ rest.head?, d ≠ '\'' := by
        rintro d hd rfl
        exact hquote hd
      exact ht.forall_head? (by rintro d hd rfl; cases hd) hback hnone '\'' hhead rfl

/-- A token is a piece of its text and is kept in front of white space. -/
theorem kept_tokenAt (h : tokenAt c rest = .ok l) : ∃ us, Kept c (tokenAt c) rest l us := by
  by_cases hp : c ∈ punctuation
  · have hread : tokenAt c = fun _ => .ok (.token .other 0) := by
      funext cs
      simp [tokenAt, hp]
    rw [hread] at h ⊢
    cases h
    exact ⟨[], List.nil_prefix, rfl, fun _ _ _ _ _ => rfl⟩
  by_cases hpoint : c = '.'
  · subst hpoint
    exact kept_point h
  by_cases hd : c.isDigit = true
  · have hread : tokenAt c = fun cs => literal .number .number (Literal.Number.scan (c :: cs)) := by
      funext cs
      simp [tokenAt, hp, hpoint, hd]
    rw [hread] at h ⊢
    obtain ⟨us, hus, -⟩ := kept_number h (.inl hd)
    exact ⟨us, hus⟩
  by_cases hq : c = '\''
  · subst hq
    have hread : tokenAt '\'' =
        fun cs => closed .string .unterminatedString (Literal.Quoted.stringTail cs) := by
      funext cs
      simp [tokenAt, hp]
    rw [hread] at h ⊢
    exact kept_string h
  by_cases hx : c = 'x' ∨ c = 'X'
  · exact kept_x hx h
  cases hclose : Literal.Quoted.closing? c with
  | some close =>
    have hread : tokenAt c = fun cs => closed .other .unterminatedIdentifier
        (Literal.Quoted.identifierTail close cs) := by
      funext cs
      simp [tokenAt, hp, hpoint, hd, hq, hx, hclose]
    rw [hread] at h ⊢
    exact kept_identifier h
  | none =>
    have hread : tokenAt c = operatorOrWord c := by
      funext cs
      simp [tokenAt, hp, hpoint, hd, hq, hx, hclose]
    rw [hread] at h ⊢
    exact kept_operatorOrWord h

/-! ### Tokens -/

/-- What starts with these two characters is a comment. -/
def OpensComment (c d : Char) : Prop := c = '-' ∧ d = '-' ∨ c = '/' ∧ d = '*'

theorem read_eq_token {n : Nat} : read c rest = .ok (.token kind n) ↔
    Text.isWhiteSpace c = false ∧ (∀ d ∈ rest.head?, ¬ OpensComment c d) ∧
      tokenAt c rest = .ok (.token kind n) := by
  by_cases hspace : Text.isWhiteSpace c = true
  · simp [read, hspace]
  rw [Bool.not_eq_true] at hspace
  cases rest with
  | nil => simp [read, hspace]
  | cons d rest =>
    rw [read_cons, if_neg (by rw [hspace]; decide)]
    have hhead : (∀ e ∈ (d :: rest).head?, ¬ OpensComment c e) ↔ ¬ OpensComment c d := by simp
    rw [hhead, OpensComment]
    split
    · next hline => simp [hline]
    · next hline =>
      split
      · next hblock => split <;> simp [hblock]
      · next hblock => simp [hline, hblock, hspace]

theorem kept_read {n : Nat} (h : read c rest = .ok (.token kind n)) :
    ∃ us, Kept c (read c) rest (.token kind n) us := by
  obtain ⟨hspace, hcomment, htoken⟩ := read_eq_token.1 h
  obtain ⟨us, hus⟩ := kept_tokenAt htoken
  refine ⟨us, hus.front, hus.length,
    fun back tail hback hend ht => read_eq_token.2 ⟨hspace, ?_, ?_⟩⟩
  · have hopens (d : Char) (hd : Text.isWhiteSpace d = true) : ¬ OpensComment c d := by
      rintro (⟨-, rfl⟩ | ⟨-, rfl⟩)
      · cases hd
      · cases hd
    rw [← List.append_assoc]
    exact ht.forall_head? hopens hback hcomment
  · exact hus.again back tail hback hend ht

/-- A word that is spelled like an operator is one in front of white space. -/
theorem read_spelled (h : SpellsOperator (c :: us)) (ht : Spaced tail) :
    read c (us ++ tail) =
      .ok (.token (if tail = [] then .other else .operator true false) us.length) := by
  have hc := h.isAlpha c List.mem_cons_self
  have hword : Operator.word? (c :: (us ++ tail)) =
      if tail = [] then none else some (us.length + 1) := by
    rw [← List.cons_append, word?_spelled h ht.isDelimiter]
    cases tail with
    | nil => rfl
    | cons d tail =>
      rw [List.head?_cons, Option.any_some, ht d rfl]
      rfl
  rw [Piece.read_letter hc (h.head?_ne_quote tail), operatorOrWord, Piece.match?_eq_none hc, hword]
  by_cases htail : tail = []
  · rw [if_pos htail, if_pos htail]
    exact Piece.word_append (fun a ha => (Piece.isAlpha_facts (h.isAlpha a ha)).2.1)
      ht.isDelimiter
  · rw [if_neg htail, if_neg htail]
    rfl

/-- Nothing but white space behind it makes such a word an operator. -/
theorem kind_of_spelled {n : Nat} (h : read c rest = .ok (.token kind n)) (hus : us <+: rest)
    (hw : SpellsOperator (c :: us)) : kind = .other ∨ kind = .operator true false := by
  have hc := hw.isAlpha c List.mem_cons_self
  obtain ⟨back, rfl⟩ := hus
  rw [Piece.read_letter hc (hw.head?_ne_quote back), operatorOrWord, Piece.match?_eq_none hc] at h
  cases hword : Operator.word? (c :: (us ++ back)) with
  | some m =>
    rw [hword] at h
    cases h
    exact .inr rfl
  | none =>
    rw [hword] at h
    dsimp only [word] at h
    split at h
    · cases h
    · cases h
      exact .inl rfl

end Lexeme

namespace Token

variable {p : Position} {cs : List Char} {ts : List Token} {t : Token}

/-- The token as it is read where a space follows it, or nothing if it is the last one. -/
def respaced (last : Bool) (t : Token) : Token where
  value := t.value
  kind :=
    if Lexeme.SpellsOperator t.value.toList then
      if last then .other else .operator true false
    else t.kind
  position := .start

/-- The tokens of a text in which single spaces stand between the tokens. -/
def respace : List Token → List Token
  | [] => []
  | [t] => [t.respaced true]
  | t :: u :: ts => t.respaced false :: respace (u :: ts)

/-- The token can be read again in front of white space. -/
inductive Lexed (t : Token) : Prop
  | intro {c : Char} {us : List Char} (hvalue : t.value.toList = c :: us)
    (hkind : Lexeme.SpellsOperator (c :: us) → t.kind = .other ∨ t.kind = .operator true false)
    (hread : ∀ tail, Lexeme.Spaced tail → Lexeme.read c (us ++ tail) =
      .ok (.token (t.respaced tail.isEmpty).kind us.length))

theorem lexed_of_read {c : Char} {rest : List Char} {kind : TokenKind} {n : Nat}
    (h : Lexeme.read c rest = .ok (.token kind n)) (p : Position) :
    Lexed ⟨String.ofList (c :: rest.take n), kind, p⟩ := by
  obtain ⟨us, hus⟩ := Lexeme.kept_read h
  obtain rfl : us.length = n := hus.length
  have htake : rest.take us.length = us := (List.prefix_iff_eq_take.1 hus.front).symm
  rw [htake]
  refine .intro String.toList_ofList (Lexeme.kind_of_spelled h hus.front) fun tail ht => ?_
  rw [respaced, String.toList_ofList]
  by_cases hw : Lexeme.SpellsOperator (c :: us)
  · rw [if_pos hw, Lexeme.read_spelled hw ht]
    simp
  · rw [if_neg hw]
    exact hus.again [] tail (by rw [List.append_nil]; exact hus.front) (fun _ => hw) ht

/-- What holds of every token that is read holds of the tokens of a text. -/
theorem forall_of_stream {P : Token → Prop}
    (hread : ∀ {c rest kind n}, Lexeme.read c rest = .ok (.token kind n) →
      ∀ p, P ⟨String.ofList (c :: rest.take n), kind, p⟩)
    (h : stream p cs = .ok ts) : ∀ t ∈ ts, P t := by
  induction streamed_of_eq_ok h with
  | nil p => exact List.forall_mem_nil P
  | gap _ htail ih => exact ih htail.eq_ok
  | @token p c rest kind n us hlexeme htail ih =>
    exact List.forall_mem_cons.2 ⟨hread hlexeme p, ih htail.eq_ok⟩

/-- All tokens of a text can. -/
theorem lexed_of_stream (h : stream p cs = .ok ts) : ∀ t ∈ ts, t.Lexed :=
  forall_of_stream lexed_of_read h

theorem Lexed.stream_append (h : t.Lexed) {tail : List Char} (ht : Lexeme.Spaced tail)
    (p : Position) :
    stream p (t.value.toList ++ tail) = (stream (p.after t.value.toList) tail).map
      ({ t.respaced tail.isEmpty with position := p } :: ·) := by
  obtain ⟨hvalue, -, hread⟩ := h
  rw [hvalue, List.cons_append, stream_token (hread tail ht), List.take_left, List.drop_left,
    ← hvalue, String.ofList_toList]
  rfl

theorem stream_space (p : Position) (cs : List Char) :
    stream p (' ' :: cs) = stream (p.after [' ']) cs :=
  stream_gap (n := 0) rfl

/-- With single spaces between them the tokens of a text are read again. -/
theorem stream_intercalate (h : ∀ t ∈ ts, t.Lexed) (p : Position) :
    ∃ ts', stream p (" ".intercalate (ts.map (·.value))).toList = .ok ts' ∧
      ts'.map atStart = respace ts := by
  induction ts using respace.induct generalizing p with
  | case1 => exact ⟨[], stream_nil p, rfl⟩
  | case2 t =>
    have hnone : Lexeme.Spaced [] := by simp [Lexeme.Spaced]
    have hlast := (h t List.mem_cons_self).stream_append hnone p
    rw [List.append_nil, stream_nil] at hlast
    rw [List.map_singleton, String.intercalate_singleton]
    exact ⟨_, hlast, rfl⟩
  | case3 t u ts ih =>
    rw [List.forall_mem_cons] at h
    have hspace : Lexeme.Spaced (' ' :: (" ".intercalate ((u :: ts).map (·.value))).toList) := by
      rintro d ⟨⟩
      decide
    have hfirst := h.1.stream_append hspace p
    obtain ⟨ts', hrest, htokens⟩ := ih h.2 ((p.after t.value.toList).after [' '])
    rw [stream_space, hrest] at hfirst
    refine ⟨{ t.respaced false with position := p } :: ts', ?_,
      congrArg (t.respaced false :: ·) htokens⟩
    rw [List.map_cons, List.map_cons, String.intercalate_cons_cons, String.toList_append,
      String.toList_append, List.append_assoc]
    exact hfirst

/-- Nothing changes where every word operator is an operator already and does not end the text. -/
theorem respace_eq (h : ∀ t ∈ ts, t.Lexed)
    (hoperator : ∀ t ∈ ts, t.value.toLower ∈ Lexeme.Operator.words →
      ∃ binary unary, t.kind = .operator binary unary)
    (hlast : ∀ t ∈ ts.getLast?, t.value.toLower ∉ Lexeme.Operator.words) :
    respace ts = ts.map atStart := by
  have hplain (t : Token) (last : Bool) (ht : t.value.toLower ∉ Lexeme.Operator.words) :
      t.respaced last = t.atStart := by
    rw [respaced, if_neg (mt Lexeme.spellsOperator_toList.1 ht), atStart]
  have hfront (t : Token) (ht : t.Lexed) (hop : t.value.toLower ∈ Lexeme.Operator.words →
      ∃ binary unary, t.kind = .operator binary unary) : t.respaced false = t.atStart := by
    by_cases hw : t.value.toLower ∈ Lexeme.Operator.words
    · obtain ⟨hvalue, hkind, -⟩ := ht
      have hspelled := Lexeme.spellsOperator_toList.2 hw
      obtain ⟨binary, unary, hoperator⟩ := hop hw
      have hthis : t.kind = .operator true false :=
        (hkind (hvalue ▸ hspelled)).resolve_left (by simp [hoperator])
      rw [respaced, if_pos hspelled, atStart, hthis]
      rfl
    · exact hplain t false hw
  induction ts using respace.induct with
  | case1 => rfl
  | case2 t => exact congrArg ([·]) (hplain t true (hlast t rfl))
  | case3 t u ts ih =>
    rw [List.forall_mem_cons] at h hoperator
    rw [List.getLast?_cons_cons] at hlast
    rw [respace, hfront t h.1 hoperator.1, ih h.2 hoperator.2 hlast]
    rfl

/-- Of the tokens read again only the last one stands in front of nothing. -/
theorem getElem?_respace (ts : List Token) (i : Nat) :
    (respace ts)[i]? = ts[i]?.map (respaced (i + 1 == ts.length)) := by
  induction ts using respace.induct generalizing i with
  | case1 => rfl
  | case2 t =>
    cases i with
    | zero => rfl
    | succ i => rfl
  | case3 t u ts ih =>
    cases i with
    | zero => rfl
    | succ i =>
      have hlast : (i + 1 == (u :: ts).length) = (i + 1 + 1 == (t :: u :: ts).length) := by
        rw [Bool.eq_iff_iff, beq_iff_eq, beq_iff_eq]
        exact Nat.add_right_cancel_iff.symm
      rw [respace, List.getElem?_cons_succ, ih, List.getElem?_cons_succ, hlast]

theorem map_value_respace (ts : List Token) : (respace ts).map (·.value) = ts.map (·.value) := by
  induction ts using respace.induct with
  | case1 => rfl
  | case2 => rfl
  | case3 t u ts ih => exact congrArg (t.value :: ·) ih

/-- The values of the tokens of a text, with single spaces between them, are cut into the same
values, which are of the same kind. What is spelled like a word operator is an operator there
unless it comes last. -/
theorem tokenize_values {text : String} {ts : List Token} (h : tokenize text = .ok ts) :
    ∃ ts', tokenize (" ".intercalate (ts.map (·.value))) = .ok ts' ∧
      ts'.map (·.value) = ts.map (·.value) ∧
      ∀ i t t', ts[i]? = some t → ts'[i]? = some t' →
        (t.value.toLower ∉ Lexeme.Operator.words → t'.kind = t.kind) ∧
        (t.value.toLower ∈ Lexeme.Operator.words →
          ((∃ binary unary, t'.kind = .operator binary unary) ↔ i + 1 ≠ ts.length)) := by
  obtain ⟨ts', hts', hplaces⟩ := stream_intercalate (lexed_of_stream h) .start
  refine ⟨ts', hts', ?_, fun i t t' ht ht' => ?_⟩
  · rw [← map_value_respace ts, ← hplaces, List.map_map]
    rfl
  · have hkind : t'.kind = (t.respaced (i + 1 == ts.length)).kind := by
      have hi := congrArg (·[i]?) hplaces
      rw [List.getElem?_map, getElem?_respace, ht, ht'] at hi
      have hsame : t'.atStart = t.respaced (i + 1 == ts.length) := Option.some.inj hi
      rw [← hsame]
      rfl
    rw [hkind, respaced]
    refine ⟨fun hw => if_neg (mt Lexeme.spellsOperator_toList.1 hw), fun hw => ?_⟩
    rw [if_pos (Lexeme.spellsOperator_toList.2 hw)]
    by_cases hlast : i + 1 = ts.length
    · simp [hlast]
    · simp [hlast]

/-- Tokens that touch, comments between them, and a word operator at the end. -/
theorem tokenize_values_touching :
    let text := "a.b-- c\n-1/**/x'0A''and'AnD/*'*/.5==OR(\"q\")oR"
    ∃ ts ts', tokenize text = .ok ts ∧
      tokenize (" ".intercalate (ts.map (·.value))) = .ok ts' ∧
      ts'.map (·.value) = ts.map (·.value) ∧
      ∀ i t t', ts[i]? = some t → ts'[i]? = some t' →
        (t.value.toLower ∉ Lexeme.Operator.words → t'.kind = t.kind) ∧
        (t.value.toLower ∈ Lexeme.Operator.words →
          ((∃ binary unary, t'.kind = .operator binary unary) ↔ i + 1 ≠ ts.length)) := by
  intro text
  have haccepted : (tokenize text).isOk = true := by decide +kernel
  cases hts : tokenize text with
  | error e =>
    rw [hts] at haccepted
    cases haccepted
  | ok ts =>
    obtain ⟨ts', hts', hvalues⟩ := tokenize_values hts
    exact ⟨ts, ts', rfl, hts', hvalues⟩

end Token

end SqliteSchema
