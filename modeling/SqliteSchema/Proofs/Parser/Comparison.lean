import SqliteSchema.Parser.Basic
import SqliteSchema.Proofs.Lexeme.Piece

/-!
When two tokens are alike. Runs of a parser are compared up to the places of the tokens, or up to
the letter case of their spellings; what a parser asks about a token has to be the same for tokens
that are alike.
-/
namespace SqliteSchema

/-! ### Letter case -/

theorem toLower_toLower (s : String) : s.toLower.toLower = s.toLower := by
  rw [← String.toList_inj, toList_toLower, toList_toLower, List.map_map]
  exact List.map_congr_left fun c _ => Text.toLower_toLower c

/-- A symbol without letters, which has one spelling only. -/
class Letterless (symbol : String) : Prop where
  letterless : symbol.toList.all (!·.isAlpha) = true

instance : Letterless "(" := ⟨by decide⟩

instance : Letterless ")" := ⟨by decide⟩

instance : Letterless "," := ⟨by decide⟩

instance : Letterless "." := ⟨by decide⟩

instance : Letterless ";" := ⟨by decide⟩

instance : Letterless "*" := ⟨by decide⟩

instance : Letterless "+" := ⟨by decide⟩

instance : Letterless "-" := ⟨by decide⟩

theorem toLower_eq_iff (s symbol : String) [Letterless symbol] :
    s.toLower = symbol ↔ s = symbol := by
  have h : symbol.toList.all (!·.isAlpha) = true := Letterless.letterless
  rw [← String.toList_inj, ← String.toList_inj, toList_toLower]
  generalize s.toList = cs, symbol.toList = ds at h
  induction ds generalizing cs with
  | nil => rw [List.map_eq_nil_iff]
  | cons d ds ih =>
    rw [List.all_cons, Bool.and_eq_true, Bool.not_eq_true'] at h
    cases cs with
    | nil => simp
    | cons c cs =>
      rw [List.map_cons, List.cons_eq_cons, List.cons_eq_cons, Text.toLower_eq_iff h.1]
      exact and_congr_right fun _ => ih cs h.2

namespace Literal.Quoted

theorem closing?_toLower (c : Char) : closing? c.toLower = closing? c := by
  apply Text.congr_toLower (b := none)
  intro c hc
  unfold closing?
  rw [if_neg, if_neg, if_neg]
  all_goals
    rintro rfl
    revert hc
    decide

theorem isAlpha_of_closing? {c d : Char} (h : closing? c = some d) : d.isAlpha = false := by
  unfold closing? at h
  split at h
  · cases h
    decide
  · split at h
    · cases h
      decide
    · split at h
      · cases h
        decide
      · cases h

/-- The inside of a quoted name in the other case. -/
theorem inside?_map_toLower (cs : List Char) :
    inside? (cs.map Char.toLower) = (inside? cs).map (List.map Char.toLower) := by
  cases cs with
  | nil => rfl
  | cons c rest =>
    have hlast : (rest.map Char.toLower).getLast? = closing? c ∧ (closing? c).isSome = true ↔
        rest.getLast? = closing? c ∧ (closing? c).isSome = true := by
      cases hd : closing? c with
      | none => simp
      | some d =>
        rw [List.getLast?_map]
        cases rest.getLast? with
        | none => simp
        | some e => simp [Text.toLower_eq_iff (isAlpha_of_closing? hd)]
    rw [List.map_cons, inside?, inside?, closing?_toLower]
    by_cases h : rest.getLast? = closing? c ∧ (closing? c).isSome = true
    · have h' := hlast.2 h
      simp [h, h', List.map_dropLast]
    · have h' := mt hlast.1 h
      rw [if_neg, if_neg]
      · rfl
      · simpa [and_comm] using h
      · simpa [and_comm] using h'

end Literal.Quoted

/-! ### What is asked about a token -/

/-- The token without its place and in small letters. -/
def Token.plain (t : Token) : Token := { t with value := t.value.toLower, position := .start }

namespace Token

variable (t : Token)

@[simp] theorem kind_plain : t.plain.kind = t.kind := rfl

@[simp] theorem isLiteral_plain : t.plain.isLiteral = t.isLiteral := rfl

@[simp] theorem isBinary_plain : t.plain.isBinary = t.isBinary := rfl

@[simp] theorem isUnary_plain : t.plain.isUnary = t.isUnary := rfl

@[simp] theorem isKeyword_plain (k : Keyword) : t.plain.isKeyword k = t.isKeyword k := by
  change (t.isWord && t.value.toLower.toLower == k.text) = t.isKeyword k
  rw [toLower_toLower]
  rfl

@[simp] theorem keyword_plain : t.plain.keyword = t.keyword := by
  change (if t.isWord then Keyword.ofText? t.value.toLower.toLower else none) = t.keyword
  rw [toLower_toLower]
  rfl

@[simp] theorem is_plain (symbol : String) [Letterless symbol] :
    t.plain.is symbol = t.is symbol := by
  have hvalue : (t.value.toLower == symbol) = (t.value == symbol) := by
    rw [Bool.eq_iff_iff, beq_iff_eq, beq_iff_eq]
    exact toLower_eq_iff t.value symbol
  change (!t.isLiteral && t.value.toLower == symbol) = t.is symbol
  rw [hvalue]
  rfl

/-- A question about the first character that has one answer for all letters. -/
theorem head?_any_plain {f : Char → Bool} {b : Bool} (hf : ∀ c, c.isAlpha = true → f c = b) :
    t.plain.value.toList.head?.any f = t.value.toList.head?.any f := by
  change t.value.toLower.toList.head?.any f = _
  rw [toList_toLower, List.head?_map, Option.any_map]
  congr 1
  funext c
  exact Text.congr_toLower hf c

theorem inside?_plain : Literal.Quoted.inside? t.plain.value.toList =
    (Literal.Quoted.inside? t.value.toList).map (List.map Char.toLower) := by
  change Literal.Quoted.inside? t.value.toLower.toList = _
  rw [toList_toLower, Literal.Quoted.inside?_map_toLower]

@[simp] theorem isQuoted_plain : t.plain.isQuoted = t.isQuoted := by
  rw [isQuoted, inside?_plain, Option.isSome_map]
  rfl

@[simp] theorem isIdentifier_plain : t.plain.isIdentifier = t.isIdentifier := by
  have hword : ∀ c : Char, c.isAlpha = true → startsWord c = true := by
    intro c hc
    have halpha := Text.isAlphabetic_of_isAlpha hc
    rw [startsWord, Text.isAlphanumeric, halpha, Bool.true_or, Bool.true_or]
  rw [isIdentifier, isQuoted_plain, head?_any_plain t hword]
  rfl

@[simp] theorem isParameter_plain : t.plain.isParameter = t.isParameter := by
  have hsign : ∀ c : Char, c.isAlpha = true → ['?', ':', '@', '$'].contains c = false := by
    intro c hc
    rw [← Bool.not_eq_true, List.contains_iff_mem]
    intro hmem
    have hall : ['?', ':', '@', '$'].all (!·.isAlpha) = true := by decide
    have hnot := List.all_eq_true.1 hall c hmem
    rw [hc] at hnot
    cases hnot
  rw [isParameter, head?_any_plain t hsign]
  rfl

end Token

/-! ### Comparisons -/

/-- How closely two runs of a parser are compared. -/
structure Comparison where
  /-- Spellings and messages are the same. Otherwise the case of ASCII letters may differ, save in
  literals and bind parameters. -/
  verbatim : Prop
  /-- Tokens stand at the same places. -/
  placed : Prop
  /-- Errors of the first run behind which the second run may do anything. -/
  excused : ErrorCode → Prop

namespace Comparison

/-- The same up to places. -/
def text : Comparison := ⟨True, False, fun _ => False⟩

/-- The same up to letter case. -/
def caseless : Comparison := ⟨False, True, fun _ => False⟩

/-- The very same, unless the first run fails. -/
def success : Comparison := ⟨True, True, fun _ => True⟩

/-- Names that mean the same. -/
structure Spelled (c : Comparison) (s s' : String) : Prop where
  lower : s.toLower = s'.toLower
  eq : c.verbatim → s = s'

structure Like (c : Comparison) (t t' : Token) : Prop where
  kind : t.kind = t'.kind
  lower : t.value.toLower = t'.value.toLower
  value : c.verbatim ∨ t.isLiteral = true ∨ t.isParameter = true → t.value = t'.value
  position : c.placed → t.position = t'.position

/-- Errors that say the same as far as the comparison goes. -/
structure SameError (c : Comparison) (e e' : ParseError) : Prop where
  code : e.code = e'.code
  message : c.verbatim → e.message = e'.message
  eq : c.verbatim → c.placed → e = e'

structure SameWarning (c : Comparison) (w w' : Warning) : Prop where
  code : w.code = w'.code
  message : c.verbatim → w.message = w'.message
  eq : c.verbatim → c.placed → w = w'

variable {c : Comparison} {t t' : Token} {s s' : String} {e e' : ParseError} {w w' : Warning}

theorem Spelled.refl (s : String) : c.Spelled s s := ⟨rfl, fun _ => rfl⟩

theorem Spelled.sameName_left (h : c.Spelled s s') (name : String) :
    sameName name s = sameName name s' := by
  rw [sameName, sameName, h.lower]

theorem Spelled.sameName_right (h : c.Spelled s s') (name : String) :
    sameName s name = sameName s' name := by
  rw [sameName, sameName, h.lower]

theorem Like.refl (t : Token) : c.Like t t := ⟨rfl, rfl, fun _ => rfl, fun _ => rfl⟩

theorem Like.plain (h : c.Like t t') : t.plain = t'.plain := by
  rw [Token.plain, Token.plain, h.kind, h.lower]

/-- A question whose answer does not hang on letter case and places. -/
theorem Like.congr {β : Type} {f : Token → β} (hf : ∀ t, f t.plain = f t) (h : c.Like t t') :
    f t = f t' := by
  rw [← hf t, h.plain, hf t']

theorem Like.is (h : c.Like t t') (symbol : String) [Letterless symbol] :
    t.is symbol = t'.is symbol :=
  h.congr (f := (·.is symbol)) fun t => t.is_plain symbol

theorem Like.value_of_is {symbol : String} [Letterless symbol] (h : c.Like t t')
    (ht : t.is symbol = true) : t.value = t'.value := by
  have ht' : t'.is symbol = true := by rw [← h.is, ht]
  simp only [Token.is, Bool.and_eq_true, beq_iff_eq] at ht ht'
  rw [ht.2, ht'.2]

theorem Like.keyword (h : c.Like t t') : t.keyword = t'.keyword := h.congr Token.keyword_plain

theorem Like.eq (h : c.Like t t') (hv : c.verbatim) (hp : c.placed) : t = t' := by
  have hkind := h.kind
  have hvalue := h.value (.inl hv)
  have hposition := h.position hp
  cases t
  cases t'
  cases hkind
  cases hvalue
  cases hposition
  rfl

/-- Tokens that are alike mean the same name. -/
theorem Like.unquoted (h : c.Like t t') : c.Spelled t.unquoted t'.unquoted := by
  have heq (hv : t.value = t'.value) : t.unquoted = t'.unquoted := by
    rw [Token.unquoted, Token.unquoted, h.kind, hv]
  constructor
  · cases hk : t.kind with
    | string =>
      have hliteral : t.isLiteral = true := by rw [Token.isLiteral, hk]
      rw [heq (h.value (.inr (.inl hliteral)))]
    | other =>
      have hinside : (Literal.Quoted.inside? t.value.toList).map (List.map Char.toLower) =
          (Literal.Quoted.inside? t'.value.toList).map (List.map Char.toLower) := by
        rw [← Token.inside?_plain, h.plain, Token.inside?_plain]
      have hk' : t'.kind = .other := by rw [← h.kind, hk]
      have hlower (u : Token) (hu : u.kind = .other) : u.unquoted.toLower =
          (((Literal.Quoted.inside? u.value.toList).map (List.map Char.toLower)).map
            String.ofList).getD u.value.toLower := by
        unfold Token.unquoted
        rw [hu]
        dsimp only
        cases Literal.Quoted.inside? u.value.toList with
        | none => rfl
        | some cs =>
          change (String.ofList cs).toLower = String.ofList (cs.map Char.toLower)
          rw [← String.toList_inj, toList_toLower, String.toList_ofList, String.toList_ofList]
      rw [hlower t hk, hlower t' hk', hinside, h.lower]
    | number =>
      have hliteral : t.isLiteral = true := by rw [Token.isLiteral, hk]
      rw [heq (h.value (.inr (.inl hliteral)))]
    | blob =>
      have hliteral : t.isLiteral = true := by rw [Token.isLiteral, hk]
      rw [heq (h.value (.inr (.inl hliteral)))]
    | operator binary unary =>
      have hk' : t'.kind = .operator binary unary := by rw [← h.kind, hk]
      rw [Token.unquoted, Token.unquoted, hk, hk']
      exact h.lower
  · intro hv
    exact heq (h.value (.inl hv))

theorem like_text_iff : text.Like t t' ↔ t.Same t' := by
  constructor
  · intro h
    have hkind := h.kind
    have hvalue := h.value (.inl trivial)
    cases t
    cases t'
    cases hkind
    cases hvalue
    exact ⟨_, _, _, _⟩
  · rintro ⟨v, k, p, q⟩
    exact ⟨rfl, rfl, fun _ => rfl, nofun⟩

theorem SameError.refl (e : ParseError) : c.SameError e e := ⟨rfl, fun _ => rfl, fun _ _ => rfl⟩

/-- Errors at tokens that are alike. -/
theorem SameError.atToken {fault fault' : Fault} (hcode : fault.code = fault'.code)
    (hfault : c.verbatim → fault = fault') (ht : c.Like t t') :
    c.SameError (.atToken fault t) (.atToken fault' t') := by
  constructor
  · exact hcode
  · intro hv
    rw [hfault hv]
    rfl
  · intro hv hp
    rw [hfault hv, ht.eq hv hp]

theorem SameError.unexpected {expected : String} (ht : c.Like t t') :
    c.SameError (.unexpected expected t) (.unexpected expected t') := by
  apply SameError.atToken
  · rfl
  · intro hv
    rw [ht.value (.inl hv)]
  · exact ht

theorem SameWarning.atToken {code : WarningCode} {message message' : String}
    (hmessage : c.verbatim → message = message') (ht : c.Like t t') :
    c.SameWarning (.atToken code message t) (.atToken code message' t') := by
  constructor
  · rfl
  · exact hmessage
  · intro hv hp
    rw [hmessage hv, ht.eq hv hp]

end Comparison

end SqliteSchema
