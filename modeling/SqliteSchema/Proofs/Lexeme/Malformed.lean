import SqliteSchema.Proofs.Lexeme.LineBreak
import SqliteSchema.Proofs.Literal.Blob
import SqliteSchema.Proofs.Literal.Quoted

/-!
Why a text is not cut into tokens. The error says which lexeme is malformed and where this shows,
and the text in front of that lexeme has tokens.
-/
namespace SqliteSchema

namespace Lexeme

variable {c : Char} {us vs : List Char} {l : Lexeme} {n : Nat}

/-! ### Texts that are cut off -/

theorem blockTail_eq_none (h : blockTail us = none) : ¬ ['*', '/'] <:+: us := by
  induction us using blockTail.induct with
  | case1 => simp
  | case2 rest => cases h
  | case3 c rest hne ih =>
    rw [blockTail] at h
    · rw [List.infix_cons_iff, not_or]
      refine ⟨?_, ih (Option.map_eq_none_iff.1 h)⟩
      rintro ⟨tail, heq⟩
      obtain ⟨rfl, rfl⟩ := List.cons.inj heq
      exact hne tail rfl rfl
    · exact hne

theorem blockTail_cut (h : blockTail (us ++ vs) = some n) (hn : n ≤ us.length) :
    blockTail us = some n := by
  cases hus : blockTail us with
  | some m =>
    obtain ⟨-, hmore⟩ := blockTail_append hus vs
    rw [← hmore, h]
  | none =>
    -- The end of the comment stands within `us`.
    obtain ⟨body, htake, -⟩ := blockTail_eq_some h
    rw [List.take_append_of_le_length hn] at htake
    refine absurd ?_ (blockTail_eq_none hus)
    exact ⟨body, us.drop n, by rw [← htake, List.take_append_drop]⟩

theorem lineTail_cut (hn : lineTail (us ++ vs) ≤ us.length) :
    lineTail us = lineTail (us ++ vs) := by
  unfold lineTail at hn ⊢
  rw [List.takeWhile_append] at hn ⊢
  split
  · next hall =>
    rw [if_pos hall, List.length_append] at hn
    rw [List.length_append]
    omega
  · rfl

/-- A piece of a gap is one where the text ends behind it. -/
theorem read_gap_cut (h : read c (us ++ vs) = .ok (.gap n)) (hn : n ≤ us.length) :
    read c us = .ok (.gap n) := by
  by_cases hspace : Text.isWhiteSpace c = true
  · unfold read at h ⊢
    rwa [if_pos hspace] at h ⊢
  cases us with
  | nil =>
    -- A comment is longer than its first character, and a token is no gap.
    obtain rfl := Nat.le_zero.1 hn
    cases vs with
    | nil => exact h
    | cons d vs =>
      rw [List.nil_append, read_cons, if_neg hspace] at h
      split at h
      · simp at h
      · split at h
        · split at h <;> simp at h
        · exact absurd h (tokenAt_ne_gap _ _ _)
  | cons d us =>
    rw [List.cons_append, read_cons, if_neg hspace] at h
    rw [read_cons, if_neg hspace]
    rw [List.length_cons] at hn
    split
    · next hline =>
      rw [if_pos hline] at h
      cases h
      have hinside : lineTail (us ++ vs) ≤ us.length := by omega
      rw [lineTail_cut hinside]
    · next hline =>
      rw [if_neg hline] at h
      split
      · next hblock =>
        rw [if_pos hblock] at h
        split at h
        · next m hm =>
          cases h
          rw [blockTail_cut hm (by omega)]
        · cases h
      · next hblock =>
        rw [if_neg hblock] at h
        exact absurd h (tokenAt_ne_gap _ _ _)

/-- A lexeme has its length where the text ends behind it. A word operator is no operator there. -/
theorem read_cut (h : read c (us ++ vs) = .ok l) (hn : l.more ≤ us.length) :
    ∃ l', read c us = .ok l' ∧ l'.more = l.more := by
  cases l with
  | gap n => exact ⟨.gap n, read_gap_cut h hn, rfl⟩
  | token kind n =>
    obtain ⟨front, hkept⟩ := kept_read h
    have hnone : Spaced [] := by simp [Spaced]
    obtain ⟨back, rfl⟩ : front <+: us :=
      List.prefix_of_prefix_length_le hkept.front (List.prefix_append us vs)
        (hkept.length ▸ hn)
    -- A word operator that nothing is left behind keeps its length, but not its kind.
    by_cases hspelled : back = [] ∧ SpellsOperator (c :: front)
    · obtain ⟨rfl, hspelled⟩ := hspelled
      exact ⟨_, read_spelled hspelled hnone, hkept.length⟩
    · have hagain := hkept.again back [] (List.prefix_append _ vs)
        (fun hback hw => hspelled ⟨hback, hw⟩) hnone
      rw [List.append_nil] at hagain
      exact ⟨_, hagain, rfl⟩

end Lexeme

namespace Token

open Literal

variable {p : Position} {c : Char} {cs us rest : List Char} {l : Lexeme} {e : ParseError}

/-- A text has tokens if the text behind its first lexeme has. -/
theorem exists_stream (h : Lexeme.read c rest = .ok l)
    (hts : ∃ ts, stream (p.after (c :: rest.take l.more)) (rest.drop l.more) = .ok ts) :
    ∃ ts, stream p (c :: rest) = .ok ts := by
  obtain ⟨ts, hts⟩ := hts
  cases l with
  | gap n => exact ⟨ts, (stream_gap h).trans hts⟩
  | token kind n =>
    exact ⟨_, (Streamed.token h (streamed_of_eq_ok hts)).eq_ok⟩

/-- Behind `p` a text is read into lexemes, which have tokens, and then into the fault `e`. -/
def FaultAt (p : Position) (cs : List Char) (e : ParseError) : Prop :=
  ∃ us c rest fault n, cs = us ++ c :: rest ∧ Lexeme.read c rest = .error (fault, n) ∧
    e = .atPosition fault (p.after (us ++ (c :: rest).take n)) ∧ ∃ ts, stream p us = .ok ts

theorem faultAt_of_rest (hread : Lexeme.read c rest = .ok l)
    (h : FaultAt (p.after (c :: rest.take l.more)) (rest.drop l.more) e) :
    FaultAt p (c :: rest) e := by
  obtain ⟨us, d, tail, fault, n, hdrop, hfault, rfl, hts⟩ := h
  have hlength : (rest.take l.more).length = l.more := by
    have hdrop := congrArg List.length hdrop
    rw [List.length_drop, List.length_append, List.length_cons] at hdrop
    exact List.length_take_of_le (by omega)
  have hrest : rest.take l.more ++ us ++ d :: tail = rest := by
    rw [List.append_assoc, ← hdrop, List.take_append_drop]
  refine ⟨c :: (rest.take l.more ++ us), d, tail, fault, n, ?_, hfault, ?_, ?_⟩
  · rw [List.cons_append, hrest]
  · rw [← Position.after_append, ← List.append_assoc]
    rfl
  · obtain ⟨l', hl', hmore⟩ := Lexeme.read_cut (hrest ▸ hread)
      (by rw [List.length_append, hlength]; exact Nat.le_add_right _ _)
    refine exists_stream hl' ?_
    rwa [hmore, List.take_left' hlength, List.drop_left' hlength]

/-- A text that has no tokens is read into lexemes that have, and then into a fault. -/
theorem faultAt_of_stream (h : stream p cs = .error e) : FaultAt p cs e := by
  induction p, cs using stream.induct with
  | case1 p => simp at h
  | case2 p c rest fault n hread =>
    rw [stream_fault hread] at h
    exact ⟨[], c, rest, fault, n, rfl, hread, (Except.error.inj h).symm, [], stream_nil p⟩
  | case3 p c rest n hread ih =>
    rw [stream_gap hread] at h
    exact faultAt_of_rest hread (ih h)
  | case4 p c rest kind n hread lexeme ih =>
    rw [stream_token hread] at h
    refine faultAt_of_rest hread (ih ?_)
    cases htail : stream (p.after lexeme) (rest.drop n) with
    | ok ts =>
      rw [htail] at h
      cases h
    | error e' =>
      rw [htail] at h
      exact congrArg Except.error (Except.error.inj h)

/-- What is wrong with the text where an error of this code is found at `p`. The lexeme that is
wrong starts at `s`. -/
def MalformedAt (text : List Char) (s p : Nat) : ErrorCode → Prop
  | .unexpectedCharacter => s = p ∧ text[p]? = some '!' ∧ text[p + 1]? ≠ some '='
  | .unterminatedIdentifier => s = p ∧
    ∃ quotes ∈ [('[', ']'), ('"', '"'), ('\x60', '\x60')],
      text[p]? = some quotes.1 ∧ quotes.2 ∉ text.drop (p + 1)
  | .unterminatedComment => s = p ∧ text[p]? = some '/' ∧ text[p + 1]? = some '*' ∧
    ¬ ['*', '/'] <:+: text.drop (p + 2)
  | .unterminatedString => s = p ∧ text[p]? = some '\'' ∧ Quoted.Paired [] (text.drop (p + 1))
  | .invalidBlobLiteral => s ≤ p ∧ (text[s]? = some 'x' ∨ text[s]? = some 'X') ∧
    text[s + 1]? = some '\'' ∧ ¬ ∃ stop, Blob.BlobAt text s stop
  | .invalidNumericLiteral => s ≤ p ∧ Number.Starts (text.drop s) ∧
    ¬ ∃ stop, Number.NumeralAt text s stop
  | _ => False

theorem identifierTail_eq_none {close : Char} (h : Quoted.identifierTail close cs = none) :
    close ∉ cs := by
  intro hmem
  have hnone := List.findIdx?_eq_none_iff.1 (Option.map_eq_none_iff.1 h) close hmem
  rw [beq_self_eq_true] at hnone
  cases hnone

/-- The fault of a lexeme is there to see in the text. -/
theorem malformedAt_of_faulty {fault : Fault} {n : Nat} (h : Lexeme.Faulty c rest fault n)
    (us : List Char) :
    MalformedAt (us ++ c :: rest) us.length (us ++ (c :: rest).take n).length fault.code := by
  have hat (k : Nat) : (us ++ c :: rest)[us.length + k]? = (c :: rest)[k]? := by
    rw [List.getElem?_append_right (Nat.le_add_right _ _), Nat.add_sub_cancel_left]
  have hbehind (k : Nat) : (us ++ c :: rest).drop (us.length + k) = (c :: rest).drop k :=
    List.drop_length_add_append k
  have hscanned : (us ++ c :: rest).drop us.length = c :: rest := hbehind 0
  have hhere : (us ++ (c :: rest).take 0).length = us.length := by
    rw [List.take_zero, List.append_nil]
  have hle : us.length ≤ (us ++ (c :: rest).take n).length := by
    rw [List.length_append]
    exact Nat.le_add_right _ _
  cases h with
  | character hc hnone =>
    rw [hhere]
    refine ⟨rfl, (hat 0).trans (congrArg some hc), ?_⟩
    rw [hat 1, List.getElem?_cons_succ, ← List.head?_eq_getElem?]
    exact hnone
  | comment hc hrest hnone =>
    rw [hhere]
    subst hrest
    refine ⟨rfl, (hat 0).trans (congrArg some hc), hat 1, ?_⟩
    rw [hbehind 2]
    exact Lexeme.blockTail_eq_none hnone
  | @identifier close hc hnone =>
    rw [hhere]
    refine ⟨rfl, (c, close), ?_, hat 0, ?_⟩
    · simpa using Lexeme.closing?_cases hc
    · rw [hbehind 1]
      exact identifierTail_eq_none hnone
  | string hc hnone =>
    rw [hhere]
    refine ⟨rfl, (hat 0).trans (congrArg some hc), ?_⟩
    rw [hbehind 1]
    exact Quoted.stringTail_eq_none hnone
  | blob hc hquote hscan =>
    refine ⟨hle, hc.imp (fun hx => (hat 0).trans (congrArg some hx))
      fun hx => (hat 0).trans (congrArg some hx), ?_, ?_⟩
    · rw [hat 1, List.getElem?_cons_succ, ← List.head?_eq_getElem?]
      exact hquote
    · rintro ⟨stop, hblob⟩
      obtain ⟨m, -, hm⟩ := hblob.scan_eq_ok
      rw [hscanned, hscan] at hm
      cases hm
  | number hstart hscan =>
    refine ⟨hle, ⟨c, rest, hscanned, hstart⟩, ?_⟩
    rintro ⟨stop, hnumeral⟩
    obtain ⟨m, -, hm⟩ := hnumeral.scan_eq_ok
    rw [hscanned, hscan] at hm
    cases hm

/-- A text that has no tokens has a malformed lexeme, and the text in front of that has tokens. The
error says where this shows. -/
theorem malformedAt_of_tokenize {text : String} {e : ParseError} (h : tokenize text = .error e) :
    e.token = none ∧ ∃ p, e.position = some p ∧ p.absolute ≤ text.length ∧
      p.IsAt text.toList ∧ ∃ s, MalformedAt text.toList s p.absolute e.code ∧
        ∃ ts, tokenize (String.ofList (text.toList.take s)) = .ok ts := by
  obtain ⟨us, c, rest, fault, n, htext, hread, rfl, ts, hts⟩ := faultAt_of_stream h
  have hsplit : text.toList = us ++ (c :: rest).take n ++ (c :: rest).drop n := by
    rw [List.append_assoc, List.take_append_drop, htext]
  refine ⟨rfl, _, rfl, ?_, ?_, us.length, ?_, ts, ?_⟩
  · rw [Position.absolute_after_start, ← String.length_toList, hsplit]
    exact (List.prefix_append _ _).length_le
  · rw [hsplit]
    exact Position.isAt_after _ _
  · rw [Position.absolute_after_start, htext]
    exact malformedAt_of_faulty (Lexeme.faulty_of_read hread) us
  · rw [htext, List.take_left, tokenize, String.toList_ofList, hts]

/-- An exponent without digits in the second line, and a string whose last quote is escaped. -/
theorem malformedAt_of_tokenize_exponent :
    (∃ e, tokenize "a-- !\nor 1.5e+x" = .error e ∧ e.position = some ⟨14, 1, 8⟩ ∧
      ∃ s, MalformedAt "a-- !\nor 1.5e+x".toList s 14 .invalidNumericLiteral) ∧
      ∃ e, tokenize "/*'*/'a''\\'" = .error e ∧ e.token = none ∧
        MalformedAt "/*'*/'a''\\'".toList 5 5 .unterminatedString := by
  have hnumber : tokenize "a-- !\nor 1.5e+x" =
      .error (.atPosition (.number .noExponentDigits) ⟨14, 1, 8⟩) := by
    decide +kernel
  have hstring : tokenize "/*'*/'a''\\'" = .error (.atPosition .unterminatedString ⟨5, 0, 5⟩) := by
    decide +kernel
  obtain ⟨-, p, hp, -, -, s, hs, -⟩ := malformedAt_of_tokenize hnumber
  obtain ⟨hnone, q, hq, -, -, s', hs', -⟩ := malformedAt_of_tokenize hstring
  cases hp
  cases hq
  refine ⟨⟨_, hnumber, rfl, s, hs⟩, _, hstring, hnone, ?_⟩
  obtain ⟨rfl, -⟩ := id hs'
  exact hs'

end Token

end SqliteSchema
