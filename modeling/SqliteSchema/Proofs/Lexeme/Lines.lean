import SqliteSchema.Proofs.Lexeme.LineBreak
import SqliteSchema.Proofs.Lexeme.Spaced

/-!
Two texts, one on the lines behind the other. The first one keeps its tokens, places included,
unless it ends with a word operator, which a line break turns into an operator. The second one has
the tokens, or the fault, that it has alone, as many lines further down.
-/
namespace SqliteSchema

namespace Position

variable {p : Position} {n m : Nat} {cs : List Char}

/-- The place so many characters and whole lines further down. -/
def down (n lines : Nat) (p : Position) : Position := ⟨p.absolute + n, p.line + lines, p.column⟩

theorem next_down (p : Position) (c : Char) : (p.down n m).next c = (p.next c).down n m := by
  unfold next
  split
  · simp only [down, Nat.add_right_comm]
  · simp only [down, Nat.add_right_comm]

theorem after_down (p : Position) (cs : List Char) :
    (p.down n m).after cs = (p.after cs).down n m := by
  induction cs generalizing p with
  | nil => rfl
  | cons c cs ih =>
    change ((p.down n m).next c).after cs = ((p.next c).after cs).down n m
    rw [next_down, ih]

/-- Behind a line break a line starts. -/
theorem after_break (cs : List Char) :
    start.after (cs ++ ['\n']) = start.down (cs.length + 1) (cs.count '\n' + 1) := by
  rw [after_concat, next, if_pos rfl, absolute_after_start, line_after, down, start, Nat.zero_add,
    Nat.zero_add]

end Position

/-- The same token so many characters and lines further down. -/
def Token.down (n lines : Nat) (t : Token) : Token :=
  { t with position := t.position.down n lines }

/-- The same error so many characters and lines further down. -/
def ParseError.down (n lines : Nat) (e : ParseError) : ParseError :=
  { e with token := e.token.map (·.down n lines), position := e.position.map (·.down n lines) }

/-- A token that is spelled like a word operator does not end the text. -/
theorem Lexeme.read_token_spaced {c : Char} {rest tail : List Char} {kind : TokenKind} {n : Nat}
    (h : read c rest = .ok (.token kind n)) (ht : Spaced tail)
    (hend : rest.drop n = [] → ¬ SpellsOperator (c :: rest.take n)) :
    n ≤ rest.length ∧ read c (rest ++ tail) = .ok (.token kind n) := by
  obtain ⟨us, hus⟩ := kept_read h
  obtain rfl : us.length = n := hus.length
  obtain ⟨back, rfl⟩ := hus.front
  rw [List.drop_left, List.take_left] at hend
  refine ⟨by simp, ?_⟩
  rw [List.append_assoc]
  exact hus.again back tail List.prefix_rfl hend ht

namespace Token

variable {p : Position} {cs : List Char} {ts : List Token} {n m : Nat}

/-- The text that is left starts where the lexeme ends. -/
theorem after_take_drop (p : Position) (c : Char) (rest ds : List Char) (n : Nat) :
    (p.after (c :: rest.take n)).after (rest.drop n ++ ds) = p.after (c :: rest ++ ds) := by
  rw [← Position.after_append, ← List.append_assoc, List.cons_append, List.take_append_drop]

/-- A text keeps its tokens in front of a line break. -/
theorem stream_lines (h : stream p cs = .ok ts)
    (hlast : ∀ t ∈ ts.getLast?, t.stop = (p.after cs).absolute →
      t.value.toLower ∉ Lexeme.Operator.words) (ds : List Char) :
    stream p (cs ++ '\n' :: ds) = (stream (p.after (cs ++ ['\n'])) ds).map (ts ++ ·) := by
  induction streamed_of_eq_ok h with
  | nil p =>
    rw [stream_gap_break h]
    change _ = (stream (p.after ([] ++ ['\n'])) ds).map id
    cases stream (p.after ([] ++ ['\n'])) ds <;> rfl
  | @gap p c rest n ts hread htail ih =>
    obtain ⟨hle, hbreak⟩ := Lexeme.read_break hread ds
    have hplace := after_take_drop p c rest [] n
    rw [List.append_nil, List.append_nil] at hplace
    rw [List.cons_append, stream_gap hbreak, List.take_append_of_le_length hle,
      List.drop_append_of_le_length hle, ih htail.eq_ok (by rwa [hplace]), after_take_drop]
  | @token p c rest kind n us hread htail ih =>
    have hplace := after_take_drop p c rest [] n
    rw [List.append_nil, List.append_nil] at hplace
    -- only the last token can be the one that ends the text
    have hend : rest.drop n = [] → ¬ Lexeme.SpellsOperator (c :: rest.take n) := by
      intro hnone hspelled
      have hstream := htail.eq_ok
      rw [hnone, stream_nil] at hstream
      obtain rfl : [] = us := Except.ok.inj hstream
      rw [hnone] at hplace
      have hstop : (⟨String.ofList (c :: rest.take n), kind, p⟩ : Token).stop =
          (p.after (c :: rest)).absolute := by
        rw [← hplace, stop, length, String.length_ofList, ← Position.absolute_after]
        rfl
      have hnot := hlast ⟨String.ofList (c :: rest.take n), kind, p⟩ rfl hstop
      rw [← Lexeme.spellsOperator_toList, String.toList_ofList] at hnot
      exact hnot hspelled
    have hbehind : ∀ t ∈ us.getLast?,
        t.stop = ((p.after (c :: rest.take n)).after (rest.drop n)).absolute →
          t.value.toLower ∉ Lexeme.Operator.words := by
      rw [hplace]
      cases us with
      | nil => exact fun t ht => absurd ht (by simp)
      | cons u us => exact hlast
    have hspaced : Lexeme.Spaced ('\n' :: ds) := by
      rintro d ⟨⟩
      rfl
    obtain ⟨hle, hbreak⟩ := Lexeme.read_token_spaced hread hspaced hend
    rw [List.cons_append, stream_token hbreak, List.take_append_of_le_length hle,
      List.drop_append_of_le_length hle, ih htail.eq_ok hbehind, after_take_drop]
    cases stream (p.after (c :: rest ++ ['\n'])) ds <;> rfl

/-- A text further down has the same tokens, or the same fault, further down. -/
theorem stream_down (p : Position) (cs : List Char) :
    stream (p.down n m) cs = match stream p cs with
      | .ok ts => .ok (ts.map (·.down n m))
      | .error e => .error (e.down n m) := by
  induction p, cs using stream.induct with
  | case1 p =>
    rw [stream_nil, stream_nil]
    rfl
  | case2 p c rest fault k hread =>
    rw [stream_fault hread, stream_fault hread, Position.after_down]
    rfl
  | case3 p c rest k hread ih => rw [stream_gap hread, stream_gap hread, Position.after_down, ih]
  | case4 p c rest kind k hread lexeme =>
    rename_i ih
    rw [stream_token hread, stream_token hread, Position.after_down, ih]
    cases stream (p.after lexeme) (rest.drop k) <;> rfl

/-- A text on the lines behind another has the tokens of both, those of the second one as many
lines further down, or the fault of the second one there. -/
theorem tokenize_lines {a : String} (ha : tokenize a = .ok ts)
    (hlast : ∀ t ∈ ts.getLast?, t.stop = a.length → t.value.toLower ∉ Lexeme.Operator.words)
    (b : String) :
    tokenize (a ++ "\n" ++ b) = match tokenize b with
      | .ok us => .ok (ts ++ us.map (·.down (a.length + 1) (a.toList.count '\n' + 1)))
      | .error e => .error (e.down (a.length + 1) (a.toList.count '\n' + 1)) := by
  have htext : (a ++ "\n" ++ b).toList = a.toList ++ '\n' :: b.toList := by
    rw [String.toList_append, String.toList_append, List.append_assoc]
    rfl
  have hstop : (Position.start.after a.toList).absolute = a.length := by
    rw [Position.absolute_after_start, String.length_toList]
  rw [tokenize, htext, stream_lines ha (by rwa [hstop]), Position.after_break, stream_down,
    String.length_toList, tokenize]
  cases stream .start b.toList <;> rfl

/-- The first text ends in a line comment behind an operator. The second one is good, or breaks off
in a string. -/
theorem tokenize_lines_comment :
    let a := "and\n1 .->>-- 'c"
    ∃ ts, tokenize a = .ok ts ∧
      (∀ t ∈ ts.getLast?, t.stop = a.length → t.value.toLower ∉ Lexeme.Operator.words) ∧
      (∃ us, tokenize ">\n5" = .ok us ∧
        tokenize (a ++ "\n" ++ ">\n5") = .ok (ts ++ us.map (·.down 16 2))) ∧
      ∃ e, tokenize "x\n 'y" = .error e ∧
        tokenize (a ++ "\n" ++ "x\n 'y") = .error (e.down 16 2) := by
  intro a
  have ha : tokenize a = .ok [⟨"and", .operator true false, ⟨0, 0, 0⟩⟩, ⟨"1", .number, ⟨4, 1, 0⟩⟩,
      ⟨".", .other, ⟨6, 1, 2⟩⟩, ⟨"->>", .operator true false, ⟨7, 1, 3⟩⟩] := by
    decide +kernel
  have hgood : tokenize ">\n5" = .ok [⟨">", .operator true false, ⟨0, 0, 0⟩⟩,
      ⟨"5", .number, ⟨2, 1, 0⟩⟩] := by
    decide +kernel
  have hbad : tokenize "x\n 'y" = .error (.atPosition .unterminatedString ⟨3, 1, 1⟩) := by
    decide +kernel
  have hlast : ∀ t ∈ [(⟨"and", .operator true false, ⟨0, 0, 0⟩⟩ : Token), ⟨"1", .number, ⟨4, 1, 0⟩⟩,
      ⟨".", .other, ⟨6, 1, 2⟩⟩, ⟨"->>", .operator true false, ⟨7, 1, 3⟩⟩].getLast?,
      t.stop = a.length → t.value.toLower ∉ Lexeme.Operator.words := by
    decide +kernel
  have hlength : a.length = 15 := by decide
  have hcount : a.toList.count '\n' = 1 := by decide
  have hlines := tokenize_lines ha hlast
  rw [hlength, hcount] at hlines
  refine ⟨_, ha, hlast, ⟨_, hgood, ?_⟩, _, hbad, ?_⟩
  · have hboth := hlines ">\n5"
    rw [hgood] at hboth
    exact hboth
  · have hboth := hlines "x\n 'y"
    rw [hbad] at hboth
    exact hboth

end Token

end SqliteSchema
