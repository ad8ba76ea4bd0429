import Mathlib.Data.List.Induction
import Mathlib.Data.List.TakeWhile
import SqliteSchema.Lexeme.Stream

/-!
How tokens and gaps make up a text. Every character belongs to exactly one token or to a gap in
front of, between or behind the tokens, and a gap holds nothing but white space and comments.
-/
namespace SqliteSchema

/-- The characters from one offset up to another. -/
def between (text : List Char) (i j : Nat) : List Char := (text.drop i).take (j - i)

theorem between_append (us vs ws : List Char) :
    between (us ++ vs ++ ws) us.length (us.length + vs.length) = vs := by
  rw [between, List.append_assoc, List.drop_left, Nat.add_sub_cancel_left, List.take_left]

namespace Position

/-- The place is that of its offset in the text: as many line feeds stand in front of it as its
line says, and as many characters between it and the start of that line as its column says. -/
structure IsAt (text : List Char) (p : Position) : Prop where
  line : p.line = (text.take p.absolute).count '\n'
  column : ∃ before inLine, text.take p.absolute = before ++ inLine ∧
    (before = [] ∨ before.getLast? = some '\n') ∧ '\n' ∉ inLine ∧ p.column = inLine.length

theorem after_concat (p : Position) (cs : List Char) (c : Char) :
    p.after (cs ++ [c]) = (p.after cs).next c := by
  rw [after_append]
  rfl

theorem line_after (cs : List Char) : (start.after cs).line = cs.count '\n' := by
  induction cs using List.reverseRecOn with
  | nil => rfl
  | append_singleton cs c ih =>
    rw [after_concat, next, List.count_append, ← ih]
    by_cases hc : c = '\n' <;> simp [hc]

theorem column_after (cs : List Char) :
    ∃ before inLine, cs = before ++ inLine ∧ (before = [] ∨ before.getLast? = some '\n') ∧
      '\n' ∉ inLine ∧ (start.after cs).column = inLine.length := by
  induction cs using List.reverseRecOn with
  | nil => exact ⟨[], [], rfl, .inl rfl, by simp, rfl⟩
  | append_singleton cs c ih =>
    obtain ⟨before, inLine, rfl, hbefore, hnone, hcolumn⟩ := ih
    rw [after_concat, next]
    by_cases hc : c = '\n'
    · exact ⟨before ++ inLine ++ [c], [], by simp, .inr (by simp [hc]), by simp, by simp [hc]⟩
    · refine ⟨before, inLine ++ [c], by simp, hbefore, ?_, by simp [hc, hcolumn]⟩
      simp [hnone, Ne.symm hc]

theorem absolute_after_start (cs : List Char) : (start.after cs).absolute = cs.length := by
  rw [absolute_after]
  exact Nat.zero_add _

theorem isAt_after (us vs : List Char) : (start.after us).IsAt (us ++ vs) := by
  have htake : (us ++ vs).take (start.after us).absolute = us := by
    rw [absolute_after_start, List.take_left]
  constructor
  · rw [htake, line_after]
  · rw [htake]
    exact column_after us

end Position

namespace Lexeme

/-- A gap in front of `rest`. A line comment in it runs up to the next line feed or to the end of
the text, and a block comment ends with the first `*` `/` in it. -/
inductive IsGap : List Char → List Char → Prop
  | nil {rest : List Char} : IsGap [] rest
  | space {c : Char} {gap rest : List Char} (hc : Text.isWhiteSpace c = true)
      (hg : IsGap gap rest) : IsGap (c :: gap) rest
  | line {body gap rest : List Char} (hb : '\n' ∉ body)
      (he : ∀ c ∈ (gap ++ rest).head?, c = '\n') (hg : IsGap gap rest) :
      IsGap ('-' :: '-' :: (body ++ gap)) rest
  | block {body gap rest : List Char} (hb : ¬ ['*', '/'] <:+: body ++ ['*'])
      (hg : IsGap gap rest) : IsGap ('/' :: '*' :: (body ++ '*' :: '/' :: gap)) rest

/-- A block comment ends with the first closing mark. -/
theorem blockTail_eq_some {cs : List Char} {n : Nat} (h : blockTail cs = some n) :
    ∃ body, cs.take n = body ++ ['*', '/'] ∧ ¬ ['*', '/'] <:+: body ++ ['*'] := by
  induction cs using blockTail.induct generalizing n with
  | case1 => simp [blockTail] at h
  | case2 rest =>
    cases h
    exact ⟨[], rfl, by decide⟩
  | case3 c rest hne ih =>
    rw [blockTail] at h
    · obtain ⟨m, hm, rfl⟩ := Option.map_eq_some_iff.1 h
      obtain ⟨body, htake, hnone⟩ := ih hm
      refine ⟨c :: body, by simp [htake], ?_⟩
      rw [List.cons_append, List.infix_cons_iff, not_or]
      refine ⟨?_, hnone⟩
      -- a closing mark here would have ended the comment at `c`
      rintro ⟨tail, heq⟩
      simp only [List.cons_append, List.nil_append, List.cons.injEq] at heq
      obtain ⟨rfl, heq⟩ := heq
      cases body with
      | nil => simp at heq
      | cons d body =>
        simp only [List.cons_append, List.cons.injEq] at heq
        obtain ⟨rfl, -⟩ := heq
        cases rest with
        | nil => simp at htake
        | cons e rest =>
          cases m with
          | zero => simp at htake
          | succ m =>
            simp only [List.take_succ_cons, List.cons_append, List.cons.injEq] at htake
            exact hne rest rfl (by rw [htake.1])
    · exact hne

/-- A line comment ends where its line or the text does. -/
theorem lineTail_spec (cs : List Char) :
    '\n' ∉ cs.take (lineTail cs) ∧ ∀ c ∈ (cs.drop (lineTail cs)).head?, c = '\n' := by
  have htake : cs.take (lineTail cs) = cs.takeWhile (· != '\n') := Literal.take_leading _ cs
  have hdrop : cs.drop (lineTail cs) = cs.dropWhile (· != '\n') := Literal.drop_leading _ cs
  rw [htake, hdrop]
  constructor
  · intro hmem
    simpa using List.mem_takeWhile_imp hmem
  · intro c hc
    have hfind := List.find?_not_eq_head?_dropWhile (p := (· != '\n')) (l := cs)
    rw [Option.mem_def, ← hfind] at hc
    simpa using List.find?_some hc

/-- A token is no gap. -/
theorem tokenAt_ne_gap (c : Char) (rest : List Char) (n : Nat) :
    tokenAt c rest ≠ .ok (.gap n) := by
  intro h
  have hliteral {φ : Type} (kind : TokenKind) (fault : φ → Fault) (scan : Literal.Scan φ) :
      literal kind fault scan ≠ .ok (.gap n) := by
    cases scan <;> simp [literal]
  have hclosed (kind : TokenKind) (fault : Fault) (tail : Option Nat) :
      closed kind fault tail ≠ .ok (.gap n) := by
    cases tail <;> simp [closed]
  have hword : operatorOrWord c rest ≠ .ok (.gap n) := by
    unfold operatorOrWord word
    repeat' split
    all_goals simp
  unfold tokenAt at h
  split at h
  · simp at h
  · split at h
    · simp at h
    · split at h
      · exact hliteral _ _ _ h
      · split at h
        · exact hclosed _ _ _ h
        · split at h
          · exact hliteral _ _ _ h
          · split at h
            · exact hclosed _ _ _ h
            · exact hword h

/-- A piece of a gap in front of a gap. -/
theorem IsGap.ofRead {c : Char} {rest gap after : List Char} {n : Nat}
    (h : read c rest = .ok (.gap n)) (hrest : rest.drop n = gap ++ after) (hg : IsGap gap after) :
    IsGap (c :: rest.take n ++ gap) after := by
  unfold read at h
  split at h
  · next hspace =>
    cases h
    exact .space hspace hg
  · split at h
    · next tail _ =>
      cases h
      rw [Nat.add_comm, List.drop_succ_cons] at hrest
      obtain ⟨hnone, hend⟩ := lineTail_spec tail
      rw [hrest] at hend
      rw [Nat.add_comm, List.take_succ_cons]
      exact .line hnone hend hg
    · next tail _ =>
      split at h
      · next m hm =>
        cases h
        obtain ⟨body, htake, hnone⟩ := blockTail_eq_some hm
        rw [Nat.add_comm, List.drop_succ_cons] at hrest
        rw [Nat.add_comm, List.take_succ_cons, htake]
        have hblock := IsGap.block hnone hg
        simpa using hblock
      · cases h
    · exact absurd h (tokenAt_ne_gap _ _ _)

end Lexeme

namespace Token

/-- A text from a place on, made of gaps and the tokens between them. -/
inductive Tiles : Position → List Char → List Token → Prop
  | nil {p : Position} {gap : List Char} (hg : Lexeme.IsGap gap []) : Tiles p gap []
  | cons {p : Position} {gap value rest : List Char} {ts : List Token} (kind : TokenKind)
      (hg : Lexeme.IsGap gap (value ++ rest)) (hv : value ≠ [])
      (ht : Tiles (p.after (gap ++ value)) rest ts) :
      Tiles p (gap ++ value ++ rest) (⟨String.ofList value, kind, p.after gap⟩ :: ts)

variable {p : Position} {cs us : List Char} {ts : List Token}

/-- A piece of a gap belongs to the gap in front of the first token. -/
theorem Tiles.ofGap {c : Char} {rest : List Char} {n : Nat}
    (h : Lexeme.read c rest = .ok (.gap n))
    (ht : Tiles (p.after (c :: rest.take n)) (rest.drop n) ts) : Tiles p (c :: rest) ts := by
  have hsplit : c :: rest = c :: rest.take n ++ rest.drop n := by simp
  generalize hrest : rest.drop n = left at ht
  cases ht with
  | nil hg =>
    have hgap := Lexeme.IsGap.ofRead h (by rw [hrest, List.append_nil]) hg
    rw [hsplit, hrest]
    exact .nil hgap
  | @cons _ gap value rest' ts kind hg hv ht =>
    have hgap := Lexeme.IsGap.ofRead h (by rw [hrest, List.append_assoc]) hg
    rw [← Position.after_append] at ht ⊢
    have htiles := Tiles.cons kind hgap hv (by rwa [List.append_assoc])
    rw [hsplit, hrest]
    simpa using htiles

/-- Cutting a text that can be cut tiles it. -/
theorem tiles_of_stream (h : stream p cs = .ok ts) : Tiles p cs ts := by
  induction streamed_of_eq_ok h with
  | nil p => exact .nil .nil
  | gap hread htail ih => exact .ofGap hread (ih htail.eq_ok)
  | @token p c rest kind n us _ htail ih =>
    have hnone : Lexeme.IsGap [] (c :: rest.take n ++ rest.drop n) := .nil
    have htiles := Tiles.cons kind hnone (List.cons_ne_nil c (rest.take n)) (ih htail.eq_ok)
    rwa [List.nil_append, List.cons_append, List.take_append_drop] at htiles

/-- The token is the text of its interval, which is not empty, and starts where it says. -/
structure StandsIn (text : List Char) (t : Token) : Prop where
  nonempty : t.position.absolute < t.stop
  inside : t.stop ≤ text.length
  value : t.value.toList = between text t.position.absolute t.stop
  place : t.position.IsAt text

/-- Where the gaps of a text start and stop: in front of the first token, between two tokens and
behind the last one. -/
def gapBounds (first length : Nat) (ts : List Token) : List (Nat × Nat) :=
  (first :: ts.map stop).zip (ts.map (·.position.absolute) ++ [length])

theorem stop_after (us value : List Char) (kind : TokenKind) :
    (⟨String.ofList value, kind, .after .start us⟩ : Token).stop = (us ++ value).length := by
  simp [stop, length, Position.absolute_after_start]

theorem standsIn_after (us rest : List Char) {value : List Char} (kind : TokenKind)
    (hv : value ≠ []) :
    (⟨String.ofList value, kind, .after .start us⟩ : Token).StandsIn (us ++ value ++ rest) := by
  have hstart : (Position.start.after us).absolute = us.length :=
    Position.absolute_after_start us
  have hpos : 0 < value.length := List.length_pos_iff.2 hv
  constructor
  · rw [stop_after, hstart, List.length_append]
    omega
  · rw [stop_after]
    simp only [List.length_append]
    omega
  · rw [stop_after, hstart, List.length_append, between_append, String.toList_ofList]
  · rw [List.append_assoc]
    exact Position.isAt_after us (value ++ rest)

theorem Tiles.partition (h : Tiles p cs ts) (us : List Char) (hp : p = .after .start us) :
    (∀ t ∈ ts, t.StandsIn (us ++ cs) ∧ us.length ≤ t.position.absolute) ∧
    ts.Pairwise (fun t u => t.stop ≤ u.position.absolute) ∧
    ∀ b ∈ gapBounds us.length (us ++ cs).length ts,
      b.1 ≤ b.2 ∧ Lexeme.IsGap (between (us ++ cs) b.1 b.2) ((us ++ cs).drop b.2) := by
  induction h generalizing us with
  | @nil p gap hg =>
    have hbetween := between_append us gap []
    rw [List.append_nil] at hbetween
    simpa [gapBounds, hbetween] using hg
  | @cons p gap value rest ts kind hg hv ht ih =>
    subst hp
    have hthis := ih (us ++ gap ++ value) (by simp [Position.after_append])
    have htext : us ++ (gap ++ value ++ rest) = us ++ gap ++ value ++ rest := by simp
    rw [← Position.after_append, htext]
    obtain ⟨htokens, hpairwise, hgaps⟩ := hthis
    refine ⟨?_, ?_, ?_⟩
    · intro t ht
      rcases List.mem_cons.1 ht with rfl | ht
      · refine ⟨standsIn_after (us ++ gap) rest kind hv, ?_⟩
        rw [Position.absolute_after_start, List.length_append]
        omega
      · obtain ⟨hstands, hle⟩ := htokens t ht
        simp only [List.length_append] at hle
        exact ⟨hstands, by omega⟩
    · rw [List.pairwise_cons]
      refine ⟨fun t ht => ?_, hpairwise⟩
      rw [stop_after]
      exact (htokens t ht).2
    · intro b hb
      rw [gapBounds, List.map_cons, List.map_cons, List.cons_append, List.zip_cons_cons,
        stop_after, Position.absolute_after_start] at hb
      rcases List.mem_cons.1 hb with rfl | hb
      · rw [List.append_assoc _ value rest, List.drop_left, List.length_append, between_append]
        exact ⟨Nat.le_add_right _ _, hg⟩
      · exact hgaps b hb

/-- The tokens of a text and the gaps around them make up the text. The tokens are not empty and
stand in order, each with its own text and place, and the gaps are white space and comments. -/
theorem tokenize_partition {text : String} {ts : List Token} (h : tokenize text = .ok ts) :
    (∀ t ∈ ts, t.StandsIn text.toList) ∧
    ts.Pairwise (fun t u => t.stop ≤ u.position.absolute) ∧
    ∀ b ∈ gapBounds 0 text.length ts,
      b.1 ≤ b.2 ∧ Lexeme.IsGap (between text.toList b.1 b.2) (text.toList.drop b.2) := by
  have htiles : Tiles .start text.toList ts := tiles_of_stream h
  obtain ⟨htokens, hpairwise, hgaps⟩ := htiles.partition [] rfl
  rw [← String.length_toList]
  exact ⟨fun t ht => (htokens t ht).1, hpairwise, hgaps⟩

/-- Comment marks in a string, and quotes in comments. -/
theorem tokenize_partition_comments :
    let text := "a -- it's\n <>/* ' */'--\n/*'b"
    let ts : List Token := [⟨"a", .other, ⟨0, 0, 0⟩⟩, ⟨"<>", .operator true false, ⟨11, 1, 1⟩⟩,
      ⟨"'--\n/*'", .string, ⟨20, 1, 10⟩⟩, ⟨"b", .other, ⟨27, 2, 3⟩⟩]
    tokenize text = .ok ts ∧ (∀ t ∈ ts, t.StandsIn text.toList) ∧
      ts.Pairwise (fun t u => t.stop ≤ u.position.absolute) ∧
      ∀ b ∈ gapBounds 0 text.length ts,
        b.1 ≤ b.2 ∧ Lexeme.IsGap (between text.toList b.1 b.2) (text.toList.drop b.2) := by
  intro text ts
  have h : tokenize text = .ok ts := by decide +kernel
  exact ⟨h, tokenize_partition h⟩

end Token

end SqliteSchema
