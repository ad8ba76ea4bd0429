import SqliteSchema.Proofs.Lexeme.Partition
import SqliteSchema.Proofs.Lexeme.Seam

/-!
Texts one behind the other on lines of their own. A text that ends with a semicolon and perhaps a
gap keeps its tokens in front of a line break, and the text behind it has the tokens that it has
alone, at other places.
-/
namespace SqliteSchema

namespace Lexeme

variable {us vs : List Char} {n : Nat}

/-- The end of a block comment stays where it is. -/
theorem blockTail_append (h : blockTail us = some n) (vs : List Char) :
    n ≤ us.length ∧ blockTail (us ++ vs) = some n := by
  induction us using blockTail.induct generalizing n with
  | case1 => cases h
  | case2 rest =>
    cases h
    exact ⟨by simp, rfl⟩
  | case3 c rest hne ih =>
    rw [blockTail] at h
    · obtain ⟨m, hm, rfl⟩ := Option.map_eq_some_iff.1 h
      obtain ⟨hle, hmore⟩ := ih hm
      refine ⟨Nat.succ_le_succ hle, ?_⟩
      rw [List.cons_append, blockTail, hmore, Option.map_some]
      rintro tail rfl htail
      cases rest with
      | nil => cases hm
      | cons d rest =>
        rw [List.cons_append, List.cons.injEq] at htail
        exact hne rest rfl (htail.1 ▸ rfl)
    · exact hne

theorem lineTail_break (us vs : List Char) :
    lineTail us ≤ us.length ∧ lineTail (us ++ '\n' :: vs) = lineTail us := by
  refine ⟨Literal.leading_le _ us, ?_⟩
  unfold lineTail
  rw [List.takeWhile_append]
  split
  · next hall => simp [hall]
  · rfl

/-- A gap that the text does not end in the middle of is not touched by a line break. -/
theorem read_break {c : Char} (h : read c us = .ok (.gap n)) (vs : List Char) :
    n ≤ us.length ∧ read c (us ++ '\n' :: vs) = .ok (.gap n) := by
  unfold read at h
  split at h
  · next hspace =>
    cases h
    refine ⟨Nat.zero_le _, ?_⟩
    unfold read
    rw [if_pos hspace]
  · split at h
    · next tail _ =>
      cases h
      obtain ⟨hle, hline⟩ := lineTail_break tail vs
      rw [List.cons_append, read_cons, hline]
      exact ⟨by rw [List.length_cons]; omega, rfl⟩
    · next tail _ =>
      split at h
      · next m hm =>
        cases h
        obtain ⟨hle, hblock⟩ := blockTail_append hm ('\n' :: vs)
        rw [List.cons_append, read_cons, hblock]
        exact ⟨by rw [List.length_cons]; omega, rfl⟩
      · cases h
    · exact absurd h (tokenAt_ne_gap _ _ _)

end Lexeme

namespace Token

variable {p q : Position} {cs : List Char} {ts : List Token}

/-- Behind the last token of a text the next line follows. -/
theorem stream_gap_break (h : stream p cs = .ok []) (ds : List Char) :
    stream p (cs ++ '\n' :: ds) = stream (p.after (cs ++ ['\n'])) ds := by
  generalize hnone : ([] : List Token) = ts at h
  induction streamed_of_eq_ok h with
  | nil p =>
    have hread : Lexeme.read '\n' ds = .ok (.gap 0) := rfl
    rw [List.nil_append, stream_gap hread]
    rfl
  | @gap p c rest n ts hread htail ih =>
    obtain ⟨hle, hbreak⟩ := Lexeme.read_break hread ds
    rw [List.cons_append, stream_gap hbreak, List.take_append_of_le_length hle,
      List.drop_append_of_le_length hle, ih hnone htail.eq_ok, ← Position.after_append,
      ← List.append_assoc, List.cons_append, List.take_append_drop]
  | token => cases hnone

/-- A text that ends with a semicolon, if it has tokens at all, keeps them in front of a line
break. -/
theorem stream_break (h : stream p cs = .ok ts) (hlast : ∀ t ∈ ts.getLast?, t.value = ";")
    (ds : List Char) :
    ∃ ts', List.Forall₂ (Moved p p) ts ts' ∧
      stream p (cs ++ '\n' :: ds) = (stream (p.after (cs ++ ['\n'])) ds).map (ts' ++ ·) := by
  rcases List.eq_nil_or_concat ts with rfl | ⟨us, t, rfl⟩
  · refine ⟨[], .nil, ?_⟩
    rw [stream_gap_break h]
    change _ = (stream (p.after (cs ++ ['\n'])) ds).map id
    cases stream (p.after (cs ++ ['\n'])) ds <;> rfl
  · rw [List.concat_eq_append] at h hlast ⊢
    have ht : t.value = ";" := hlast t (by simp)
    obtain ⟨front, value, back, rfl, hcuts, hvalue, hposition, hhere, hback⟩ := cuts_of_stream us h
    rw [ht] at hvalue
    subst hvalue
    change Cuts (';' :: back) p front us at hcuts
    change stream (p.after front) (';' :: back) = .ok [t] at hhere
    obtain ⟨us', hcuts', hmoved⟩ := hcuts.semicolon p (back ++ '\n' :: ds)
    rw [stream_semicolon, ← Position.after_append] at hhere
    change stream (p.after (front ++ [';'])) back = .ok [] at hback
    rw [hback] at hhere
    obtain rfl : ⟨";", .other, p.after front⟩ = t := (List.cons.inj (Except.ok.inj hhere)).1
    refine ⟨us' ++ [⟨";", .other, p.after front⟩],
      List.rel_append hmoved (.cons ⟨.refl _, rfl⟩ .nil), ?_⟩
    have htext : front ++ (";".toList ++ back) ++ '\n' :: ds =
        front ++ ';' :: (back ++ '\n' :: ds) := by
      simp
    have hplace : (p.after (front ++ [';'])).after (back ++ ['\n']) =
        p.after (front ++ (";".toList ++ back) ++ ['\n']) := by
      rw [← Position.after_append]
      simp
    rw [htext, stream_of_cuts hcuts', stream_semicolon, ← Position.after_append,
      stream_gap_break hback, hplace]
    cases stream (p.after (front ++ (";".toList ++ back) ++ ['\n'])) ds <;> simp [Except.map]

/-- The same text at two places has the same tokens, or the same fault. -/
theorem stream_moved (p q : Position) (cs : List Char) :
    (∃ ts ts', stream p cs = .ok ts ∧ stream q cs = .ok ts' ∧ List.Forall₂ (Moved p q) ts ts') ∨
      ∃ e e', stream p cs = .error e ∧ stream q cs = .error e' ∧ e.code = e'.code ∧
        e.message = e'.message := by
  induction p, cs using stream.induct generalizing q with
  | case1 p => exact .inl ⟨[], [], stream_nil p, stream_nil q, .nil⟩
  | case2 p c rest fault n hread =>
    exact .inr ⟨_, _, stream_fault hread, stream_fault hread, rfl, rfl⟩
  | case3 p c rest n hread ih =>
    rw [stream_gap hread, stream_gap hread]
    rcases ih (q.after (c :: rest.take n)) with ⟨ts, ts', hp, hq, hmoved⟩ | herror
    · exact .inl ⟨ts, ts', hp, hq, hmoved.imp fun _ _ ht => ht.behind⟩
    · exact .inr herror
  | case4 p c rest kind n hread lexeme =>
    rename_i ih
    rw [stream_token hread, stream_token hread]
    rcases ih (q.after lexeme) with ⟨ts, ts', hp, hq, hmoved⟩ | ⟨e, e', hp, hq, hsame⟩
    · have hfirst : Moved p q ⟨String.ofList lexeme, kind, p⟩ ⟨String.ofList lexeme, kind, q⟩ :=
        ⟨⟨_, _, _, _⟩, Nat.add_comm _ _⟩
      refine .inl ⟨_, _, by rw [hp]; rfl, by rw [hq]; rfl,
        .cons hfirst (hmoved.imp fun _ _ ht => ht.behind)⟩
    · exact .inr ⟨e, e', by rw [hp]; rfl, by rw [hq]; rfl, hsame⟩

end Token

end SqliteSchema
