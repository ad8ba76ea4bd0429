import Mathlib.Data.List.Infix
import SqliteSchema.Proofs.Lexeme.FirstCharacter

/-!
Which strings have a literal. A string is written with a backslash or another quote in front of each
of its quotes. The scanner and the unescaper pair up quotes each on its own, and both undo this. The
strings that end in a backslash have no literal, and all others have one.
-/
namespace SqliteSchema.Literal.Quoted

variable {mark c d : Char} {cs rest tail : List Char} {n : Nat}

/-- Read from the left, every quote of the text belongs to a pair with the backslash or the quote in
front of it. The text stands in front of `tail`. -/
inductive Paired (tail : List Char) : List Char → Prop
  | nil : Paired tail []
  | pair {mark : Char} {cs : List Char} (hmark : mark = '\\' ∨ mark = '\'') (h : Paired tail cs) :
    Paired tail (mark :: '\'' :: cs)
  | plain {c : Char} {cs : List Char} (hc : c ≠ '\'')
    (hnext : c = '\\' → (cs ++ tail).head? ≠ some '\'') (h : Paired tail cs) : Paired tail (c :: cs)

/-! ### Pairs and characters -/

theorem stringTail_pair (hmark : mark = '\\' ∨ mark = '\'') (cs : List Char) :
    stringTail (mark :: '\'' :: cs) = (stringTail cs).map (· + 2) := by
  rcases hmark with rfl | rfl
  · rw [stringTail]
  · rw [stringTail]

theorem stringTail_plain (hc : c ≠ '\'') (hnext : c = '\\' → cs.head? ≠ some '\'') :
    stringTail (c :: cs) = (stringTail cs).map (· + 1) := by
  rw [stringTail]
  · rintro tail hslash rfl
    exact hnext hslash rfl
  · rintro tail rfl
    exact absurd rfl hc
  · exact hc

theorem unescape_pair (hmark : mark = '\\' ∨ mark = '\'') (cs : List Char) :
    unescape (mark :: '\'' :: cs) = '\'' :: unescape cs := by
  rcases hmark with rfl | rfl
  · rw [unescape]
  · rw [unescape]

theorem unescape_plain (hc : c ≠ '\'') (hnext : c = '\\' → cs.head? ≠ some '\'') :
    unescape (c :: cs) = c :: unescape cs := by
  rw [unescape]
  · rintro tail hslash rfl
    exact hnext hslash rfl
  · rintro tail rfl
    exact absurd rfl hc

theorem unescape_ne_nil (h : cs ≠ []) : unescape cs ≠ [] := by
  unfold unescape
  split
  · contradiction
  · exact List.cons_ne_nil _ _
  · exact List.cons_ne_nil _ _
  · exact List.cons_ne_nil _ _

/-! ### The scanner -/

/-- A string goes on as long as its quotes are paired. -/
theorem Paired.stringTail_append (h : Paired tail cs) :
    stringTail (cs ++ tail) = (stringTail tail).map (cs.length + ·) := by
  induction h with
  | nil =>
    rw [List.nil_append]
    cases stringTail tail <;> simp
  | pair hmark _ ih =>
    rw [List.cons_append, List.cons_append, stringTail_pair hmark, ih, Option.map_map]
    congr 1
    funext m
    simp only [Function.comp_apply, List.length_cons]
    omega
  | plain hc hnext _ ih =>
    rw [List.cons_append, stringTail_plain hc hnext, ih, Option.map_map]
    congr 1
    funext m
    simp only [Function.comp_apply, List.length_cons]
    omega

/-- A quote that belongs to no pair ends the string, and nothing else does. -/
theorem exists_paired (cs : List Char) :
    Paired [] cs ∨ ∃ inside rest, cs = inside ++ '\'' :: rest ∧ Paired ('\'' :: rest) inside ∧
      rest.head? ≠ some '\'' := by
  induction cs using stringTail.induct with
  | case1 => exact .inl .nil
  | case2 rest ih =>
    refine ih.imp (.pair (.inl rfl)) ?_
    rintro ⟨inside, rest, rfl, hpaired, hend⟩
    exact ⟨_, rest, rfl, .pair (.inl rfl) hpaired, hend⟩
  | case3 rest ih =>
    refine ih.imp (.pair (.inr rfl)) ?_
    rintro ⟨inside, rest, rfl, hpaired, hend⟩
    exact ⟨_, rest, rfl, .pair (.inr rfl) hpaired, hend⟩
  | case4 rest hne =>
    refine .inr ⟨[], rest, rfl, .nil, fun hend => ?_⟩
    obtain ⟨tail, rfl⟩ := List.head?_eq_some_iff.1 hend
    exact hne tail rfl
  | case5 c rest h₁ h₂ h₃ ih =>
    have hnext : c = '\\' → rest.head? ≠ some '\'' := by
      intro hslash hquote
      obtain ⟨tail, rfl⟩ := List.head?_eq_some_iff.1 hquote
      exact h₁ tail hslash rfl
    refine ih.imp (.plain h₃ (by rwa [List.append_nil])) ?_
    rintro ⟨inside, rest, rfl, hpaired, hend⟩
    exact ⟨_, rest, rfl, .plain h₃ hnext hpaired, hend⟩

theorem stringTail_quote (h : rest.head? ≠ some '\'') : stringTail ('\'' :: rest) = some 1 := by
  rw [stringTail]
  rintro tail rfl
  exact h rfl

theorem stringTail_eq_some (h : stringTail cs = some n) : ∃ inside rest,
    cs = inside ++ '\'' :: rest ∧ Paired ('\'' :: rest) inside ∧ n = inside.length + 1 := by
  rcases exists_paired cs with hopen | ⟨inside, rest, rfl, hpaired, hend⟩
  · have hnone := hopen.stringTail_append
    rw [List.append_nil, h] at hnone
    cases hnone
  · have htail := hpaired.stringTail_append
    rw [h, stringTail_quote hend] at htail
    exact ⟨inside, rest, rfl, hpaired, Option.some.inj htail⟩

theorem stringTail_eq_none (h : stringTail cs = none) : Paired [] cs := by
  rcases exists_paired cs with hopen | ⟨inside, rest, rfl, hpaired, hend⟩
  · exact hopen
  · have htail := hpaired.stringTail_append
    rw [h, stringTail_quote hend] at htail
    cases htail

/-! ### The value -/

/-- What is looked at behind a character is looked at in front of the closing quote too. -/
theorem head?_ne_of_append (h : (cs ++ tail).head? ≠ some d) : cs.head? ≠ some d := by
  cases cs with
  | nil => exact nofun
  | cons c cs => exact h

/-- The value does not end in a backslash, which would belong to the closing quote. -/
theorem Paired.getLast?_unescape (h : Paired ('\'' :: rest) cs) :
    (unescape cs).getLast? ≠ some '\\' := by
  induction h with
  | nil => exact nofun
  | @pair mark cs hmark _ ih =>
    rw [unescape_pair hmark, List.getLast?_cons]
    cases hlast : (unescape cs).getLast? with
    | none => decide
    | some d => exact hlast ▸ ih
  | @plain c cs hc hnext _ ih =>
    rw [unescape_plain hc fun hslash => head?_ne_of_append (hnext hslash)]
    cases cs with
    | nil =>
      rintro ⟨⟩
      exact hnext rfl rfl
    | cons d cs =>
      obtain ⟨e, us, hus⟩ := List.exists_cons_of_ne_nil (unescape_ne_nil (List.cons_ne_nil d cs))
      rw [hus] at ih ⊢
      rwa [List.getLast?_cons_cons]

theorem stripQuotes_quoted (cs : List Char) : stripQuotes ('\'' :: (cs ++ ['\''])) = cs := by
  rw [stripQuotes, if_pos List.getLast?_concat, List.dropLast_concat]

/-- The value of a literal token. -/
theorem unquoted_quoted (cs : List Char) (p : Position) :
    (⟨String.ofList ('\'' :: (cs ++ ['\''])), .string, p⟩ : Token).unquoted =
      String.ofList (unescape cs) := by
  have hvalue (s : String) : (⟨s, .string, p⟩ : Token).unquoted =
      String.ofList (unescape (stripQuotes s.toList)) := rfl
  rw [hvalue, String.toList_ofList, stripQuotes_quoted]

theorem getLast?_unquoted {text : String} {ts : List Token} (h : Token.tokenize text = .ok ts) :
    ∀ t ∈ ts, t.kind = .string → t.unquoted.toList.getLast? ≠ some '\\' := by
  refine Token.forall_of_stream ?_ h
  rintro c rest kind n hread p rfl
  obtain ⟨rfl, htail⟩ := Lexeme.readAs_of_read hread
  obtain ⟨inside, rest, rfl, hpaired, rfl⟩ := stringTail_eq_some htail
  rw [List.take_length_add_append, List.take_succ_cons, List.take_zero, unquoted_quoted,
    String.toList_ofList]
  exact hpaired.getLast?_unescape

/-! ### Strings that are written -/

/-- The string with `mark` in front of every quote. -/
def escape (mark : Char) (cs : List Char) : List Char :=
  cs.flatMap fun c => if c = '\'' then [mark, '\''] else [c]

/-- The literal that is written for a string. -/
def write (mark : Char) (s : String) : String :=
  String.ofList ('\'' :: (escape mark s.toList ++ ['\'']))

/-- The text is one literal, and this is its value. -/
def Denotes (text s : String) : Prop :=
  ∃ t, Token.tokenize text = .ok [t] ∧ t.kind = .string ∧ t.unquoted = s

theorem escape_quote (mark : Char) (cs : List Char) :
    escape mark ('\'' :: cs) = mark :: '\'' :: escape mark cs := rfl

theorem escape_plain (mark : Char) (hc : c ≠ '\'') (cs : List Char) :
    escape mark (c :: cs) = c :: escape mark cs := by
  rw [escape, List.flatMap_cons, if_neg hc]
  rfl

/-- A string that can be read again if `mark` is written in front of its quotes. A backslash in
front of a quote would take the place of the mark. -/
structure Writable (mark : Char) (cs : List Char) : Prop where
  mark : mark = '\\' ∨ mark = '\'' ∧ ¬ ['\\', '\''] <:+: cs
  last : cs.getLast? ≠ some '\\'

theorem Writable.of_cons (h : Writable mark (c :: cs)) : Writable mark cs where
  mark := h.mark.imp_right fun ⟨hm, hnone⟩ =>
    ⟨hm, fun hcs => hnone (hcs.trans (List.infix_cons List.infix_rfl))⟩
  last := by
    intro hlast
    cases cs with
    | nil => cases hlast
    | cons d cs => exact h.last (by rwa [List.getLast?_cons_cons])

/-- No quote follows a backslash where the next quote of the string has its mark. -/
theorem Writable.next (h : Writable mark ('\\' :: cs)) :
    (escape mark cs ++ ['\'']).head? ≠ some '\'' := by
  cases cs with
  | nil => exact absurd rfl h.last
  | cons d cs =>
    by_cases hd : d = '\''
    · subst hd
      rcases h.mark with rfl | ⟨-, hnone⟩
      · exact nofun
      · exact absurd ⟨[], cs, rfl⟩ hnone
    · rw [escape_plain mark hd]
      rintro ⟨⟩
      exact hd rfl

theorem Writable.paired (h : Writable mark cs) : Paired ['\''] (escape mark cs) := by
  induction cs with
  | nil => exact .nil
  | cons c cs ih =>
    by_cases hc : c = '\''
    · subst hc
      rw [escape_quote]
      exact .pair (h.mark.imp_right And.left) (ih h.of_cons)
    · rw [escape_plain mark hc]
      refine .plain hc ?_ (ih h.of_cons)
      rintro rfl
      exact h.next

theorem Writable.unescape_escape (h : Writable mark cs) : unescape (escape mark cs) = cs := by
  induction cs with
  | nil => rfl
  | cons c cs ih =>
    by_cases hc : c = '\''
    · subst hc
      rw [escape_quote, unescape_pair (h.mark.imp_right And.left), ih h.of_cons]
    · have hnext : c = '\\' → (escape mark cs).head? ≠ some '\'' := by
        rintro rfl
        exact head?_ne_of_append h.next
      rw [escape_plain mark hc, unescape_plain hc hnext, ih h.of_cons]

theorem Writable.denotes {s : String} (h : Writable mark s.toList) : Denotes (write mark s) s := by
  have htail : stringTail (escape mark s.toList ++ ['\'']) =
      some (escape mark s.toList ++ ['\'']).length := by
    rw [h.paired.stringTail_append, List.length_append]
    rfl
  have hread : Lexeme.read '\'' (escape mark s.toList ++ ['\'']) =
      .ok (.token .string (escape mark s.toList ++ ['\'']).length) := by
    have hclosed : Lexeme.read '\'' (escape mark s.toList ++ ['\'']) =
        Lexeme.closed .string .unterminatedString
          (stringTail (escape mark s.toList ++ ['\''])) := rfl
    rw [hclosed, htail]
    rfl
  refine ⟨_, Lexeme.tokenize_token hread, rfl, ?_⟩
  rw [unquoted_quoted, h.unescape_escape, String.ofList_toList]

/-- A string that does not end in a backslash has a literal, in which a backslash stands in front of
each of its quotes. Where no backslash stands in front of a quote, the quotes may be doubled
instead. No other strings have literals. -/
theorem denotes_write (s : String) :
    (s.toList.getLast? ≠ some '\\' → Denotes (write '\\' s) s) ∧
    (s.toList.getLast? ≠ some '\\' → ¬ ['\\', '\''] <:+: s.toList → Denotes (write '\'' s) s) ∧
    ((∃ text ts t, Token.tokenize text = .ok ts ∧ t ∈ ts ∧ t.kind = .string ∧ t.unquoted = s) ↔
      s.toList.getLast? ≠ some '\\') := by
  have hescaped (hlast : s.toList.getLast? ≠ some '\\') : Denotes (write '\\' s) s :=
    Writable.denotes ⟨.inl rfl, hlast⟩
  refine ⟨hescaped, fun hlast hnone => Writable.denotes ⟨.inr ⟨rfl, hnone⟩, hlast⟩, ?_, ?_⟩
  · rintro ⟨text, ts, t, hts, ht, hkind, rfl⟩
    exact getLast?_unquoted hts t ht hkind
  · intro hlast
    obtain ⟨t, htext, hkind, hvalue⟩ := hescaped hlast
    exact ⟨write '\\' s, [t], t, htext, List.mem_singleton_self t, hkind, hvalue⟩

/-- Quotes at both ends, and a backslash in front of a letter. -/
theorem denotes_write_quotes :
    let s := "''a\\b'"
    write '\\' s = "'\\'\\'a\\b\\''" ∧ Denotes (write '\\' s) s ∧
      write '\'' s = "'''''a\\b'''" ∧ Denotes (write '\'' s) s := by
  intro s
  have hlast : s.toList.getLast? ≠ some '\\' := by decide
  have hnone : ¬ ['\\', '\''] <:+: s.toList := by decide
  obtain ⟨hescaped, hdoubled, -⟩ := denotes_write s
  exact ⟨by decide, hescaped hlast, by decide, hdoubled hlast hnone⟩

end SqliteSchema.Literal.Quoted
