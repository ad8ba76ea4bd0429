import SqliteSchema.Proofs.Lexeme.Spaced

/-!
Which token a text starts with. The first character tells it, with the one behind it where that is a
point or an `x`, so that the kind of a token says how the token was read.
-/
namespace SqliteSchema.Lexeme

open Literal

variable {c : Char} {rest : List Char} {kind : TokenKind} {fault : Fault} {n : Nat}

/-- The three ways to quote a name. -/
theorem closing?_cases {close : Char} (h : Quoted.closing? c = some close) :
    c = '[' ∧ close = ']' ∨ c = '"' ∧ close = '"' ∨ c = '\x60' ∧ close = '\x60' := by
  unfold Quoted.closing? at h
  split at h
  · next hc => exact .inl ⟨hc, (Option.some.inj h).symm⟩
  · split at h
    · next hc => exact .inr (.inl ⟨hc, (Option.some.inj h).symm⟩)
    · split at h
      · next hc => exact .inr (.inr ⟨hc, (Option.some.inj h).symm⟩)
      · cases h

/-- The first characters of a number: a digit, or a point in front of one. -/
def StartsNumber (c : Char) (rest : List Char) : Prop :=
  c.isDigit = true ∨ c = '.' ∧ ∃ d ∈ rest.head?, d.isDigit = true

/-- How the token at the front of a text is read that does not start with a gap. -/
inductive Begins (c : Char) (rest : List Char) : Outcome → Prop
  | mark (h : c ∈ punctuation ∨ c = '.') : Begins c rest (.ok (.token .other 0))
  | number (h : StartsNumber c rest) :
    Begins c rest (literal .number .number (Number.scan (c :: rest)))
  | string (h : c = '\'') :
    Begins c rest (closed .string .unterminatedString (Quoted.stringTail rest))
  | blob (h : c = 'x' ∨ c = 'X') (hquote : rest.head? = some '\'') :
    Begins c rest (literal .blob .blob (Blob.scan (c :: rest)))
  | identifier {close : Char} (h : Quoted.closing? c = some close) :
    Begins c rest (closed .other .unterminatedIdentifier (Quoted.identifierTail close rest))
  | word (h : c ∉ '\'' :: '.' :: punctuation) (hclosing : Quoted.closing? c = none) :
    Begins c rest (operatorOrWord c rest)

theorem begins_tokenAt (c : Char) (rest : List Char) : Begins c rest (tokenAt c rest) := by
  unfold tokenAt
  split
  · next h => exact .mark (.inl (List.contains_iff_mem.1 h))
  next hmark =>
  split
  · next h => exact .mark (.inr (eq_of_beq (Bool.and_eq_true_iff.1 h).1))
  next hpoint =>
  split
  · next h =>
    rcases Bool.or_eq_true_iff.1 h with h | h
    · rw [h, Bool.true_and, Bool.not_eq_true', Bool.not_eq_false, Option.any_eq_true] at hpoint
      exact .number (.inr ⟨eq_of_beq h, hpoint⟩)
    · exact .number (.inl h)
  next hnumber =>
  split
  · next h => exact .string (eq_of_beq h)
  next hquote =>
  split
  · next h =>
    obtain ⟨hx, hhead⟩ := Bool.and_eq_true_iff.1 h
    exact .blob ((Bool.or_eq_true_iff.1 hx).imp eq_of_beq eq_of_beq) (eq_of_beq hhead)
  · split
    · next h => exact .identifier h
    · next h =>
      refine .word ?_ h
      rw [List.contains_iff_mem] at hmark
      simp only [Bool.or_eq_true, beq_iff_eq, not_or] at hnumber hquote
      simp only [List.mem_cons, not_or]
      exact ⟨hquote, hnumber.1, hmark⟩

/-! ### Tokens -/

/-- A word is no literal. -/
theorem kind_of_operatorOrWord (h : operatorOrWord c rest = .ok (.token kind n)) :
    kind = .other ∨ ∃ binary unary, kind = .operator binary unary := by
  unfold operatorOrWord at h
  split at h
  · cases h
    exact .inr ⟨_, _, rfl⟩
  · split at h
    · cases h
      exact .inr ⟨_, _, rfl⟩
    · unfold word at h
      split at h
      · cases h
      · cases h
        exact .inl rfl

/-- What a token of this kind goes on with behind its first character. -/
def ReadAs (c : Char) (rest : List Char) (n : Nat) : TokenKind → Prop
  | .string => c = '\'' ∧ Quoted.stringTail rest = some n
  | .number => StartsNumber c rest ∧ ∃ m, Number.scan (c :: rest) = .ok m ∧ n = m - 1
  | .blob => ∃ m, Blob.scan (c :: rest) = .ok m ∧ n = m - 1
  | .other | .operator _ _ => True

theorem readAs_of_read (h : read c rest = .ok (.token kind n)) : ReadAs c rest n kind := by
  obtain ⟨-, -, htoken⟩ := read_eq_token.1 h
  have hbegins := begins_tokenAt c rest
  generalize tokenAt c rest = o at htoken hbegins
  cases hbegins with
  | mark =>
    cases htoken
    trivial
  | number hstart =>
    obtain ⟨m, hscan, hl⟩ := literal_eq_ok.1 htoken
    cases hl
    exact ⟨hstart, m, hscan, rfl⟩
  | string hc =>
    obtain ⟨m, htail, hl⟩ := closed_eq_ok.1 htoken
    cases hl
    exact ⟨hc, htail⟩
  | blob =>
    obtain ⟨m, hscan, hl⟩ := literal_eq_ok.1 htoken
    cases hl
    exact ⟨m, hscan, rfl⟩
  | identifier =>
    obtain ⟨m, -, hl⟩ := closed_eq_ok.1 htoken
    cases hl
    trivial
  | word =>
    rcases kind_of_operatorOrWord htoken with rfl | ⟨binary, unary, rfl⟩
    · trivial
    · trivial

/-- A text that is one token. -/
theorem tokenize_token (h : read c rest = .ok (.token kind rest.length)) :
    Token.tokenize (String.ofList (c :: rest)) =
      .ok [⟨String.ofList (c :: rest), kind, .start⟩] := by
  rw [Token.tokenize, String.toList_ofList, Token.stream_token h, List.drop_length,
    List.take_length, Token.stream_nil]
  rfl

/-! ### Faults -/

theorem literal_eq_error {φ : Type} {of : φ → Fault} {scan : Scan φ} :
    literal kind of scan = .error (fault, n) ↔ ∃ f, scan = .error (f, n) ∧ fault = of f := by
  rcases scan with ⟨f, m⟩ | m
  · simp [literal, eq_comm, and_comm]
  · simp [literal]

theorem closed_eq_error {f : Fault} {tail : Option Nat} :
    closed kind f tail = .error (fault, n) ↔ tail = none ∧ fault = f ∧ n = 0 := by
  cases tail with
  | none => simp [closed, eq_comm]
  | some m => simp [closed]

/-- An exclamation mark is the only delimiter that is neither white space nor a lexeme by itself. -/
theorem isDelimiter_cases (h : isDelimiter c = true) :
    Text.isWhiteSpace c = true ∨ c ∈ '\'' :: '.' :: punctuation ∨
      (Quoted.closing? c).isSome = true ∨ (∃ op ∈ Operator.symbols, op.symbol.toList = [c]) ∨
      c = '!' := by
  have hall : ['.', '\'', '"', '\x60', '[', '|', '-', '<', '>', '=', '!', '*', '/', '%', '&', '+',
      '~'].all (fun d => ('\'' :: '.' :: punctuation).contains d || (Quoted.closing? d).isSome ||
        Operator.symbols.any (·.symbol.toList == [d]) || d == '!') = true := by
    decide
  rw [isDelimiter, Bool.or_eq_true, Bool.or_eq_true, List.contains_iff_mem,
    List.contains_iff_mem] at h
  rcases h with (hspace | hmark) | hother
  · exact .inl hspace
  · exact .inr (.inl (List.mem_cons_of_mem _ (List.mem_cons_of_mem _ hmark)))
  · have hc := List.all_eq_true.1 hall c hother
    simp only [Bool.or_eq_true, List.contains_iff_mem, List.any_eq_true, beq_iff_eq,
      or_assoc] at hc
    exact .inr hc

theorem operatorOrWord_eq_error (hspace : Text.isWhiteSpace c = false)
    (hmark : c ∉ '\'' :: '.' :: punctuation) (hclosing : Quoted.closing? c = none)
    (h : operatorOrWord c rest = .error (fault, n)) :
    c = '!' ∧ rest.head? ≠ some '=' ∧ fault = .unexpectedCharacter '!' ∧ n = 0 := by
  unfold operatorOrWord at h
  split at h
  · cases h
  next hmatch =>
  have hno {op : Operator} (hop : op ∈ Operator.symbols) (tail : List Char) :
      c :: rest ≠ op.symbol.toList ++ tail := by
    intro hrest
    have hleads : op.symbol.toList <+: c :: rest := hrest ▸ List.prefix_append _ tail
    exact List.find?_eq_none.1 hmatch op hop (List.isPrefixOf_iff_prefix.2 hleads)
  split at h
  · cases h
  unfold word at h
  split at h
  · next hdelimiter =>
    cases h
    rcases isDelimiter_cases hdelimiter with hspace' | hmark' | hclosing' | ⟨op, hop, hsymbol⟩ | rfl
    · exact absurd hspace' (Bool.eq_false_iff.1 hspace)
    · exact absurd hmark' hmark
    · rw [hclosing] at hclosing'
      cases hclosing'
    · exact absurd (by rw [hsymbol, List.singleton_append]) (hno hop rest)
    · refine ⟨rfl, fun hhead => ?_, rfl, rfl⟩
      obtain ⟨tail, rfl⟩ := List.head?_eq_some_iff.1 hhead
      obtain ⟨op, hop, hsymbol⟩ : ∃ op ∈ Operator.symbols, op.symbol.toList = ['!', '='] := by
        decide
      exact hno hop tail (by rw [hsymbol]; rfl)
  · cases h

/-- What is wrong with the lexeme at the front of a text, and how far behind its first character. -/
inductive Faulty (c : Char) (rest : List Char) : Fault → Nat → Prop
  | character (hc : c = '!') (hnext : rest.head? ≠ some '=') :
    Faulty c rest (.unexpectedCharacter '!') 0
  | comment {tail : List Char} (hc : c = '/') (hrest : rest = '*' :: tail)
    (h : blockTail tail = none) : Faulty c rest .unterminatedComment 0
  | identifier {close : Char} (hc : Quoted.closing? c = some close)
    (h : Quoted.identifierTail close rest = none) : Faulty c rest .unterminatedIdentifier 0
  | string (hc : c = '\'') (h : Quoted.stringTail rest = none) :
    Faulty c rest .unterminatedString 0
  | blob {f : BlobFault} {n : Nat} (hc : c = 'x' ∨ c = 'X') (hquote : rest.head? = some '\'')
    (h : Blob.scan (c :: rest) = .error (f, n)) : Faulty c rest (.blob f) n
  | number {f : NumberFault} {n : Nat} (hstart : StartsNumber c rest)
    (h : Number.scan (c :: rest) = .error (f, n)) : Faulty c rest (.number f) n

theorem faulty_of_tokenAt (hspace : Text.isWhiteSpace c = false)
    (h : tokenAt c rest = .error (fault, n)) : Faulty c rest fault n := by
  have hbegins := begins_tokenAt c rest
  generalize tokenAt c rest = o at h hbegins
  cases hbegins with
  | mark => cases h
  | number hstart =>
    obtain ⟨f, hscan, rfl⟩ := literal_eq_error.1 h
    exact .number hstart hscan
  | string hc =>
    obtain ⟨htail, rfl, rfl⟩ := closed_eq_error.1 h
    exact .string hc htail
  | blob hc hquote =>
    obtain ⟨f, hscan, rfl⟩ := literal_eq_error.1 h
    exact .blob hc hquote hscan
  | identifier hc =>
    obtain ⟨htail, rfl, rfl⟩ := closed_eq_error.1 h
    exact .identifier hc htail
  | word hmark hclosing =>
    obtain ⟨hc, hnext, rfl, rfl⟩ := operatorOrWord_eq_error hspace hmark hclosing h
    exact .character hc hnext

theorem faulty_of_read (h : read c rest = .error (fault, n)) : Faulty c rest fault n := by
  unfold read at h
  split at h
  · cases h
  next hspace =>
  split at h
  · cases h
  · split at h
    · cases h
    · next hblock =>
      cases h
      exact .comment rfl rfl hblock
  · exact faulty_of_tokenAt (Bool.not_eq_true _ ▸ hspace) h

end SqliteSchema.Lexeme
