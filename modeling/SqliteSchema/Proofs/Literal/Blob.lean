import SqliteSchema.Proofs.Lexeme.FirstCharacter
import SqliteSchema.Proofs.Literal.Extent

/-!
Where the scan of a blob stops. It succeeds where a blob ends, and it fails at the first character
with which no blob goes on.
-/
namespace SqliteSchema.Literal.Blob

open Number (Opens exists_between between_of_drop)

variable {x : Char} {cs digits front rest text : List Char} {start stop n : Nat} {f : BlobFault}

/-- An `x`, and an even number of hexadecimal digits between quotes. -/
inductive IsBlob : List Char → Prop
  | intro {x : Char} {digits : List Char} (hx : x = 'x' ∨ x = 'X')
    (hd : ∀ d ∈ digits, isHexDigit d = true) (heven : digits.length % 2 = 0) :
    IsBlob (x :: '\'' :: (digits ++ ['\'']))

/-! ### Blobs -/

theorem IsBlob.scan_append (h : IsBlob cs) (rest : List Char) :
    scan (cs ++ rest) = .ok cs.length := by
  obtain ⟨hx, hd, heven⟩ := h
  exact scan_eq_ok.2 ⟨_, _, rest, by simp, hx, hd, heven, by simp⟩

theorem exists_blob (h : scan cs = .ok n) :
    ∃ blob rest, cs = blob ++ rest ∧ IsBlob blob ∧ n = blob.length := by
  obtain ⟨x, digits, rest, rfl, hx, hd, heven, rfl⟩ := scan_eq_ok.1 h
  exact ⟨_, rest, by simp, .intro hx hd heven, by simp⟩

/-! ### Faults -/

/-- Digits go on to a blob, with one more of them where their number is odd. -/
theorem opens_digits (hx : x = 'x' ∨ x = 'X') (hd : ∀ d ∈ digits, isHexDigit d = true) :
    Opens IsBlob (x :: '\'' :: digits) := by
  rcases Nat.mod_two_eq_zero_or_one digits.length with heven | hodd
  · exact ⟨['\''], .intro hx hd heven⟩
  · refine ⟨['0', '\''], ?_⟩
    have hd' : ∀ d ∈ digits ++ ['0'], isHexDigit d = true := by
      intro d hmem
      rcases List.mem_append.1 hmem with hmem | hmem
      · exact hd d hmem
      · exact List.mem_singleton.1 hmem ▸ rfl
    have heven : (digits ++ ['0']).length % 2 = 0 := by
      rw [List.length_append, List.length_singleton]
      omega
    have hblob := IsBlob.intro hx hd' heven
    rwa [List.append_assoc] at hblob

/-- The digits of a blob end where its closing quote stands. -/
theorem IsBlob.eq_quote (h : IsBlob (x :: '\'' :: (digits ++ rest)))
    (hd : ∀ d ∈ digits, isHexDigit d = true) (hend : ∀ d ∈ rest.head?, isHexDigit d = false) :
    rest = ['\''] ∧ digits.length % 2 = 0 := by
  generalize hcs : digits ++ rest = cs at h
  obtain ⟨-, hds, heven⟩ := h
  have hquote : ∀ d ∈ ['\''].head?, isHexDigit d = false := by
    rintro d ⟨⟩
    decide
  have hlength := congrArg (leading isHexDigit) hcs
  rw [leading_append hd hend, leading_append hds hquote] at hlength
  obtain ⟨rfl, hrest⟩ := List.append_inj hcs hlength
  exact ⟨hrest, heven⟩

/-- A text of which `front` goes on to a blob, but not with the character behind it. -/
inductive Broken (front : List Char) : List Char → Prop
  | intro {rest : List Char} (hopens : Opens IsBlob front)
    (hstops : ∀ d ∈ rest.head?, ∀ back, ¬ IsBlob (front ++ d :: back)) :
    Broken front (front ++ rest)

/-- Behind the opening quote. -/
theorem broken_digits (hx : x = 'x' ∨ x = 'X') (h : Blob.digits cs = .error (f, n)) :
    ∃ front, n = front.length ∧ Broken front (x :: '\'' :: cs) := by
  obtain ⟨digits, rest, rfl, hd, hend⟩ := exists_leading isHexDigit cs
  have hstop (hrest : ∀ tail, rest = '\'' :: tail → digits.length % 2 ≠ 0) :
      Broken (x :: '\'' :: digits) (x :: '\'' :: (digits ++ rest)) := by
    refine .intro (opens_digits hx hd) fun d hrest' back hblob => ?_
    obtain ⟨hquote, heven⟩ := hblob.eq_quote hd fun e he => hend e (hrest'.trans he)
    obtain ⟨rfl, -⟩ := List.cons.inj hquote
    obtain ⟨tail, rfl⟩ := List.head?_eq_some_iff.1 hrest'
    exact hrest tail rfl heven
  simp only [Blob.digits, leading_append hd hend, List.drop_left] at h
  have hlength : 2 + digits.length = (x :: '\'' :: digits).length := Nat.add_comm _ _
  split at h
  · split at h
    · cases h
    · next hodd =>
      cases h
      exact ⟨_, hlength, hstop fun _ _ => hodd⟩
  · next hne =>
    cases h
    exact ⟨_, hlength, hstop fun tail heq => absurd (List.cons.inj heq).1 hne⟩
  · cases h
    exact ⟨_, hlength, hstop (by simp)⟩

theorem broken_scan (h : scan cs = .error (f, n)) : ∃ front, n = front.length ∧ Broken front cs := by
  have hopens : Opens IsBlob [] := ⟨_, .intro (.inl rfl) (List.forall_mem_nil _) rfl⟩
  unfold scan at h
  split at h
  · cases h
    exact ⟨[], rfl, .intro hopens (by simp)⟩
  · next x rest =>
    split at h
    · next hx =>
      split at h
      · exact broken_digits hx h
      · next hne =>
        cases h
        refine ⟨[x], rfl, .intro ⟨_, .intro hx (List.forall_mem_nil _) rfl⟩ ?_⟩
        rintro d hd back hblob
        obtain ⟨tail, rfl⟩ := List.head?_eq_some_iff.1 hd
        cases hblob
        exact hne tail rfl
    · next hx =>
      cases h
      refine ⟨[], rfl, .intro hopens ?_⟩
      rintro d ⟨⟩ back ⟨hx'⟩
      exact hx hx'

/-! ### Where a scan stops -/

/-- A blob stands here. -/
structure BlobAt (text : List Char) (start stop : Nat) : Prop where
  le : start ≤ stop
  inside : stop ≤ text.length
  blob : IsBlob (between text start stop)

theorem BlobAt.scan_eq_ok (h : BlobAt text start stop) :
    ∃ n, stop = start + n ∧ scan (text.drop start) = .ok n := by
  obtain ⟨hstop, hdrop⟩ := exists_between h.le h.inside
  refine ⟨_, hstop, ?_⟩
  rw [hdrop]
  exact h.blob.scan_append _

theorem Broken.isGreatest (h : Broken front cs) :
    IsGreatest {n | n ≤ cs.length ∧ Opens IsBlob (cs.take n)} front.length := by
  obtain ⟨hopens, hstops⟩ := h
  refine ⟨⟨by simp, by rwa [List.take_left]⟩, ?_⟩
  rintro n ⟨hn, more, hmore⟩
  by_contra hlonger
  -- A longer piece holds the character that no blob goes on with.
  obtain ⟨k, rfl⟩ := Nat.exists_eq_add_of_lt (Nat.lt_of_not_le hlonger)
  rename_i rest
  cases rest with
  | nil =>
    rw [List.append_nil] at hn
    omega
  | cons d rest =>
    refine hstops d rfl (rest.take k ++ more) ?_
    rwa [Nat.add_assoc, List.take_length_add_append, List.take_succ_cons, List.append_assoc] at hmore

theorem IsBlob.exists_token (h : IsBlob cs) :
    ∃ t, Token.tokenize (String.ofList cs) = .ok [t] ∧ t.kind = .blob ∧ t.value.toList = cs ∧
      t.stop = cs.length := by
  have hscan := h.scan_append []
  rw [List.append_nil] at hscan
  obtain @⟨x, digits, hx, -, -⟩ := h
  have hread : Lexeme.read x ('\'' :: (digits ++ ['\''])) =
      .ok (.token .blob ('\'' :: (digits ++ ['\''])).length) := by
    have htoken : Lexeme.read x ('\'' :: (digits ++ ['\''])) =
        Lexeme.tokenAt x ('\'' :: (digits ++ ['\''])) := by
      rcases hx with rfl | rfl
      · exact Piece.read_eq_tokenAt rfl (by decide) (by decide) _
      · exact Piece.read_eq_tokenAt rfl (by decide) (by decide) _
    rw [htoken, Lexeme.tokenAt_x hx, if_pos List.head?_cons, hscan]
    rfl
  refine ⟨_, Lexeme.tokenize_token hread, rfl, String.toList_ofList, ?_⟩
  rw [Token.stop, Token.length, String.length_ofList]
  exact Nat.zero_add _

/-- A blob is scanned up to its closing quote. If none stands at a place, the scan fails behind the
longest piece of text that goes on to a blob. A blob that stands alone is one token. -/
theorem blob_extent (text : List Char) (start : Nat) :
    (∀ stop, BlobAt text start stop ↔
      ∃ n, stop = start + n ∧ scan (text.drop start) = .ok n) ∧
    ((¬ ∃ stop, BlobAt text start stop) →
      ∃ f n, scan (text.drop start) = .error (f, n) ∧
        (Fault.blob f).code = .invalidBlobLiteral ∧
        IsGreatest {n | n ≤ (text.drop start).length ∧ Opens IsBlob ((text.drop start).take n)} n) ∧
    (IsBlob text → ∃ t, Token.tokenize (String.ofList text) = .ok [t] ∧ t.kind = .blob ∧
      t.value.toList = text ∧ t.stop = text.length) := by
  have hiff (stop : Nat) : BlobAt text start stop ↔
      ∃ n, stop = start + n ∧ scan (text.drop start) = .ok n := by
    refine ⟨BlobAt.scan_eq_ok, ?_⟩
    rintro ⟨n, rfl, hscan⟩
    obtain ⟨blob, rest, hdrop, hblob, rfl⟩ := exists_blob hscan
    have hne : text.drop start ≠ [] := by
      rintro hnil
      rw [hnil] at hscan
      cases hscan
    obtain ⟨hinside, hbetween, -⟩ := between_of_drop hne hdrop
    exact ⟨Nat.le_add_right _ _, hinside, by rwa [hbetween]⟩
  refine ⟨hiff, fun hnone => ?_, IsBlob.exists_token⟩
  cases hscan : scan (text.drop start) with
  | ok n => exact absurd ⟨start + n, (hiff _).2 ⟨n, rfl, hscan⟩⟩ hnone
  | error fault =>
    obtain ⟨f, n⟩ := fault
    obtain ⟨front, rfl, hbroken⟩ := broken_scan hscan
    exact ⟨f, front.length, rfl, rfl, hbroken.isGreatest⟩

/-- Three digits, a blob behind them, and a place behind the end of the text. -/
theorem blob_extent_odd :
    let text := "x'0aF'X'00'".toList
    scan (text.drop 0) = .error (.oddDigits, 5) ∧
      IsGreatest {n | n ≤ (text.drop 0).length ∧ Opens IsBlob ((text.drop 0).take n)} 5 ∧
      BlobAt text 6 11 ∧ scan (text.drop 20) = .error (.empty, 0) ∧
      IsGreatest {n | n ≤ (text.drop 20).length ∧ Opens IsBlob ((text.drop 20).take n)} 0 := by
  intro text
  have hodd : scan (text.drop 0) = .error (.oddDigits, 5) := by decide +kernel
  have hempty : scan (text.drop 20) = .error (.empty, 0) := by decide +kernel
  have hfails {start m : Nat} {f : BlobFault} (h : scan (text.drop start) = .error (f, m)) :
      IsGreatest {n | n ≤ (text.drop start).length ∧ Opens IsBlob ((text.drop start).take n)} m := by
    obtain ⟨hiff, hfails, -⟩ := blob_extent text start
    have hnone : ¬ ∃ stop, BlobAt text start stop := by
      rintro ⟨stop, hstop⟩
      obtain ⟨n, -, hn⟩ := (hiff stop).1 hstop
      rw [h] at hn
      cases hn
    obtain ⟨f, n, hn, -, hgreatest⟩ := hfails hnone
    rw [h] at hn
    cases hn
    exact hgreatest
  obtain ⟨hends, -, -⟩ := blob_extent text 6
  exact ⟨hodd, hfails hodd, (hends 11).2 ⟨5, rfl, by decide +kernel⟩, hempty, hfails hempty⟩

end SqliteSchema.Literal.Blob
