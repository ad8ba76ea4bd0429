import Mathlib.Logic.ExistsUnique
import SqliteSchema.Proofs.Lexeme.Malformed
import SqliteSchema.Proofs.Query.Points
import SqliteSchema.Proofs.Schema.Points

/-!
Diagnostics have a place in the text. An error is about a character that belongs to no token, about
a token, or about the end of the tokens; warnings are about tokens and stand in the order of the
text.
-/
namespace SqliteSchema

/-! ### Texts that cannot be cut -/

/-- No lexeme is malformed because tokens ended. -/
theorem Lexeme.Faulty.code {c : Char} {rest : List Char} {fault : Fault} {n : Nat}
    (h : Faulty c rest fault n) : fault.code ≠ .unexpectedEndOfInput := by
  cases h <;> nofun

/-- A text that cannot be cut is at fault behind some part of it. -/
theorem Token.stream_eq_error {p : Position} {cs : List Char} {e : ParseError}
    (h : stream p cs = .error e) :
    ∃ us vs fault, cs = us ++ vs ∧ fault.code ≠ .unexpectedEndOfInput ∧
      e = .atPosition fault (p.after us) := by
  obtain ⟨us, c, rest, fault, n, rfl, hread, rfl, -⟩ := faultAt_of_stream h
  refine ⟨us ++ (c :: rest).take n, (c :: rest).drop n, fault, ?_,
    (Lexeme.faulty_of_read hread).code, rfl⟩
  rw [List.append_assoc, List.take_append_drop]

/-! ### Errors -/

/-- What an error is about. -/
inductive Subject
  | character | token | ending
  deriving DecidableEq, Repr

/-- A malformed lexeme is named by a place in the text, an unwelcome token by itself and its place;
where the tokens ended there is no place. -/
def ParseError.IsAbout (text : String) (e : ParseError) : Subject → Prop
  | .character => Token.tokenize text = .error e ∧ e.code ≠ .unexpectedEndOfInput ∧
      e.token = none ∧
      ∃ p, e.position = some p ∧ p.absolute ≤ text.length ∧ p.IsAt text.toList
  | .token => ∃ ts t, Token.tokenize text = .ok ts ∧ e.code ≠ .unexpectedEndOfInput ∧ t ∈ ts ∧
      e.token = some t ∧ e.position = some t.position
  | .ending => (∃ ts, Token.tokenize text = .ok ts) ∧ e.code = .unexpectedEndOfInput ∧
      e.token = none ∧ e.position = none

/-- An error is about one thing at most. -/
theorem ParseError.IsAbout.unique {text : String} {e : ParseError} {a b : Subject}
    (ha : e.IsAbout text a) (hb : e.IsAbout text b) : a = b := by
  have hcode {c : Subject} (hc : e.IsAbout text c) :
      c = .ending ↔ e.code = .unexpectedEndOfInput := by
    cases c with
    | character => simpa using hc.2.1
    | token =>
      obtain ⟨ts, t, -, hcode, -⟩ := hc
      simpa using hcode
    | ending => simpa using hc.2.1
  have htoken {c : Subject} (hc : e.IsAbout text c) : c = .token ↔ e.token.isSome = true := by
    cases c with
    | character => simp [hc.2.2.1]
    | token =>
      obtain ⟨ts, t, -, -, -, ht, -⟩ := hc
      simp [ht]
    | ending => simp [hc.2.2.1]
  have hending := (hcode ha).trans (hcode hb).symm
  have hat := (htoken ha).trans (htoken hb).symm
  cases a <;> cases b <;> simp at hending hat ⊢

theorem isAbout_of_tokenize {text : String} {e : ParseError} (h : Token.tokenize text = .error e) :
    e.IsAbout text .character := by
  obtain ⟨us, vs, fault, htext, hcode, rfl⟩ := Token.stream_eq_error h
  refine ⟨h, hcode, rfl, _, rfl, ?_, ?_⟩
  · rw [Position.absolute_after_start, ← String.length_toList, htext, List.length_append]
    exact Nat.le_add_right _ _
  · rw [htext]
    exact Position.isAt_after us vs

theorem ParseError.PointsInto.isAbout {text : String} {e : ParseError} {ts : List Token}
    (he : e.PointsInto ts) (h : Token.tokenize text = .ok ts) : ∃ a, e.IsAbout text a := by
  cases he with
  | token fault ht hf => exact ⟨.token, ts, _, h, hf, ht, rfl, rfl⟩
  | ending expected => exact ⟨.ending, ⟨ts, h⟩, rfl, rfl, rfl⟩

/-! ### Warnings -/

namespace Parser

variable {ts : List Token} {ws : List Warning}

theorem Noted.exists_token (h : Noted ts ws) :
    ∀ w ∈ ws, ∃ t ∈ ts, w.position = some t.position := by
  induction h with
  | nil => nofun
  | skip _ ih =>
    intro w hw
    obtain ⟨t, ht, hposition⟩ := ih w hw
    exact ⟨t, List.mem_cons_of_mem _ ht, hposition⟩
  | note code message _ ih =>
    intro w hw
    rcases List.mem_cons.1 hw with rfl | hw
    · exact ⟨_, List.mem_cons_self, rfl⟩
    · exact ih w hw

/-- Warnings at tokens that stand in order stand in order. -/
theorem Noted.pairwise (h : Noted ts ws)
    (hts : ts.Pairwise fun t u => t.position.absolute ≤ u.position.absolute) :
    ws.Pairwise fun w v => ∀ p ∈ w.position, ∀ q ∈ v.position, p.absolute ≤ q.absolute := by
  induction h with
  | nil => exact .nil
  | skip _ ih => exact ih (List.pairwise_cons.1 hts).2
  | @note t ts ws code message h ih =>
    refine List.pairwise_cons.2 ⟨fun v hv => ?_, ih hts⟩
    obtain ⟨u, hu, hposition⟩ := h.exists_token v hv
    rintro _ ⟨⟩ q hq
    rw [hposition] at hq
    cases hq
    rcases List.mem_cons.1 hu with rfl | hu
    · exact Nat.le_refl _
    · exact (List.pairwise_cons.1 hts).1 u hu

end Parser

/-- The warnings are at tokens of the text, in its order. -/
structure ReportedIn (text : String) (ws : List Warning) : Prop where
  atToken : ∀ w ∈ ws, ∃ ts t, Token.tokenize text = .ok ts ∧ t ∈ ts ∧ w.position = some t.position
  ordered : ws.Pairwise fun w v => ∀ p ∈ w.position, ∀ q ∈ v.position, p.absolute ≤ q.absolute

theorem reportedIn_nil (text : String) : ReportedIn text [] := ⟨nofun, .nil⟩

theorem Parser.Noted.reportedIn {text : String} {ts : List Token} {ws : List Warning}
    (h : Parser.Noted ts ws) (htext : Token.tokenize text = .ok ts) : ReportedIn text ws := by
  constructor
  · intro w hw
    obtain ⟨t, ht, hposition⟩ := h.exists_token w hw
    exact ⟨ts, t, htext, ht, hposition⟩
  · have htiles : Token.Tiles .start text.toList ts := Token.tiles_of_stream htext
    obtain ⟨hstands, hpairwise, -⟩ := htiles.partition [] rfl
    refine h.pairwise (hpairwise.imp_of_mem fun {t u} ht _ htu => ?_)
    have hlt := (hstands t ht).1.nonempty
    omega

/-! ### Results -/

/-- The result of a text all of whose diagnostics have their place in it. An error is about exactly
one thing. -/
def Located {α : Type} (text : String) : Except Failure (α × List Warning) → Prop
  | .ok (_, ws) => ReportedIn text ws
  | .error f => (∃! a, f.error.IsAbout text a) ∧ ReportedIn text f.warnings

theorem located_of_tokenize {α : Type} {text : String} {e : ParseError}
    (h : Token.tokenize text = .error e) :
    Located text (.error ⟨e, []⟩ : Except Failure (α × List Warning)) :=
  ⟨⟨_, isAbout_of_tokenize h, fun _ ha => ha.unique (isAbout_of_tokenize h)⟩, reportedIn_nil text⟩

theorem located_run {α : Type} {text : String} {ts : List Token} {p : Parser α}
    (hp : Parser.PointsInto ts p) (h : Token.tokenize text = .ok ts) : Located text (p.run ts) := by
  have hnoted {read left : List Token} {ws : List Warning} (hts : ts = read ++ left)
      (hws : Parser.Noted ([] ++ read) ws) : ReportedIn text ws := by
    have hall := hws.append (Parser.noted_nil left)
    rw [List.append_nil, List.nil_append, ← hts] at hall
    exact hall.reportedIn h
  rw [Parser.run]
  cases hp { rest := ts } fun _ ht => ht with
  | ok read hsplit hrun hws hparameters _ =>
    rw [hrun []]
    exact hnoted hsplit hws
  | error read left hsplit hrun hws he =>
    rw [hrun []]
    obtain ⟨a, ha⟩ := he.isAbout h
    exact ⟨⟨a, ha, fun _ hb => hb.unique ha⟩, hnoted hsplit hws⟩

/-- Every diagnostic of a schema text and of a query text has its place in the text. -/
theorem located_diagnostics (registry : Registry) (text : String) :
    Located text (registry.extend text) ∧ Located text (Query.ofText registry text) := by
  unfold Registry.extend Query.ofText
  cases h : Token.tokenize text with
  | error e => exact ⟨located_of_tokenize h, located_of_tokenize h⟩
  | ok ts =>
    exact ⟨located_run (Definition.points_schema _ registry) h,
      located_run (Query.points_select registry) h⟩

end SqliteSchema
