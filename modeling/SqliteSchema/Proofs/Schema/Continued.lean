import SqliteSchema.Proofs.Lexeme.LineBreak
import SqliteSchema.Proofs.Schema.Points
import SqliteSchema.Proofs.Schema.Stored

/-!
A schema text that goes on from a registry. A finished statement leaves nothing behind except its
table, unless it holds a bind parameter; so a text read with the registry of another text means what
it means on the lines behind that text.
-/
namespace SqliteSchema

open SqliteSchema.Parser

namespace Definition

variable {before source after : List Char} {r r' : Registry} {s s' t : ParseState}
  {more us : List Token}

/-- A statement has the same text if the whole schema stands inside another one. -/
theorem slice_inside {create create' semicolon semicolon' : Token}
    (hcreate : Token.Moved .start (.after .start before) create create')
    (hsemicolon : Token.Moved .start (.after .start before) semicolon semicolon')
    (hstop : semicolon.stop ≤ source.length) :
    slice (before ++ (source ++ after)) create' semicolon' = slice source create semicolon := by
  have hplace {t t' : Token} (h : Token.Moved .start (.after .start before) t t') :
      t'.position.absolute = before.length + t.position.absolute := by
    have habsolute := h.absolute
    rw [Position.absolute_after_start] at habsolute
    have hzero : Position.start.absolute = 0 := rfl
    omega
  have hlength : semicolon'.length = semicolon.length :=
    (hsemicolon.same.congr (f := Token.length) fun _ => rfl).symm
  have hstop' : semicolon'.stop = before.length + semicolon.stop := by
    rw [Token.stop, Token.stop, hplace hsemicolon, hlength, Nat.add_assoc]
  rw [slice, slice, hstop', hplace hcreate, Nat.add_sub_add_left, ← List.drop_drop, List.drop_left,
    List.take_drop, List.take_drop]
  by_cases hle : create.position.absolute ≤ semicolon.stop
  · rw [Nat.add_sub_cancel' hle, List.take_append_of_le_length hstop]
  · rw [Nat.sub_eq_zero_of_le (Nat.le_of_not_le hle), Nat.add_zero, List.drop_take_self,
      List.drop_take_self]

theorem schema_of_error {token : Token} {rest : List Token} {e : ParseError}
    (hs : s.rest = token :: rest) (ht : token.is ";" = false)
    (hc : createTable source r s = .error e t) : schema source r s = .error e t := by
  rw [schema, loop, bind_apply, look_isEmpty_apply hs]
  dsimp only
  rw [if_neg (by decide), bind_apply, eat_apply_not hs ht]
  dsimp only
  rw [if_neg (by decide), bind_apply, hc]

/-- What a schema does in another text, given what it does in its own one. In front of `more` it
gets as far as it got; an error is the same where nothing else follows. -/
inductive Continued (source' : List Char) (more : List Token) :
    EStateM.Result ParseError ParseState Registry →
    EStateM.Result ParseError ParseState Registry → Prop
  | ok {r : Registry} {t t' : ParseState} {result : EStateM.Result ParseError ParseState Registry}
    (hresult : result = schema source' r t') (hrest : t'.rest = more)
    (hparameters : t'.parameters = t.parameters) (hnotes : t'.notes = t.notes) :
    Continued source' more (.ok r t) result
  | error {e : ParseError} {t : ParseState} {result : EStateM.Result ParseError ParseState Registry}
    (h : more = [] → ∃ e' t', result = .error e' t' ∧ e.Same e') :
    Continued source' more (.error e t) result

/-- A schema is read in the same way wherever it stands. -/
theorem schema_continued (hinside : ∀ t ∈ s.rest, t.stop ≤ source.length)
    (hmoved : List.Forall₂ (Token.Moved .start (.after .start before)) s.rest us)
    (hs' : s'.rest = us ++ more) (hparameters : s'.parameters = s.parameters)
    (hnotes : s'.notes = s.notes) :
    Continued (before ++ (source ++ after)) more (schema source r s)
      (schema (before ++ (source ++ after)) r s') := by
  induction hn : s.rest.length using Nat.strongRecOn generalizing r s s' us with
  | ind n ih =>
  cases hrest : s.rest with
  | nil =>
    rw [hrest] at hmoved
    cases hmoved
    rw [schema_nil hrest]
    exact .ok rfl hs' hparameters hnotes
  | cons token rest =>
  have hfirst := hmoved
  rw [hrest] at hfirst
  obtain ⟨token', us', htoken, hmore, rfl⟩ := List.forall₂_cons_left_iff.1 hfirst
  have hword : token'.is ";" = token.is ";" :=
    (htoken.same.congr (f := (·.is ";")) fun _ => rfl).symm
  by_cases ht : token.is ";" = true
  · rw [schema_semicolon hrest ht, schema_semicolon hs' (hword.trans ht)]
    refine ih rest.length ?_ (fun t ht => hinside t ?_) hmore rfl hparameters hnotes rfl
    · rw [← hn, hrest]
      exact Nat.lt_succ_self _
    · rw [hrest]
      exact List.mem_cons_of_mem _ ht
  rw [Bool.not_eq_true] at ht
  cases hcreate : createTable source r s with
  | error e t =>
    rw [schema_of_error hrest ht hcreate]
    refine .error fun hnil => ?_
    have hahead : Ahead .text [] [] (s.rest ++ []) (token' :: us' ++ []) :=
      ahead_append (hmoved.imp fun _ _ h => Comparison.like_text_iff.2 h.same)
    rw [hnil] at hs'
    rw [List.append_nil, ← hs'] at hahead
    have halike : Alike .text [] [] s s' :=
      ⟨hahead, hparameters.symm, Comparison.sameWarnings_text_iff.2 hnotes.symm⟩
    have hmatch := (mirrors_createTable source (before ++ (source ++ after)) (.refl r)).mirror
      [] [] s s' .nil halike
    rw [hcreate] at hmatch
    obtain ⟨e', t', hcreate', hsame⟩ := (hmatch rfl).of_error_text
    exact ⟨e', t', schema_of_error hs' (hword.trans ht) hcreate', hsame⟩
  | ok table t =>
    obtain ⟨create, mid, semicolon, definition, u, hkeyword, his, hall, hdefinition, hu, ht₁,
      htable⟩ := createTable_eq_ok hcreate
    obtain ⟨rfl, hmid⟩ := List.cons.inj (hrest.symm.trans hall)
    rw [hmid] at hmore
    obtain ⟨mid', back, rfl, hsame, hback⟩ := List.exists_append_of_forall₂ hmore
    obtain ⟨semicolon', left, hsemicolon, hleft, rfl⟩ := List.forall₂_cons_left_iff.1 hback
    have hstop : semicolon.stop ≤ source.length := hinside semicolon (by simp [hall])
    have hall' : s'.rest = token' :: (mid' ++ semicolon' :: (left ++ more)) := by simpa using hs'
    obtain ⟨t', hcreate', hrest', hparameters', hnotes'⟩ :=
      createTable_of_same (before ++ (source ++ after)) hkeyword htoken.same
        (hsame.imp fun _ _ h => h.same) hsemicolon.same his hdefinition hu hall' hparameters hnotes
    rw [slice_inside htoken hsemicolon hstop, ← htable] at hcreate'
    have hlength := length_lt_of_createTable hcreate
    rw [schema_of_createTable hrest ht hcreate hlength,
      schema_of_createTable hs' (hword.trans ht) hcreate' (length_lt_of_createTable hcreate')]
    refine ih t.rest.length (hn ▸ hlength) (fun x hx => hinside x ?_) hleft hrest' ?_ ?_ rfl
    · rw [hall]
      simp [hx]
    · rw [hparameters', ht₁]
    · rw [hnotes', ht₁]
      rfl

/-- The last token of a schema is a semicolon. -/
theorem getLast?_of_schema (h : schema source r s = .ok r' t) :
    ∀ token ∈ s.rest.getLast?, token.value = ";" := by
  have hlast (front : List Token) {rest : List Token} {semicolon : Token}
      (his : semicolon.is ";" = true)
      (hrest : ∀ token ∈ rest.getLast?, token.value = ";") :
      ∀ token ∈ (front ++ semicolon :: rest).getLast?, token.value = ";" := by
    intro token ht
    rw [List.getLast?_append, List.getLast?_cons, Option.some_or] at ht
    obtain rfl := Option.some.inj ht
    cases hnext : rest.getLast? with
    | none => exact Token.value_of_is his
    | some last => exact hrest last hnext
  induction hn : s.rest.length using Nat.strongRecOn generalizing r s with
  | ind n ih =>
  cases hrest : s.rest with
  | nil => nofun
  | cons token rest =>
  by_cases ht : token.is ";" = true
  · rw [schema_semicolon hrest ht] at h
    refine hlast [] ht (ih rest.length ?_ h rfl)
    rw [← hn, hrest]
    exact Nat.lt_succ_self _
  · rw [Bool.not_eq_true] at ht
    obtain ⟨table, u, hcreate⟩ := exists_createTable hrest ht h
    obtain ⟨create, mid, semicolon, -, -, -, his, hall, -⟩ := createTable_eq_ok hcreate
    have hlength := length_lt_of_createTable hcreate
    rw [schema_of_createTable hrest ht hcreate hlength] at h
    rw [← hrest, hall, ← List.cons_append]
    exact hlast (create :: mid) his (ih u.rest.length (hn ▸ hlength) h rfl)

/-- A schema behind other text, from a state that holds nothing but warnings. -/
theorem schema_behind {ts : List Token} (hinside : ∀ t ∈ ts, t.stop ≤ source.length)
    (hmoved : List.Forall₂ (Token.Moved .start (.after .start before)) ts s.rest)
    (hparameters : s.parameters = {}) :
    (∃ r' t t', schema source r { rest := ts } = .ok r' t ∧
      schema (before ++ source) r s = .ok r' t' ∧ t'.notes = s.notes ++ t.notes) ∨
    ∃ e t e' t', schema source r { rest := ts } = .error e t ∧
      schema (before ++ source) r s = .error e' t' ∧ e.Same e' := by
  have hcontinued : Continued (before ++ (source ++ [])) []
      (schema source r { rest := ts, warnings := s.warnings })
      (schema (before ++ (source ++ [])) r s) :=
    schema_continued hinside hmoved (List.append_nil _).symm hparameters rfl
  rw [List.append_nil] at hcontinued
  generalize hresult : schema (before ++ source) r s = result at hcontinued ⊢
  cases points_schema source r { rest := ts } (List.Subset.refl _) with
  | ok read hsplit hrun hnoted hplain =>
    have hwarned := hrun s.warnings
    dsimp only at hwarned
    rw [hwarned] at hcontinued
    cases hcontinued with
    | ok hend hrest hparameters' hnotes =>
    rw [schema_nil hrest] at hend
    refine .inl ⟨_, _, _, hrun [], hend, ?_⟩
    rw [hnotes, ParseState.notes, List.map_append]
    rfl
  | error read left hsplit hrun hnoted he =>
    have hwarned := hrun s.warnings
    dsimp only at hwarned
    rw [hwarned] at hcontinued
    cases hcontinued with
    | error h =>
    obtain ⟨e', t', hend, hsame⟩ := h rfl
    exact .inr ⟨_, _, e', t', hrun [], hend, hsame⟩

end Definition

/-- The tokens of a text end where the text ends at the latest. -/
theorem Token.stop_le_of_tokenize {text : String} {ts : List Token}
    (h : Token.tokenize text = .ok ts) : ∀ t ∈ ts, t.stop ≤ text.toList.length := by
  have htiles : Tiles .start text.toList ts := tiles_of_stream h
  intro t ht
  exact ((htiles.partition [] rfl).1 t ht).1.inside

namespace Registry

variable {a b text : String} {r r' : Registry} {ws : List Warning}

theorem extend_of_tokenize {ts : List Token} (h : Token.tokenize text = .ok ts) :
    r.extend text = (Definition.schema text.toList r).run ts := by
  rw [extend, h]

/-- The results of a text on its own and behind a text with the warnings `ws`: the same registry
with the same notes, or errors that say the same. -/
inductive SameReading (ws : List Warning) :
    Except Failure (Registry × List Warning) → Except Failure (Registry × List Warning) → Prop
  | ok (r : Registry) {vs vs' : List Warning}
    (h : vs'.map (fun w => (w.code, w.message)) = (ws ++ vs).map fun w => (w.code, w.message)) :
    SameReading ws (.ok (r, vs)) (.ok (r, vs'))
  | error {f f' : Failure} (h : f.error.Same f'.error) : SameReading ws (.error f) (.error f')

/-- A text on the registry of another text says what it says on the lines behind that text. -/
theorem extend_lines (ha : ofText a = .ok (r, ws))
    (hnone : ∀ ts, Token.tokenize a = .ok ts → ∀ t ∈ ts, t.isParameter = false) :
    SameReading ws (r.extend b) (ofText (a ++ "\n" ++ b)) := by
  obtain ⟨ts, t, hts, hschema, rfl⟩ := extend_eq_ok ha
  have hlines : (a ++ "\n" ++ b).toList = a.toList ++ ['\n'] ++ b.toList := by simp
  obtain ⟨ts', hfirst, hstream⟩ :=
    Token.stream_break hts (Definition.getLast?_of_schema hschema) b.toList
  have htokens : Token.tokenize (a ++ "\n" ++ b) =
      (Token.stream (.after .start (a.toList ++ ['\n'])) b.toList).map (ts' ++ ·) := by
    rw [Token.tokenize, hlines, ← hstream]
    simp
  rcases Token.stream_moved .start (.after .start (a.toList ++ ['\n'])) b.toList with
    ⟨us, us', hus, hus', hsecond⟩ | ⟨e, e', he, he', hsame⟩
  · rw [hus'] at htokens
    -- the first text, up to the tokens of the second one
    have hcontinued : Definition.Continued ([] ++ (a.toList ++ '\n' :: b.toList)) us'
        (Definition.schema a.toList {} { rest := ts })
        (Definition.schema ([] ++ (a.toList ++ '\n' :: b.toList)) {} { rest := ts' ++ us' }) :=
      Definition.schema_continued (Token.stop_le_of_tokenize hts) hfirst rfl rfl rfl
    rw [hschema, List.nil_append, List.append_cons] at hcontinued
    generalize hresult : Definition.schema (a.toList ++ ['\n'] ++ b.toList) {}
      { rest := ts' ++ us' } = result at hcontinued
    cases hcontinued with
    | @ok _ _ t' _ hmore hrest hparameters hnotes =>
    subst hmore
    have hplain := (Definition.points_schema a.toList {}).parameters_eq (List.Subset.refl _)
      (hnone ts hts) hschema
    -- the second text
    rw [ofText, extend_of_tokenize htokens, extend_of_tokenize hus, hlines, Parser.run, Parser.run,
      hresult]
    have hbehind : List.Forall₂ (Token.Moved .start (.after .start (a.toList ++ ['\n']))) us
        t'.rest := hrest ▸ hsecond
    rcases Definition.schema_behind (Token.stop_le_of_tokenize hus) hbehind
      (hparameters.trans hplain) with
      ⟨r', u, u', hu, hu', hnotes'⟩ | ⟨e, u, e', u', hu, hu', hsame⟩
    · rw [hu, hu']
      refine .ok r' ?_
      rw [List.map_append]
      exact hnotes'.trans (congrArg (· ++ u.notes) hnotes)
    · rw [hu, hu']
      exact .error hsame
  · rw [he'] at htokens
    have hus : Token.tokenize b = .error e := he
    rw [ofText, extend, extend, htokens, hus]
    exact .error ⟨hsame.1, hsame.2⟩

/-- A comment and a warning at the end of the first text; the second text refers to its table, or to
one that there is not. -/
theorem extend_lines_comment :
    let a := "create table a(x TEXT COLLATE odd UNIQUE); ; -- end"
    let good := "/* b */ CREATE TABLE b(y REFERENCES a (x));"
    let bad := "CREATE TABLE b(y REFERENCES c);"
    ∃ r ws, (ofText a = .ok (r, ws) ∧
      ∀ ts, Token.tokenize a = .ok ts → ∀ t ∈ ts, t.isParameter = false) ∧
      ws.map (·.code) = [.unknownCollation] ∧
      SameReading ws (r.extend good) (ofText (a ++ "\n" ++ good)) ∧
      SameReading ws (r.extend bad) (ofText (a ++ "\n" ++ bad)) := by
  intro a good bad
  have htokens : (Token.tokenize a).map (·.all fun t => !t.isParameter) = .ok true := by
    decide +kernel
  have hnone : ∀ ts, Token.tokenize a = .ok ts → ∀ t ∈ ts, t.isParameter = false := by
    intro ts hts t ht
    rw [hts] at htokens
    simpa using List.all_eq_true.1 (Except.ok.inj htokens) t ht
  have hread : (ofText a).map (fun x => x.2.map (·.code)) = .ok [.unknownCollation] := by
    decide +kernel
  cases ha : ofText a with
  | error e =>
    rw [ha] at hread
    cases hread
  | ok x =>
    obtain ⟨r, ws⟩ := x
    rw [ha] at hread
    exact ⟨r, ws, ⟨rfl, hnone⟩, Except.ok.inj hread, extend_lines ha hnone, extend_lines ha hnone⟩

end Registry

end SqliteSchema
