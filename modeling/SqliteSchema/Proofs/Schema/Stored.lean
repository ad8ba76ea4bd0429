import SqliteSchema.Proofs.Lexeme.Partition
import SqliteSchema.Proofs.Lexeme.Seam
import SqliteSchema.Proofs.Schema.Mirror
import SqliteSchema.Proofs.Schema.ReadBack

/-!
The stored texts of a schema make up a text of the same schema. A stored text is its statement from
`CREATE` to the semicolon, and a statement is read in the same way wherever it stands; what else
stands in a schema text is skipped.
-/
namespace SqliteSchema

open SqliteSchema.Parser

namespace Definition

variable {source : List Char} {r r' : Registry} {table : Table} {s t u : ParseState}

/-! ### One statement -/

theorem statementKeyword_eq_ok {k : Keyword} {expected : String} {token : Token}
    (h : statementKeyword k expected s = .ok token t) :
    s.rest = token :: t.rest ∧ token.isKeyword k = true ∧ t = { s with rest := t.rest } := by
  obtain ⟨head, u, hcurrent, h⟩ := bind_eq_ok h
  unfold current at hcurrent
  split at hcurrent
  · cases hcurrent
  · next hs =>
    cases hcurrent
    split at h
    · next hk =>
      obtain ⟨hrest, -, ht⟩ := require_eq_ok h
      obtain ⟨rfl, -⟩ := List.cons.inj (hs.symm.trans hrest)
      exact ⟨hrest, hk, ht⟩
    · cases h

/-- What a statement reads: a first word, a definition and a semicolon. -/
theorem createTable_eq_ok (h : createTable source r s = .ok table t) :
    ∃ create mid semicolon definition u,
      create.isKeyword .CREATE = true ∧ semicolon.is ";" = true ∧
      s.rest = create :: (mid ++ semicolon :: t.rest) ∧
      tableDefinition r { s with rest := mid ++ semicolon :: t.rest } = .ok definition u ∧
      u.rest = semicolon :: t.rest ∧ t = { u with rest := t.rest } ∧
      table = { definition with createTableText := slice source create semicolon } := by
  rw [createTable_eq] at h
  obtain ⟨create, s₁, hcreate, h⟩ := bind_eq_ok h
  obtain ⟨definition, u, hdefinition, h⟩ := bind_eq_ok h
  obtain ⟨semicolon, s₂, hsemicolon, h⟩ := bind_eq_ok h
  cases h
  obtain ⟨hrest, hkeyword, hs₁⟩ := statementKeyword_eq_ok hcreate
  obtain ⟨hrest₂, his, ht⟩ := require_eq_ok hsemicolon
  obtain ⟨mid, hmid⟩ := (mirrors_tableDefinition (.refl r)).suffix s₁ definition u hdefinition
  rw [hrest₂] at hmid
  rw [← hmid] at hrest hs₁
  rw [hs₁] at hdefinition
  exact ⟨create, mid, semicolon, definition, u, hkeyword, his, hrest, hdefinition, hrest₂, ht, rfl⟩

theorem length_lt_of_createTable (h : createTable source r s = .ok table t) :
    t.rest.length < s.rest.length := by
  obtain ⟨create, mid, semicolon, -, -, -, -, hall, -⟩ := createTable_eq_ok h
  rw [hall, List.length_cons, List.length_append, List.length_cons]
  omega

/-- The text of a statement, whose semicolon belongs to it. -/
theorem slice_semicolon {before body after : List Char} {create : Token}
    (hcreate : create.position.absolute = before.length) :
    slice (before ++ (body ++ [';'] ++ after)) create
      ⟨";", .other, .after .start (before ++ body)⟩ = String.ofList (body ++ [';']) := by
  have hlength : ";".length = 1 := by decide
  have hstop : (⟨";", .other, .after .start (before ++ body)⟩ : Token).stop =
      before.length + (body ++ [';']).length := by
    rw [Token.stop, Token.length, hlength, Position.absolute_after_start]
    simp only [List.length_append, List.length_singleton]
    omega
  rw [slice, hstop, hcreate, Nat.add_sub_cancel_left, List.drop_left, List.take_left]

/-- A statement on the same tokens makes the same table if its text is the same. -/
theorem createTable_of_same {create create' semicolon semicolon' : Token}
    {mid mid' rest rest' : List Token} {definition : Table} (source' : List Char)
    {s' : ParseState} (hcreate : create.isKeyword .CREATE = true) (hsame : create.Same create')
    (hmid : List.Forall₂ Token.Same mid mid') (hsemicolon : semicolon.Same semicolon')
    (his : semicolon.is ";" = true)
    (h : tableDefinition r { s with rest := mid ++ semicolon :: rest } = .ok definition u)
    (hu : u.rest = semicolon :: rest) (hs : s'.rest = create' :: (mid' ++ semicolon' :: rest'))
    (hparameters : s'.parameters = s.parameters) (hnotes : s'.notes = s.notes) :
    ∃ t', createTable source' r s' =
        .ok { definition with createTableText := slice source' create' semicolon' } t' ∧
      t'.rest = rest' ∧ t'.parameters = u.parameters ∧ t'.notes = u.notes := by
  have hnear : Near .text (semicolon :: rest) (semicolon' :: rest') :=
    .semicolon (Comparison.like_text_iff.2 hsemicolon) (Token.value_of_is his)
  have halike : Alike .text (semicolon :: rest) (semicolon' :: rest')
      { s with rest := mid ++ semicolon :: rest }
      { s' with rest := mid' ++ semicolon' :: rest' } := by
    constructor
    · exact ahead_append (hmid.imp fun _ _ h => Comparison.like_text_iff.2 h)
    · exact hparameters.symm
    · exact Comparison.sameWarnings_text_iff.2 hnotes.symm
  have hmatch := (mirrors_tableDefinition (.refl r)).mirror _ _ _ _ hnear halike
  rw [h] at hmatch
  have hin : Within (semicolon :: rest) (.ok definition u) := hu ▸ List.suffix_refl _
  obtain ⟨definition', u', hdefinition, rfl, hu'⟩ := (hmatch hin).of_ok
  have hrest' : u'.rest = semicolon' :: rest' := hu'.ahead.eq_end hu
  have hcreate' : create'.isKeyword .CREATE = true := by
    rw [← hcreate]
    exact (hsame.congr (f := (·.isKeyword .CREATE)) fun _ => rfl).symm
  have his' : semicolon'.is ";" = true := by
    rw [← his]
    exact (hsemicolon.congr (f := (·.is ";")) fun _ => rfl).symm
  refine ⟨{ u' with rest := rest' }, ?_, rfl, hu'.parameters.symm,
    (Comparison.sameWarnings_text_iff.1 hu'.warnings).symm⟩
  rw [createTable_eq, bind_apply, statementKeyword_apply hs hcreate']
  dsimp only
  rw [bind_apply, hdefinition]
  dsimp only
  rw [bind_apply, expect_apply hrest' his']
  rfl

/-- A statement is read in the same way wherever it stands. -/
theorem createTable_again {before cs : List Char} (hsource : source = before ++ cs)
    (hs : Token.stream (.after .start before) cs = .ok s.rest)
    (h : createTable source r s = .ok table t) :
    ∃ front statement back, cs = front ++ (statement ++ back) ∧
      table.createTableText = String.ofList statement ∧
      Token.stream (.after .start (before ++ front ++ statement)) back = .ok t.rest ∧
      ∀ before' back' ts', Token.stream (.after .start (before' ++ statement)) back' = .ok ts' →
        ∃ ts, Token.stream (.after .start before') (statement ++ back') = .ok ts ∧
          ∀ s', s'.rest = ts → s'.parameters = s.parameters → s'.notes = s.notes →
            ∃ t', schema (before' ++ (statement ++ back')) r s' =
                schema (before' ++ (statement ++ back')) (r.add table) t' ∧
              t'.rest = ts' ∧ t'.parameters = t.parameters ∧ t'.notes = t.notes := by
  obtain ⟨create, mid, semicolon, definition, u, hcreate, his, hrest, hdefinition, hu, ht,
    htable⟩ := createTable_eq_ok h
  rw [hrest] at hs
  obtain ⟨front, body, back, hcs, hfirst, hlast, hback, hagain⟩ :=
    Token.exists_statement hs (Token.value_of_is his)
  subst hlast
  have htext : table.createTableText = String.ofList (body ++ [';']) := by
    have hsplit : source = before ++ front ++ (body ++ [';'] ++ back) := by
      rw [hsource, hcs]
      simp
    rw [htable, hsplit, ← Position.after_append, ← List.append_assoc before front body]
    apply slice_semicolon
    rw [hfirst, ← Position.after_append, Position.absolute_after_start]
  refine ⟨front, body ++ [';'], back, by rw [hcs]; simp, htext, ?_, ?_⟩
  · rw [← Position.after_append] at hback
    simpa using hback
  · intro before' back' ts' hback'
    rw [Position.after_append] at hback'
    obtain ⟨create', mid', habsolute, hsame, hmid, hstream⟩ := hagain _ back' ts' hback'
    refine ⟨_, by simpa using hstream, fun s' hs' hparameters hnotes => ?_⟩
    obtain ⟨t', hcreate', hrest', hparameters', hnotes'⟩ :=
      createTable_of_same (before' ++ (body ++ [';'] ++ back')) hcreate hsame hmid
        ⟨_, _, _, _⟩ his hdefinition hu hs' hparameters hnotes
    have htext' : slice (before' ++ (body ++ [';'] ++ back')) create'
          ⟨";", .other, (Position.start.after before').after body⟩ =
        String.ofList (body ++ [';']) := by
      rw [← Position.after_append]
      apply slice_semicolon
      rw [habsolute, Position.absolute_after_start]
    refine ⟨t', ?_, hrest', ?_, ?_⟩
    · have hdefinition' : { definition with createTableText := table.createTableText } = table := by
        rw [htable]
      rw [htext', ← htext, hdefinition'] at hcreate'
      have hword : create'.is ";" = false := by
        rw [← hsame.congr (f := (·.is ";")) fun _ => rfl]
        exact Token.is_semicolon_of_isKeyword hcreate
      exact schema_of_createTable hs' hword hcreate' (length_lt_of_createTable hcreate')
    · rw [ht]
      exact hparameters'
    · rw [ht]
      exact hnotes'

/-! ### A whole schema -/

/-- The stored texts of the tables, one on a line. -/
def storedText (tables : List Table) : List Char :=
  ['\n'].intercalate (tables.map (·.createTableText.toList))

theorem storedText_cons (table : Table) (tables : List Table) :
    ∃ gap, (gap = [] ∨ gap = ['\n']) ∧
      storedText (table :: tables) =
        table.createTableText.toList ++ (gap ++ storedText tables) := by
  cases tables with
  | nil => exact ⟨[], .inl rfl, by simp [storedText]⟩
  | cons next tables => exact ⟨['\n'], .inr rfl, by simp [storedText]⟩

theorem stream_between {gap : List Char} (hgap : gap = [] ∨ gap = ['\n']) (p : Position)
    (cs : List Char) : Token.stream p (gap ++ cs) = Token.stream (p.after gap) cs := by
  rcases hgap with rfl | rfl
  · rfl
  · exact Token.stream_gap (n := 0) rfl

theorem schema_nil (hs : s.rest = []) : schema source r s = .ok r s := by
  have hempty : look List.isEmpty s = .ok true s := by
    unfold look
    rw [hs]
    rfl
  rw [schema, loop, bind_apply, hempty]
  rfl

theorem look_isEmpty_apply {token : Token} {rest : List Token} (hs : s.rest = token :: rest) :
    look List.isEmpty s = .ok false s := by
  unfold look
  rw [hs]
  rfl

theorem schema_semicolon {token : Token} {rest : List Token} (hs : s.rest = token :: rest)
    (ht : token.is ";" = true) :
    schema source r s = schema source r { s with rest := rest } := by
  have heat : eat ";" s = .ok true { s with rest := rest } := by
    have haccept : accept (·.is ";") s = .ok (some token) { s with rest := rest } := by
      unfold accept
      simp only [hs, ht, if_true]
    rw [eat, bind_apply, haccept]
    rfl
  have hround : (do
      if ← look List.isEmpty then return none
      else if ← eat ";" then return some r
      else return some (r.add (← createTable source r)) :
        Parser (Option Registry)) s = .ok (some r) { s with rest := rest } := by
    rw [bind_apply, look_isEmpty_apply hs]
    dsimp only
    rw [if_neg (by decide), bind_apply, heat]
    rfl
  have hlength : rest.length < s.rest.length := by
    rw [hs, List.length_cons]
    omega
  rw [schema, loop, hround]
  simp only [hlength, if_true]

/-- A schema that goes on with anything but a semicolon goes on with a statement. -/
theorem exists_createTable {token : Token} {rest : List Token} (hs : s.rest = token :: rest)
    (ht : token.is ";" = false) (h : schema source r s = .ok r' t) :
    ∃ table u, createTable source r s = .ok table u := by
  cases hc : createTable source r s with
  | ok table u => exact ⟨table, u, rfl⟩
  | error e u =>
    rw [schema, loop, bind_apply, look_isEmpty_apply hs] at h
    dsimp only at h
    rw [if_neg (by decide), bind_apply, eat_apply_not hs ht] at h
    dsimp only at h
    rw [if_neg (by decide), bind_apply, hc] at h
    cases h

/-- The tables that a schema adds are added by their stored texts too. -/
theorem schema_storedText {before cs : List Char} (hsource : source = before ++ cs)
    (hs : Token.stream (.after .start before) cs = .ok s.rest)
    (h : schema source r s = .ok r' t) :
    ∃ tables, r'.tables = r.tables ++ tables ∧
      ∀ before' gap, gap = [] ∨ gap = ['\n'] →
        ∃ ts, Token.stream (.after .start before') (gap ++ storedText tables) = .ok ts ∧
          ∀ s', s'.rest = ts → s'.parameters = s.parameters → s'.notes = s.notes →
            ∃ t', schema (before' ++ (gap ++ storedText tables)) r s' = .ok r' t' ∧
              t'.notes = t.notes := by
  induction hn : s.rest.length using Nat.strongRecOn generalizing r s before cs with
  | ind n ih =>
    cases hrest : s.rest with
    | nil =>
      rw [schema_nil hrest] at h
      cases h
      refine ⟨[], by simp, fun before' gap hgap => ⟨[], ?_, fun s' hs' _ hnotes => ?_⟩⟩
      · have hnone : storedText [] = [] := rfl
        rw [stream_between hgap, hnone, Token.stream_nil]
      · exact ⟨s', schema_nil hs', hnotes⟩
    | cons token rest =>
      by_cases ht : token.is ";" = true
      · rw [schema_semicolon hrest ht] at h
        rw [hrest] at hs
        obtain ⟨front, value, back, hcs, -, -, -, -, hback⟩ := Token.cuts_of_stream [] hs
        rw [← Position.after_append] at hback
        have hlength : rest.length < n := by
          rw [← hn, hrest, List.length_cons]
          omega
        have hsource' : source = before ++ (front ++ value) ++ back := by
          rw [hsource, hcs]
          simp
        exact ih _ hlength (s := { s with rest := rest }) hsource' hback h rfl
      · rw [Bool.not_eq_true] at ht
        obtain ⟨table, u, hcreate⟩ := exists_createTable hrest ht h
        obtain ⟨front, statement, back, hcs, htext, hback, hagain⟩ :=
          createTable_again hsource hs hcreate
        have hlength := length_lt_of_createTable hcreate
        rw [schema_of_createTable hrest ht hcreate hlength] at h
        have hsource' : source = before ++ front ++ statement ++ back := by
          rw [hsource, hcs]
          simp
        obtain ⟨tables, htables, hmore⟩ := ih _ (hn ▸ hlength) hsource' hback h rfl
        refine ⟨table :: tables, ?_, fun before' gap hgap => ?_⟩
        · rw [htables, Registry.add, List.append_assoc]
          rfl
        · obtain ⟨gap', hgap', hstored⟩ := storedText_cons table tables
          rw [htext, String.toList_ofList] at hstored
          obtain ⟨ts', hts', hrun⟩ := hmore (before' ++ gap ++ statement) gap' hgap'
          obtain ⟨ts, hts, hstep⟩ := hagain (before' ++ gap) (gap' ++ storedText tables) ts' hts'
          refine ⟨ts, ?_, fun s' hs' hparameters hnotes => ?_⟩
          · rw [stream_between hgap, hstored, ← Position.after_append]
            exact hts
          · obtain ⟨u', hschema, hu', hparameters', hnotes'⟩ := hstep s' hs' hparameters hnotes
            obtain ⟨t', ht', hnotes''⟩ := hrun u' hu' hparameters' hnotes'
            refine ⟨t', ?_, hnotes''⟩
            rw [hstored, ← List.append_assoc, hschema, ← ht']
            simp

end Definition

namespace Registry

/-- The stored texts of a schema are a schema text that gives the same tables and says the same in
its warnings. -/
theorem ofText_storedText {text : String} {r : Registry} {ws : List Warning}
    (h : ofText text = .ok (r, ws)) :
    ∃ ws', ofText ("\n".intercalate (r.tables.map (·.createTableText))) = .ok (r, ws') ∧
      ws'.map (fun w => (w.code, w.message)) = ws.map fun w => (w.code, w.message) := by
  unfold ofText extend at h
  cases htokens : Token.tokenize text with
  | error e =>
    rw [htokens] at h
    cases h
  | ok tokens =>
  rw [htokens] at h
  dsimp only at h
  unfold Parser.run at h
  cases hschema : Definition.schema text.toList {} { rest := tokens } with
  | error e s =>
    rw [hschema] at h
    cases h
  | ok r' s =>
  rw [hschema] at h
  obtain ⟨rfl, rfl⟩ := Prod.mk.inj (Except.ok.inj h)
  have hstart : Token.stream (.after .start []) text.toList = .ok tokens := htokens
  have hsource : text.toList = [] ++ text.toList := rfl
  obtain ⟨tables, htables, hagain⟩ := Definition.schema_storedText hsource hstart hschema
  obtain rfl : tables = r'.tables := htables.symm
  obtain ⟨ts, hts, hrun⟩ := hagain [] [] (.inl rfl)
  obtain ⟨t, ht, hnotes⟩ := hrun { rest := ts } rfl rfl rfl
  have htext : ("\n".intercalate (r'.tables.map (·.createTableText))).toList =
      Definition.storedText r'.tables := by
    rw [String.toList_intercalate, List.map_map]
    rfl
  refine ⟨t.warnings, ?_, hnotes⟩
  have htokens' :
      Token.tokenize ("\n".intercalate (r'.tables.map (·.createTableText))) = .ok ts := by
    rw [Token.tokenize, htext]
    exact hts
  rw [ofText, extend, htokens', htext]
  dsimp only
  rw [Parser.run]
  have hstored :
      Definition.schema (Definition.storedText r'.tables) {} { rest := ts } = .ok r' t := ht
  rw [hstored]

/-- Comments and semicolons between two statements, and a semicolon inside one. -/
theorem ofText_storedText_comments :
    let text :=
      "-- a\nCREATE TABLE a(x TEXT COLLATE odd PRIMARY KEY, y DEFAULT (?1 + 1)); ; /* b; */" ++
      "create TEMP table b(z CHECK (1;2) REFERENCES a MATCH full); -- end"
    ∃ r ws ws', ofText text = .ok (r, ws) ∧
      ws.map (·.code) = [.unknownCollation, .matchNotEnforced] ∧
      r.tables.map (·.createTableText) =
        ["CREATE TABLE a(x TEXT COLLATE odd PRIMARY KEY, y DEFAULT (?1 + 1));",
          "create TEMP table b(z CHECK (1;2) REFERENCES a MATCH full);"] ∧
      ofText ("\n".intercalate (r.tables.map (·.createTableText))) = .ok (r, ws') ∧
      ws'.map (fun w => (w.code, w.message)) = ws.map fun w => (w.code, w.message) := by
  intro text
  have hread : (ofText text).map (fun x => (x.2.map (·.code), x.1.tables.map (·.createTableText))) =
      .ok ([.unknownCollation, .matchNotEnforced],
        ["CREATE TABLE a(x TEXT COLLATE odd PRIMARY KEY, y DEFAULT (?1 + 1));",
          "create TEMP table b(z CHECK (1;2) REFERENCES a MATCH full);"]) := by
    decide +kernel
  cases h : ofText text with
  | error e =>
    rw [h] at hread
    cases hread
  | ok x =>
    obtain ⟨r, ws⟩ := x
    rw [h] at hread
    obtain ⟨hcodes, htexts⟩ := Prod.mk.inj (Except.ok.inj hread)
    obtain ⟨ws', hagain, hnotes⟩ := ofText_storedText h
    exact ⟨r, ws, ws', rfl, hcodes, htexts, hagain, hnotes⟩

end Registry

end SqliteSchema
