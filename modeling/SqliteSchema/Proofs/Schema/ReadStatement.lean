import SqliteSchema.Proofs.Schema.ReadTable

/-!
A printed statement is read back as its table, behind the tables that are printed before it. All
but its first word and its semicolon is described without the places of the tokens.
-/
namespace SqliteSchema.Definition

open SqliteSchema.Parser Piece Token

variable {r : Registry} {t : Table} {as : List Token} {ns : List Note}

/-! ### Table options -/

theorem reads_withoutRowid {options : Options} (h : options.withoutRowid = none) :
    Reads (tableOption options) ⟨ofKeyword .WITHOUT :: ofKeyword .ROWID :: as, ns⟩
      (fun o => o.withoutRowid.isSome = true ∧ o.strict = options.strict) ⟨as, ns⟩ := by
  apply Reads.keyword.bind
  intro token hk
  simp only [hk, h]
  exact (Reads.expectKeyword isKeyword_self).bind fun _ _ => .pure ⟨rfl, rfl⟩

theorem reads_strict {options : Options} (h : options.strict = none) :
    Reads (tableOption options) ⟨ofKeyword .STRICT :: as, ns⟩
      (fun o => o.withoutRowid = options.withoutRowid ∧ o.strict.isSome = true) ⟨as, ns⟩ := by
  apply Reads.keyword.bind
  intro token hk
  simp only [hk, h]
  exact .pure ⟨rfl, rfl⟩

/-- The options of a table, which are read up to the semicolon. -/
theorem reads_tableOptions (t : Table) :
    Reads tableOptions ⟨tokens t.optionPieces ++ ofMark ';' :: as, ns⟩
      (fun o => o.withoutRowid.isSome = t.withoutRowid ∧ o.strict.isSome = t.strict)
      ⟨ofMark ';' :: as, ns⟩ := by
  have hcomma : (ofMark ',').is "," = true := by decide
  have hsemicolon : (ofMark ';').is "," = false := by decide
  have hno (k : Keyword) : (ofMark ';').isKeyword k = false := isKeyword_ofMark (by decide)
  have hstop (options : Options) : Reads (do
      if ← eat "," then return some (← tableOption options) else return none)
        ⟨ofMark ';' :: as, ns⟩ (· = none) ⟨ofMark ';' :: as, ns⟩ :=
    (Reads.eat_not hsemicolon).seq (.pure rfl)
  have hstart {k : Keyword} {as : List Token} (hk : k = .WITHOUT ∨ k = .STRICT) :
      Reads (Parser.look (·.head?.any fun t => t.isKeyword .WITHOUT || t.isKeyword .STRICT))
        ⟨ofKeyword k :: as, ns⟩ (· = true) ⟨ofKeyword k :: as, ns⟩ := by
    apply (Reads.look_head fun _ => rfl).imp
    intro b hb
    rw [hb, isKeyword_ofKeyword, isKeyword_ofKeyword]
    rcases hk with rfl | rfl <;> rfl
  cases hw : t.withoutRowid with
  | false =>
    cases hs : t.strict with
    | false =>
      have htokens : tokens t.optionPieces = [] := by simp [Table.optionPieces, hw, hs]
      rw [htokens, List.nil_append]
      refine .seq (x := false) ((Reads.look_head fun _ => rfl).imp fun b hb => ?_) ?_
      · rw [hb, hno, hno]
        rfl
      · exact .pure ⟨rfl, rfl⟩
    | true =>
      have htokens : tokens t.optionPieces = [ofKeyword .STRICT] := by
        simp [Table.optionPieces, hw, hs]
      rw [htokens, List.singleton_append]
      refine (hstart (.inr rfl)).seq ((reads_strict rfl).bind fun o ho => ?_)
      refine .loop_stop (hstop o) ?_
      rw [ho.1]
      exact ⟨rfl, ho.2⟩
  | true =>
    cases hs : t.strict with
    | false =>
      have htokens : tokens t.optionPieces = [ofKeyword .WITHOUT, ofKeyword .ROWID] := by
        simp [Table.optionPieces, hw, hs]
      rw [htokens]
      refine (hstart (.inl rfl)).seq ((reads_withoutRowid rfl).bind fun o ho => ?_)
      refine .loop_stop (hstop o) ?_
      rw [ho.2]
      exact ⟨ho.1, rfl⟩
    | true =>
      have htokens : tokens t.optionPieces =
          [ofKeyword .WITHOUT, ofKeyword .ROWID, ofMark ',', ofKeyword .STRICT] := by
        simp [Table.optionPieces, hw, hs]
      rw [htokens]
      refine (hstart (.inl rfl)).seq ((reads_withoutRowid rfl).bind fun o ho => ?_)
      refine .loop_next (P := fun o' => o'.withoutRowid.isSome = true ∧ o'.strict.isSome = true)
        ((Reads.eat hcomma).seq ((reads_strict ho.2).bind fun o' ho' => .pure ⟨o', rfl, ?_⟩)) ?_
        fun o' ho' => .loop_stop (hstop o') ho'
      · rw [ho'.1]
        exact ⟨ho.1, ho'.2⟩
      · simp

/-- The options that are read hold of the table. -/
theorem applyOptions_of_allowed {options : Options} (h : t.OptionsAllowed)
    (hw : options.withoutRowid.isSome = t.withoutRowid) (hs : options.strict.isSome = t.strict) :
    applyOptions (t.withForeignKeys t.foreignKeys.length) options =
      .ok { t.withForeignKeys t.foreignKeys.length with
        withoutRowid := t.withoutRowid
        strict := t.strict } := by
  generalize hu : t.withForeignKeys t.foreignKeys.length = u
  have hkey (ho : t.withoutRowid = true) : u.hasPrimaryKey = true := by
    have hne := h.withoutRowid ho
    subst hu
    simp [Table.hasPrimaryKey, Table.withForeignKeys, hne]
  have htypes (ho : t.strict = true) :
      u.columns.find? (fun c => !isStrictType c.sqlType) = none := by
    have hstrict := h.strict ho
    subst hu
    simpa [Table.withForeignKeys] using hstrict
  have hfirst : applyWithoutRowid u options.withoutRowid =
      .ok { u with withoutRowid := t.withoutRowid } := by
    cases ho : options.withoutRowid with
    | none =>
      rw [ho] at hw
      rw [← hw, ← hu]
      rfl
    | some token =>
      rw [ho] at hw
      rw [applyWithoutRowid, if_pos (hkey hw.symm), ← hw]
      rfl
  have hsecond : applyStrict { u with withoutRowid := t.withoutRowid } options.strict =
      .ok { u with withoutRowid := t.withoutRowid, strict := t.strict } := by
    cases ho : options.strict with
    | none =>
      rw [ho] at hs
      rw [← hs, ← hu]
      rfl
    | some token =>
      rw [ho] at hs
      simp only [applyStrict, htypes hs.symm, ← hs, Option.isSome_some]
  rw [applyOptions, hfirst]
  exact hsecond

/-! ### Names of tables -/

theorem length_retold (ht : r.tables[t.id]? = some t) : (r.retold t.id).tables.length = t.id := by
  have hlt : t.id < r.tables.length := (List.getElem?_eq_some_iff.1 ht).1
  rw [Registry.retold, List.length_map, List.length_take]
  omega

/-- A table has no name that a table before it has. -/
theorem checkTableName_retold (hr : r.WellFormed) (ht : r.tables[t.id]? = some t)
    (ho : t.outputName = Name.output t.sqlName) :
    checkTableName (r.retold t.id) t.sqlName = .ok () := by
  obtain ⟨hlt, hget⟩ := List.getElem?_eq_some_iff.1 ht
  have hfresh : ∀ u ∈ (r.retold t.id).tables, sameName u.sqlName t.sqlName = false ∧
      u.outputName ≠ t.outputName := by
    intro u hu
    obtain ⟨v, hv, rfl⟩ := List.mem_map.1 hu
    obtain ⟨j, hj, rfl⟩ := List.mem_take_iff_getElem.1 hv
    have hname := List.pairwise_iff_getElem.1 hr.sqlNames j t.id (by simp; omega) (by simpa)
      (by omega)
    have houtput := List.pairwise_iff_getElem.1 hr.outputNames j t.id (by simp; omega) (by simpa)
      (by omega)
    rw [List.getElem_map, List.getElem_map, hget] at hname houtput
    exact ⟨hname, houtput⟩
  have hname : (r.retold t.id).find? t.sqlName = none := by
    refine List.find?_eq_none.2 fun u hu => ?_
    exact ne_true_of_eq_false (hfresh u hu).1
  have houtput : (r.retold t.id).findOutput? (Name.output t.sqlName) = none := by
    refine List.find?_eq_none.2 fun u hu => ?_
    rw [← ho, beq_iff_eq]
    exact (hfresh u hu).2
  simp [checkTableName, hname, houtput]

theorem reads_tableName (hr : r.WellFormed) (ht : r.tables[t.id]? = some t)
    (ho : t.outputName = Name.output t.sqlName) :
    Reads (tableName (r.retold t.id)) ⟨ofName t.sqlName :: ofMark '(' :: as, ns⟩
      (· = .named t.id t.sqlName) ⟨ofMark '(' :: as, ns⟩ := by
  apply Reads.name.bind
  intro token hname
  refine .seq (x := false) (Reads.look_head fun _ => rfl) ?_
  have hcheck := checkTableName_retold hr ht ho
  rw [hname]
  refine (Reads.ofExcept (x := ()) (by rw [hcheck]; rfl)).seq (.pure ?_)
  rw [Registry.newTable, length_retold ht]

/-! ### Statements -/

/-- What is read of a statement between its first word and its semicolon. -/
def tableDefinition (earlier : Registry) : Parser Table := do
  let temporary ← eatAnyKeyword [.TEMP, .TEMPORARY]
  let _ ← statementKeyword .TABLE "TABLE"
  ifNotExists
  let table ← tableName earlier
  refuseAs
  let _ ← expect "("
  let table ← tableBody earlier { table with isTemporary := temporary.isSome }
  let options ← tableOptions
  ofExcept (applyOptions table options)

theorem createTable_eq (source : List Char) (earlier : Registry) :
    createTable source earlier = do
      let create ← statementKeyword .CREATE "CREATE TABLE"
      let table ← tableDefinition earlier
      let semicolon ← expect ";"
      return { table with createTableText := slice source create semicolon } := by
  simp only [createTable, tableDefinition, bind_assoc]

theorem reads_statementKeyword {k : Keyword} {expected : String} :
    Reads (statementKeyword k expected) ⟨ofKeyword k :: as, ns⟩ (·.atStart = ofKeyword k)
      ⟨as, ns⟩ := by
  apply Reads.current.bind
  intro token ht
  have hk : token.isKeyword k = true := by
    rw [← isKeyword_self (k := k), ← ht]
    rfl
  rw [if_pos hk]
  exact Reads.advance

theorem reads_tableDefinition (hr : r.WellFormed) (hf : r.Referenced)
    (ht : r.tables[t.id]? = some t) (hp : t.Printable) :
    Reads (tableDefinition (r.retold t.id)) ⟨tokens (t.definition r) ++ ofMark ';' :: as, ns⟩
      (· = { t with createTableText := "" })
      ⟨ofMark ';' :: as, ns ++ t.notes⟩ := by
  have hopen : (ofMark '(').is "(" = true := by decide
  have htokens : tokens (t.definition r) ++ ofMark ';' :: as =
      (if t.isTemporary then [.TEMP, .TABLE] else [.TABLE]).map ofKeyword ++ ofName t.sqlName ::
        ofMark '(' :: (tokens (commas (t.items r)) ++ ofMark ')' ::
          (tokens t.optionPieces ++ ofMark ';' :: as)) := by
    simp [Table.definition]
  have htemporary {as : List Token} : Reads (eatAnyKeyword [.TEMP, .TEMPORARY])
      ⟨(if t.isTemporary then [.TEMP, .TABLE] else [.TABLE]).map ofKeyword ++ as, ns⟩
      (·.isSome = t.isTemporary) ⟨ofKeyword .TABLE :: as, ns⟩ := by
    cases htemp : t.isTemporary with
    | false =>
      refine (Reads.eatAnyKeyword_not (find?_ofKeyword_eq_none (by decide))).imp fun o ho => ?_
      rw [ho]
      rfl
    | true =>
      refine (Reads.eatAnyKeyword (find?_ofKeyword (k := .TEMP) (by decide))).imp fun o ho => ?_
      rw [ho]
      rfl
  have hrefuse {as : List Token} : Reads refuseAs ⟨ofMark '(' :: as, ns⟩ (fun _ => True)
      ⟨ofMark '(' :: as, ns⟩ := by
    apply Reads.peek.bind
    rintro _ ⟨b, hb, hmark⟩
    have hno : b.isKeyword .AS = false := by
      rw [← isKeyword_ofMark (c := '(') (k := .AS) (by decide), ← hmark]
      rfl
    simp only [hb, hno]
    exact .pure trivial
  have hexists {as : List Token} : Reads ifNotExists ⟨ofName t.sqlName :: as, ns⟩ (fun _ => True)
      ⟨ofName t.sqlName :: as, ns⟩ :=
    (Reads.eatKeyword_not isKeyword_ofName).seq (.pure trivial)
  obtain ⟨constrained, hitems⟩ := readsItems_items hr hf ht hp
  have hne : t.items r ≠ [] := by
    simp [Table.items, hp.columns]
  rw [htokens]
  refine htemporary.bind fun temporary htemp => reads_statementKeyword.bind fun _ _ => ?_
  refine hexists.bind fun _ _ => (reads_tableName hr ht hp.outputName).seq ?_
  refine hrefuse.bind fun _ _ => (Reads.expect hopen).bind fun _ _ => ?_
  rw [htemp]
  apply (reads_tableBody hne hitems).seq
  apply (reads_tableOptions t).bind
  intro options ho
  apply (Reads.ofExcept (applyOptions_of_allowed hp.options ho.1 ho.2)).imp
  intro u hu
  rw [hu, Table.withForeignKeys, List.take_length]
  simp only [Table.named, ← hp.outputName]

/-! ### Places -/

/-- What is left of placed pieces is known from its tokens. -/
theorem rest_eq_place {xs ys : List Piece} {left : List Token} {p : Position}
    (h : left <:+ place p (xs ++ ys)) (hv : left.map Token.atStart = tokens ys) :
    left = place (p.after (chars xs)) ys := by
  have hlength : left.length = (place (p.after (chars xs)) ys).length := by
    have hcount := congrArg List.length (hv.trans (map_atStart_place (p.after (chars xs)) ys).symm)
    rwa [List.length_map, List.length_map] at hcount
  have hsuffix : place (p.after (chars xs)) ys <:+ place p (xs ++ ys) := by
    rw [place_append]
    exact List.suffix_append _ _
  exact (List.suffix_of_suffix_length_le h hsuffix (Nat.le_of_eq hlength)).eq_of_length hlength

theorem statementKeyword_apply {k : Keyword} {expected : String} {s : ParseState} {token : Token}
    {rest : List Token} (hs : s.rest = token :: rest) (hk : token.isKeyword k = true) :
    statementKeyword k expected s = .ok token { s with rest := rest } := by
  have hcurrent : current expected s = .ok token s := by
    unfold current
    rw [hs]
  rw [statementKeyword, bind_apply, hcurrent]
  simp only [hk, if_true, advance, require, hs]

theorem expect_apply {symbol : String} {s : ParseState} {token : Token} {rest : List Token}
    (hs : s.rest = token :: rest) (h : token.is symbol = true) :
    expect symbol s = .ok token { s with rest := rest } := by
  simp only [expect, require, hs, h, if_true]

/-- The text from the first word of a statement to its semicolon is the statement. -/
theorem slice_statement {before after : List Char} {create semicolon : Token}
    (hp : create.position.absolute = before.length)
    (hs : semicolon.position =
      (create.position.after (keyword .CREATE).text).after (chars (t.definition r)))
    (hl : semicolon.length = 1) :
    slice (before ++ chars (t.statement r) ++ after) create semicolon =
      String.ofList (chars (t.statement r)) := by
  have hstop : semicolon.stop - create.position.absolute = (chars (t.statement r)).length := by
    rw [Token.stop, hl, hs, Position.absolute_after, Position.absolute_after, hp, Table.statement,
      chars_cons, chars_append, List.length_append, List.length_append]
    have hmark : (chars [.mark ';']).length = 1 := rfl
    omega
  rw [slice, hstop, hp, List.append_assoc, List.drop_left, List.take_left]

/-- The statement of a table in a text, at the place where it stands. -/
theorem createTable_statement (hr : r.WellFormed) (hf : r.Referenced)
    (ht : r.tables[t.id]? = some t) (hp : t.Printable) {before after : List Char}
    {rest : List Piece} {s : ParseState} {p : Position} (hpos : p.absolute = before.length)
    (hs : s.rest = place p (t.statement r ++ rest)) :
    ∃ s', createTable (before ++ chars (t.statement r) ++ after) (r.retold t.id) s =
        .ok (t.retold r) s' ∧
      s'.rest = place (p.after (chars (t.statement r))) rest ∧
      (view s').notes = (view s).notes ++ t.notes := by
  let q := (p.after (keyword .CREATE).text).after (chars (t.definition r))
  let create : Token := ⟨String.ofList (keyword .CREATE).text, .other, p⟩
  let semicolon : Token := ⟨String.ofList [';'], .other, q⟩
  let tail := t.definition r ++ .mark ';' :: rest
  have hcreate : create.isKeyword .CREATE = true := by
    change (⟨String.ofList (keyword .CREATE).text, .other, .start⟩ : Token).isKeyword .CREATE = true
    decide +kernel
  have hend : semicolon.is ";" = true := by
    change (ofMark ';').is ";" = true
    decide
  have hrest : s.rest = create :: place (p.after (keyword .CREATE).text) tail := by
    rw [hs, Table.statement, List.cons_append, List.append_assoc, List.singleton_append]
    rfl
  have hfirst : statementKeyword .CREATE "CREATE TABLE" s = .ok create _ :=
    statementKeyword_apply hrest hcreate
  have hview : view { s with rest := place (p.after (keyword .CREATE).text) tail } =
      ⟨tokens (t.definition r) ++ ofMark ';' :: tokens rest, (view s).notes⟩ := by
    rw [view, map_atStart_place, tokens_append, tokens_mark]
    rfl
  obtain ⟨u, s₂, hdefinition, rfl, hsuffix, hview₂⟩ := reads_tableDefinition hr hf ht hp _ hview
  have hrest₂ : s₂.rest = semicolon :: place (q.after [';']) rest :=
    rest_eq_place hsuffix (congrArg View.ahead hview₂)
  have hlast := expect_apply hrest₂ hend
  refine ⟨{ s₂ with rest := place (q.after [';']) rest }, ?_, ?_, ?_⟩
  · rw [createTable_eq, bind_apply, hfirst]
    dsimp only
    rw [bind_apply, hdefinition]
    dsimp only
    rw [bind_apply, hlast]
    dsimp only
    have hslice : slice (before ++ chars (t.statement r) ++ after) create semicolon =
        String.ofList (chars (t.statement r)) :=
      slice_statement hpos rfl String.length_ofList
    rw [hslice]
    rfl
  · rw [Table.statement, chars_cons, chars_append, Position.after_append, Position.after_append]
    rfl
  · exact congrArg View.notes hview₂

end SqliteSchema.Definition
