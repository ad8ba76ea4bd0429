import SqliteSchema.Proofs.Lexeme.Partition
import SqliteSchema.Proofs.Name.Identifier
import SqliteSchema.Proofs.Query.Parameters
import SqliteSchema.Proofs.Query.Points
import SqliteSchema.Proofs.Schema.Points

/-!
What is read from ASCII text is called by identifiers: the tables of a schema and their columns, and
the bind parameters and columns of a query on them. Names go from the text through its tokens into
the model, and each function on this way keeps to the characters that it finds or to those of
identifiers.
-/
namespace SqliteSchema

theorem Text.isAscii_of_subset {cs ds : List Char} (h : cs ⊆ ds) (hds : isAscii ds = true) :
    isAscii cs = true := by
  rw [isAscii_iff] at hds ⊢
  exact fun c hc => hds c (h hc)

/-! ### The characters of tokens -/

namespace Literal.Quoted

theorem unescape_subset (cs : List Char) : unescape cs ⊆ cs := by
  fun_induction unescape cs with
  | case1 => exact List.Subset.refl []
  | case2 rest ih => exact List.subset_cons_of_subset _ (List.cons_subset_cons _ ih)
  | case3 rest ih => exact List.subset_cons_of_subset _ (List.cons_subset_cons _ ih)
  | case4 c rest _ _ ih => exact List.cons_subset_cons c ih

theorem stripQuotes_subset (cs : List Char) : stripQuotes cs ⊆ cs := by
  unfold stripQuotes
  split
  · next rest =>
    split
    · exact List.subset_cons_of_subset _ (List.dropLast_subset rest)
    · exact List.Subset.refl _
  · exact List.Subset.refl cs

theorem inside?_subset {cs inside : List Char} (h : inside? cs = some inside) : inside ⊆ cs := by
  unfold inside? at h
  split at h
  · next c rest =>
    split at h
    · cases h
      exact List.subset_cons_of_subset c (List.dropLast_subset rest)
    · cases h
  · cases h

end Literal.Quoted

namespace Token

theorem unquoted_subset (t : Token) : t.unquoted.toList ⊆ t.value.toList := by
  unfold unquoted
  split
  · rw [String.toList_ofList]
    exact List.Subset.trans (Literal.Quoted.unescape_subset _)
      (Literal.Quoted.stripQuotes_subset t.value.toList)
  · cases h : Literal.Quoted.inside? t.value.toList with
    | none => exact List.Subset.refl _
    | some inside =>
      rw [Option.map_some, Option.getD_some, String.toList_ofList]
      exact Literal.Quoted.inside?_subset h
  · exact List.Subset.refl _

theorem Tiles.value_subset {p : Position} {cs : List Char} {ts : List Token} (h : Tiles p cs ts) :
    ∀ t ∈ ts, t.value.toList ⊆ cs := by
  induction h with
  | nil => exact List.forall_mem_nil _
  | @cons p gap value rest ts kind hg hv htiles ih =>
    rw [List.forall_mem_cons, String.toList_ofList]
    constructor
    · exact fun c hc => List.mem_append_left rest (List.mem_append_right gap hc)
    · exact fun t ht c hc => List.mem_append_right (gap ++ value) (ih t ht hc)

variable {text : String} {ts : List Token}

theorem isAscii_of_tokenize (h : tokenize text = .ok ts)
    (htext : Text.isAscii text.toList = true) :
    ∀ t ∈ ts, Text.isAscii t.value.toList = true := by
  have htiles : Tiles .start text.toList ts := tiles_of_stream h
  intro t ht
  exact Text.isAscii_of_subset (htiles.value_subset t ht) htext

theorem isIdentifier_of_token {t : Token} (h : Text.isAscii t.value.toList = true) :
    Name.isIdentifier (Name.output t.unquoted) = true :=
  Name.isIdentifier_output (Text.isAscii_of_subset t.unquoted_subset h)

end Token

/-! ### Parameters -/

namespace Parameters

variable {ps ps' : Parameters}

theorem isIdentifier_of_register {s : String} {n : Nat} (h : ps.register s = .ok (n, ps'))
    (hs : Text.isAscii s.toList = true)
    (hps : ∀ p ∈ ps.entries, Name.isIdentifier p.outputName = true) :
    ∀ p ∈ ps'.entries, Name.isIdentifier p.outputName = true := by
  intro p hp
  rcases outputName_of_register h hp with hold | hnumber | hname
  · exact hps p hold
  · have hparam : Name.isIdentifier "param" = true := by decide
    rw [hnumber]
    exact Name.isIdentifier_number hparam _
  · rw [hname]
    apply Name.isIdentifier_parameter
    rw [String.toList_ofList]
    exact Text.isAscii_of_subset (List.tail_sublist _).subset hs

theorem isIdentifier_of_registerAll {ts : List Token} (h : ps.registerAll ts = .ok ps')
    (hts : ∀ t ∈ ts, Text.isAscii t.value.toList = true)
    (hps : ∀ p ∈ ps.entries, Name.isIdentifier p.outputName = true) :
    ∀ p ∈ ps'.entries, Name.isIdentifier p.outputName = true := by
  induction ts generalizing ps with
  | nil =>
    cases h
    exact hps
  | cons t ts ih =>
    rw [List.forall_mem_cons] at hts
    cases hr : ps.register t.value with
    | error fault =>
      rw [registerAll, List.foldlM_cons, hr] at h
      cases h
    | ok r =>
      have hrest : ps.registerAll ([t] ++ ts) = .ok ps' := h
      rw [registerAll_append (registerAll_singleton hr)] at hrest
      exact ih hrest hts.2 (isIdentifier_of_register hr hts.1 hps)

end Parameters

/-! ### Columns -/

namespace Projected

variable {names finals : List String} {number : Nat → Nat}

/-- A final name is one of the names, or one of them with a number behind it. -/
theorem Numbered.mem (h : Numbered names finals number) {x : String} (hx : x ∈ finals) :
    ∃ a ∈ names, x = a ∨ ∃ k : Nat, x = s!"{a}{k}" := by
  obtain ⟨i, hi⟩ := List.mem_iff_getElem?.1 hx
  obtain ⟨hlt, -⟩ := List.getElem?_eq_some_iff.1 hi
  rw [h.length] at hlt
  have ha := List.getElem?_eq_getElem hlt
  have hmem := List.mem_of_getElem? ha
  refine ⟨_, hmem, ?_⟩
  by_cases hone : names.count names[i] = 1
  · rw [h.single i _ ha hone] at hi
    exact .inl (Option.some.inj hi).symm
  · have hpos := List.count_pos_iff.2 hmem
    rw [(h.shared i _ ha (by omega)).2] at hi
    exact .inr ⟨number i, (Option.some.inj hi).symm⟩

theorem isIdentifier_distinct {ps : List Projected}
    (h : ∀ p ∈ ps, Name.isIdentifier p.owner = true ∧ Name.isIdentifier p.name = true) :
    ∀ c ∈ distinct ps, Name.isIdentifier c.outputName = true := by
  have hqualified : ∀ a ∈ ps.map (qualifiedName ps), Name.isIdentifier a = true := by
    rw [List.forall_mem_map]
    intro p hp
    obtain ⟨howner, hname⟩ := h p hp
    unfold qualifiedName
    split
    · exact Name.isIdentifier_append howner (Name.isIdentifier_iff.1 hname).1
    · exact hname
  obtain ⟨number, hnumbered⟩ := numbered_numberNames (ps.map (qualifiedName ps))
  rw [← outputNames_distinct] at hnumbered
  intro c hc
  have hfinal : c.outputName ∈ (distinct ps).map (·.outputName) := List.mem_map_of_mem hc
  obtain ⟨a, ha, hname | ⟨k, hname⟩⟩ := hnumbered.mem hfinal
  · rw [hname]
    exact hqualified a ha
  · rw [hname]
    exact Name.isIdentifier_number (hqualified a ha) k

end Projected

/-- The table and its columns are called by identifiers. -/
structure Table.HasIdentifiers (t : Table) : Prop where
  table : Name.isIdentifier t.outputName = true
  columns : ∀ c ∈ t.columns, Name.isIdentifier c.outputName = true

theorem Table.NamedFrom.hasIdentifiers {ts : List Token} {t : Table} (h : t.NamedFrom ts)
    (hts : ∀ t ∈ ts, Text.isAscii t.value.toList = true) : t.HasIdentifiers := by
  constructor
  · obtain ⟨token, htoken, hname⟩ := h.table
    rw [hname]
    exact Token.isIdentifier_of_token (hts token htoken)
  · intro c hc
    obtain ⟨token, htoken, hname⟩ := h.columns c hc
    rw [hname]
    exact Token.isIdentifier_of_token (hts token htoken)

namespace Query

variable {ts : List Token} {registry : Registry} {q : Query}

/-- A column has the name that the table declares, that of the row number, or that of an alias, and
all of them are names of identifiers. -/
theorem isIdentifier_of_standsFor {sources : List Source} {item : SelectItem} {p : Projected}
    {s : Source} {c : Column} (h : StandsFor sources item p s c)
    (hts : ∀ t ∈ ts, Text.isAscii t.value.toList = true) (hitem : item.PointsInto ts)
    (hnamed : item.NamedFrom ts) (hsources : ∀ s ∈ sources, s.table.HasIdentifiers) :
    Name.isIdentifier p.owner = true ∧ Name.isIdentifier p.name = true := by
  have hs := hsources s (List.mem_of_getElem? h.source)
  rw [h.owner, h.name]
  refine ⟨hs.table, ?_⟩
  cases halias : item.newName? with
  | some name =>
    obtain ⟨token, htoken, rfl⟩ := hnamed name halias
    exact Token.isIdentifier_of_token (hts token htoken)
  | none =>
    rcases h.column with hc | ⟨qualifier, column, newName, rfl, rfl⟩
    · exact hs.columns c hc
    · exact Token.isIdentifier_of_token (hts column hitem.column)

/-- Every column of a select list stands for one of its entries. -/
theorem exists_standsFor {sources : List Source} {items : List SelectItem} {ps : List Projected}
    (h : resolveAll sources items = .ok ps) :
    ∀ p ∈ ps, ∃ item ∈ items, ∃ s c, StandsFor sources item p s c := by
  obtain ⟨groups, rfl, hgroups⟩ := standsFor_of_resolveAll h
  clear h
  induction hgroups with
  | nil => exact List.forall_mem_nil _
  | @cons item group items groups hgroup _ ih =>
    intro p hp
    rw [List.flatten_cons, List.mem_append] at hp
    rcases hp with hp | hp
    · exact ⟨item, List.mem_cons_self, hgroup p hp⟩
    · obtain ⟨item', hitem, hstands⟩ := ih p hp
      exact ⟨item', List.mem_cons_of_mem item hitem, hstands⟩

theorem ReadFrom.isIdentifier (h : q.ReadFrom ts registry)
    (hts : ∀ t ∈ ts, Text.isAscii t.value.toList = true)
    (htables : ∀ t ∈ registry.tables, t.HasIdentifiers) :
    ∀ c ∈ q.columns, Name.isIdentifier c.outputName = true := by
  obtain ⟨ps, hps, hprojection⟩ := h.projection
  have hsources : ∀ s ∈ q.sources, s.table.HasIdentifiers :=
    fun s hs => htables s.table (h.sources s hs)
  rw [columns, hprojection]
  apply Projected.isIdentifier_distinct
  intro p hp
  obtain ⟨item, hitem, s, c, hstands⟩ := exists_standsFor hps p hp
  obtain ⟨hpoints, hnamed⟩ := h.items item hitem
  exact isIdentifier_of_standsFor hstands hts hpoints hnamed hsources

/-- The parameters of a query are spelled by its tokens. -/
theorem isIdentifier_of_select {s : ParseState} (h : select registry { rest := ts } = .ok q s)
    (hts : ∀ t ∈ ts, Text.isAscii t.value.toList = true) :
    ∀ p ∈ q.parameters.entries, Name.isIdentifier p.outputName = true := by
  obtain ⟨hrest, hparameters⟩ := select_eq_ok h
  obtain ⟨read, hread, hregister⟩ :=
    collects_select (P := fun _ => True) registry _ _ _ trivial h
  have hread : ts = read.flatMap Parser.Stretch.tokens := by rwa [hrest, List.append_nil] at hread
  rw [← hparameters] at hregister
  apply Parameters.isIdentifier_of_registerAll hregister
  · intro t ht
    obtain ⟨x, hx, ht⟩ := List.mem_flatMap.1 ht
    apply hts t
    rw [hread]
    exact List.mem_flatMap.2 ⟨x, hx, x.shown_subset ht⟩
  · exact List.forall_mem_nil _

end Query

/-- ASCII texts give rise to nothing but identifiers: whatever the tables and columns of a schema
are called in it, and whatever aliases, parameters and joins a query has, the names for generated
code consist of letters, digits and underscores and do not start with a digit. -/
theorem hasIdentifiers_of_ofText {text : String} {registry : Registry} {ws : List Warning}
    (htext : Text.isAscii text.toList = true) (h : Registry.ofText text = .ok (registry, ws)) :
    (∀ t ∈ registry.tables, t.HasIdentifiers) ∧
    ∀ (sql : String) (q : Query) (ws' : List Warning), Text.isAscii sql.toList = true →
      Query.ofText registry sql = .ok (q, ws') →
      (∀ p ∈ q.parameters.entries, Name.isIdentifier p.outputName = true) ∧
        ∀ c ∈ q.columns, Name.isIdentifier c.outputName = true := by
  have htables : ∀ t ∈ registry.tables, t.HasIdentifiers := by
    obtain ⟨ts, s, htokens, hschema, -⟩ := Registry.extend_eq_ok h
    have hascii := Token.isAscii_of_tokenize htokens htext
    intro t ht
    rcases (Definition.points_tables _ _).of_eq_ok (List.Subset.refl ts) hschema t ht with h | h
    · cases h
    · exact h.hasIdentifiers hascii
  refine ⟨htables, fun sql q ws' hsql hq => ?_⟩
  rw [Query.ofText] at hq
  cases htokens : Token.tokenize sql with
  | error e =>
    rw [htokens] at hq
    cases hq
  | ok ts =>
    rw [htokens] at hq
    obtain ⟨s, hrun, -⟩ := Parser.run_eq_ok hq
    have hascii := Token.isAscii_of_tokenize htokens hsql
    have hread := (Query.points_query registry).of_eq_ok (List.Subset.refl ts) hrun
    exact ⟨Query.isIdentifier_of_select hrun hascii, hread.isIdentifier hascii htables⟩

/-- Names that start with a digit or have no letter at all, a self-join, an alias and two kinds of
parameters. -/
theorem hasIdentifiers_of_ofText_brackets :
    let text := "CREATE TABLE [9 lives] (\"a-b\" INT, [ ] TEXT, ID BLOB);"
    let sql := "SELECT p.*, q.\"a-b\", p.ID AS [1+1], q.rowid FROM [9 lives] p, [9 lives] AS q " ++
      "WHERE p.ID = :9x AND q.ID = ?"
    ∃ registry ws q ws', Registry.ofText text = .ok (registry, ws) ∧
      Query.ofText registry sql = .ok (q, ws') ∧
      registry.tables.map (·.outputName) = ["_9Lives"] ∧
      q.parameters.entries.map (·.outputName) = ["_9x", "param2"] ∧
      q.columns.map (·.outputName) = ["_9LivesAB1", "_", "Id", "_9LivesAB2", "_11", "Rowid"] ∧
      (∀ t ∈ registry.tables, t.HasIdentifiers) ∧
      (∀ p ∈ q.parameters.entries, Name.isIdentifier p.outputName = true) ∧
      ∀ c ∈ q.columns, Name.isIdentifier c.outputName = true := by
  intro text sql
  have hread : ((Registry.ofText text).bind fun r => (Query.ofText r.1 sql).map fun q =>
      (r.1.tables.map (·.outputName), q.1.parameters.entries.map (·.outputName),
        q.1.columns.map (·.outputName))) =
      .ok (["_9Lives"], ["_9x", "param2"],
        ["_9LivesAB1", "_", "Id", "_9LivesAB2", "_11", "Rowid"]) := by
    decide +kernel
  cases hr : Registry.ofText text with
  | error f =>
    rw [hr] at hread
    cases hread
  | ok r =>
  cases hq : Query.ofText r.1 sql with
  | error f =>
    rw [hr, Except.bind, hq] at hread
    cases hread
  | ok x =>
  rw [hr, Except.bind, hq] at hread
  obtain ⟨htables, hnames⟩ := Prod.mk.inj (Except.ok.inj hread)
  obtain ⟨hparameters, hcolumns⟩ := Prod.mk.inj hnames
  obtain ⟨hschema, hquery⟩ := hasIdentifiers_of_ofText (by decide +kernel) hr
  obtain ⟨hp, hc⟩ := hquery sql x.1 x.2 (by decide +kernel) hq
  exact ⟨r.1, r.2, x.1, x.2, rfl, hq, htables, hparameters, hcolumns, hschema, hp, hc⟩

end SqliteSchema
