import SqliteSchema.Definition.Table
import SqliteSchema.Proofs.Expr.Points
import SqliteSchema.Proofs.Schema.WellFormed

/-!
Table definitions point into their tokens. A foreign key, a refused key and a table option are
reported at tokens that were read long before, which is why the parsers that are handed a token ask
for one of the list. The output names of a table and its columns are made from the tokens, too.
-/
namespace SqliteSchema

/-- The output names of the table and of its columns are such as `P` says. -/
structure Table.Named (P : String → Prop) (t : Table) : Prop where
  table : P t.outputName
  columns : ∀ c ∈ t.columns, P c.outputName

/-- Every output name of the table is made from a token of the list. -/
abbrev Table.NamedFrom (ts : List Token) : Table → Prop :=
  Table.Named fun outputName => ∃ token ∈ ts, outputName = Name.output token.unquoted

namespace Table.Named

variable {P : String → Prop} {table table' : Table} {indices : List Nat}

theorem addColumn {name : String} (h : table.Named P) (hname : P (Name.output name))
    (type : String) : (table.addColumn name type).Named P := by
  refine ⟨h.table, fun c hc => ?_⟩
  rcases List.mem_append.1 hc with hc | hc
  · exact h.columns c hc
  · rw [List.mem_singleton.1 hc]
    exact hname

/-- A column may change in everything but its name. -/
theorem updateColumn (h : table.Named P) (i : Nat) {f : Column → Column}
    (hf : ∀ c, (f c).outputName = c.outputName) : (table.updateColumn i f).Named P := by
  refine ⟨h.table, forall_mem_modify h.columns fun c hc => ?_⟩
  rw [hf]
  exact h.columns c (List.mem_of_getElem? hc)

theorem setPrimaryKey (h : table.Named P) (hk : table.setPrimaryKey indices = .ok table') :
    table'.Named P := by
  by_cases hl : indices.length = 1
  · obtain ⟨i, rfl⟩ := List.length_eq_one_iff.1 hl
    obtain ⟨-, -, rfl⟩ := setPrimaryKey_single_iff.1 hk
    obtain ⟨htable, hcolumns⟩ :=
      h.updateColumn i (f := ({ · with primaryKey := true })) fun _ => rfl
    exact ⟨htable, hcolumns⟩
  · obtain ⟨-, -, rfl⟩ := (setPrimaryKey_list_iff hl).1 hk
    exact ⟨h.table, h.columns⟩

theorem addUnique (h : table.Named P) (hk : table.addUnique indices = .ok table') :
    table'.Named P := by
  by_cases hl : indices.length = 1
  · obtain ⟨i, rfl⟩ := List.length_eq_one_iff.1 hl
    cases hc : table.columns[i]? with
    | none =>
      rw [Table.addUnique] at hk
      split at hk
      · cases hk
      · rw [addUniqueColumn, hc] at hk
        cases hk
        exact h
    | some c =>
      obtain ⟨-, -, -, rfl⟩ := (addUnique_single_iff hc).1 hk
      exact h.updateColumn i fun _ => rfl
  · obtain ⟨-, -, rfl⟩ := (addUnique_list_iff hl).1 hk
    exact ⟨h.table, h.columns⟩

end Table.Named

namespace Definition

open SqliteSchema.Parser

variable {ts : List Token} {t : Token} {table : Table} {index : Nat} {P : String → Prop}

/-! ### Keys -/

theorem points_conflictClause : PointsInto ts conflictClause :=
  Points.lookAny.seq fun _ => .ite
    (fun _ => Points.advance.seq fun _ => Points.advance.seq fun _ =>
      Points.expectAnyKeyword.seq fun _ => .pure trivial)
    (fun _ => .pure trivial)

/-- Where a key is accepted, the parser returns the table that has it. -/
theorem points_acceptKey {V : Table → Prop} {indices : List Nat}
    {result : Except KeyConflict Table} (ht : t ∈ ts)
    (hV : ∀ table', result = .ok table' → V table') :
    Points ts [] V (acceptKey table indices t result) := by
  cases result with
  | ok table' => exact .pure (hV table' rfl)
  | error conflict => exact .failAt ht (by cases conflict <;> nofun)

theorem points_primaryKey (ht : t ∈ ts) (h : table.Named P) (indices : List Nat) :
    Points ts [] (Table.Named P) (primaryKey table indices t) :=
  points_acceptKey ht fun _ hk => h.setPrimaryKey hk

theorem points_uniqueKey (ht : t ∈ ts) (h : table.Named P) (indices : List Nat) :
    Points ts [] (Table.Named P) (uniqueKey table indices t) :=
  points_acceptKey ht fun _ hk => h.addUnique hk

theorem points_columnList (table : Table) (indexed : Bool) :
    PointsInto ts (columnList table indexed) := by
  have hlisted (listed : List Nat) : PointsInto ts (listedColumn table listed) := by
    refine Points.expectIdentifier.bind fun t ht => ?_
    split
    · exact .failAt ht nofun
    · exact .ite (fun _ => .failAt ht nofun) (fun _ => .pure trivial)
  have hcollation (column : Option Column) : PointsInto ts (columnCollation column) :=
    Points.eatKeyword.seq fun _ => .ite
      (fun _ => Points.collation.seq fun _ => .pure trivial) (fun _ => .pure trivial)
  have hoptions (column : Option Column) : PointsInto ts (indexOptions column) :=
    (hcollation column).seq fun _ => Points.eatAnyKeyword.seq fun _ => .pure trivial
  have hextend (listed : List Nat) : PointsInto ts (extendList table indexed listed) :=
    (hlisted listed).seq fun _ => .ite (fun _ => (hoptions _).seq fun _ => .pure trivial)
      (fun _ => .pure trivial)
  refine Points.expect.seq fun _ => (hextend _).seq fun _ => Points.seq
    (.loop (V := fun _ => True) (fun listed _ => Points.eat.seq fun _ => ?_) trivial) fun _ =>
    Points.expect.seq fun _ => .pure trivial
  exact .ite (fun _ => (hextend listed).seq fun _ => .pure fun _ _ => trivial)
    (fun _ => .pure nofun)

/-! ### Foreign keys -/

theorem points_onClause (actions : ReferentialActions) : PointsInto ts (onClause actions) := by
  have haction : PointsInto ts referentialAction := by
    refine Points.expectAnyKeyword.seq fun k => ?_
    split
    · refine Points.expectAnyKeyword.seq fun k => ?_
      split
      · exact .pure trivial
      · exact .pure trivial
    · exact .pure trivial
    · exact .pure trivial
    · exact Points.expectKeyword.seq fun _ => .pure trivial
  refine Points.expectAnyKeyword.seq fun k => ?_
  split
  · exact haction.seq fun _ => .pure trivial
  · exact haction.seq fun _ => .pure trivial

theorem points_deferrableClause : PointsInto ts deferrableClause :=
  Points.eatKeyword.seq fun _ => Points.advance.seq fun _ => Points.eatKeyword.seq fun _ => .ite
    (fun _ => Points.expectAnyKeyword.seq fun _ => .pure trivial) (fun _ => .pure trivial)

/-- The remark on `MATCH` is at that word, behind which one more token is read. -/
theorem points_referenceClause (actions : ReferentialActions) :
    PointsInto ts (referenceClause actions) := by
  refine Points.eatKeyword.seq fun _ => .ite
    (fun _ => (points_onClause actions).seq fun _ => .pure trivial)
    (fun _ => .acceptThen (fun t _ _ => ?_) ?_)
  · have hmatch : Points ts [t] (fun _ => True) (matchClause t) :=
      .requireNotes fun _ => .warn _ _
    exact hmatch.seq fun _ => .pure trivial
  · exact Points.lookAny.seq fun _ => .ite
      (fun _ => points_deferrableClause.seq fun _ => .pure trivial) (fun _ => .pure trivial)

/-- No foreign key is refused because the tokens ended. -/
theorem code_of_referencedKey {foreign : Table} {count : Nat} {listed : Option (List Nat)}
    {fault : Fault} (h : referencedKey foreign count listed = .error fault) :
    fault.code = .foreignKeyMismatch := by
  have hcolumns (listed : Option (List Nat)) (fault : Fault)
      (h : referencedColumns foreign count listed = .error fault) :
      fault.code = .foreignKeyMismatch := by
    unfold referencedColumns at h
    split at h
    · split at h <;> cases h
      rfl
    · split at h <;> cases h
      rfl
  unfold referencedKey at h
  cases hc : referencedColumns foreign count listed with
  | error fault' =>
    rw [hc] at h
    cases h
    exact hcolumns _ _ hc
  | ok indices =>
    rw [hc] at h
    change (if foreign.isUniqueBy indices = true then _ else _) = _ at h
    split at h <;> cases h
    rfl

/-- Behind `REFERENCES`: a foreign key on a table of the registry. -/
def foreignKey (registry : Registry) (columns : List Nat) : Parser ForeignKey := do
  let name ← expectIdentifier "a table name"
  match registry.find? name.unquoted with
  | none => fail (.atToken (.unknownReferencedTable name.unquoted) name)
  | some foreign =>
    let listed ← listedColumns foreign
    let actions ← loop referenceClause {}
    let key := referencedKey foreign columns.length listed
    let indices ← ofExcept (key.mapError (.atToken · name))
    return ⟨columns, foreign.id, indices, actions.onDelete, actions.onUpdate⟩

/-- A foreign key is read first, and then the table has it. -/
theorem references_eq (earlier : Registry) (table : Table) (columns : List Nat) :
    references earlier table columns = (do
      let key ← foreignKey (earlier.add table) columns
      return { table with foreignKeys := table.foreignKeys ++ [key] }) := by
  unfold references foreignKey
  rw [bind_assoc]
  congr 1
  funext name
  cases (earlier.add table).find? name.unquoted with
  | none => rfl
  | some foreign => simp only [bind_assoc, pure_bind]

theorem points_foreignKey (registry : Registry) (columns : List Nat) :
    PointsInto ts (foreignKey registry columns) := by
  refine Points.expectIdentifier.bind fun t ht => ?_
  split
  · exact .failAt ht nofun
  · next foreign _ =>
    have hlisted : PointsInto ts (listedColumns foreign) :=
      Points.lookAny.seq fun _ => .ite
        (fun _ => (points_columnList foreign false).seq fun _ => .pure trivial)
        (fun _ => .pure trivial)
    refine hlisted.seq fun listed => Points.seq
      (.loop (V := fun _ => True)
        (fun actions _ => (points_referenceClause actions).imp fun _ _ _ _ => trivial) trivial)
      fun actions => Points.seq (V := fun _ => True) (.ofExcept (fun e he => ?_) fun _ _ => trivial)
      fun _ => .pure trivial
    cases hk : referencedKey foreign columns.length listed with
    | ok indices =>
      rw [hk] at he
      cases he
    | error fault =>
      rw [hk] at he
      cases he
      exact .token _ ht (by rw [code_of_referencedKey hk]; nofun)

theorem points_references (earlier : Registry) (h : table.Named P) (columns : List Nat) :
    Points ts [] (Table.Named P) (references earlier table columns) := by
  rw [references_eq]
  exact (points_foreignKey _ _).seq fun _ => .pure ⟨h.table, h.columns⟩

/-! ### Columns -/

theorem points_constraintName : PointsInto ts constraintName :=
  Points.eatKeyword.seq fun _ => .ite
    (fun _ => Points.expectIdentifier.seq fun _ => .pure trivial) (fun _ => .pure trivial)

theorem points_generatedColumn : PointsInto ts generatedColumn :=
  Points.skipBalanced.seq fun _ => Points.eatAnyKeyword.seq fun _ => .pure trivial

theorem points_defaultValue (earlier : Registry) (table : Table) :
    PointsInto ts (defaultValue earlier table) := by
  have hexpression : PointsInto ts (defaultExpression earlier table) :=
    Points.expect.seq fun _ => (Expr.points_parse _ _).seq fun _ => Points.expect.seq fun _ =>
      .pure trivial
  refine Points.signedNumber.seq fun number => ?_
  cases number with
  | some number => exact .pure trivial
  | none =>
    refine Points.literalValue.seq fun literal => ?_
    cases literal with
    | some literal => exact .pure trivial
    | none =>
      exact Points.current.bind fun t ht => .ite (fun _ => hexpression) (fun _ => .unexpected ht)

theorem points_columnPrimaryKey (ht : t ∈ ts) (h : table.Named P) :
    Points ts [] (Table.Named P) (columnPrimaryKey table index t) := by
  have hincrement (table : Table) (h : table.Named P) :
      Points ts [] (Table.Named P) (autoIncrement table index) := by
    refine Points.accept.bind fun token htoken => ?_
    cases token with
    | none => exact .pure h
    | some token =>
      dsimp only
      split
      · exact .failAt (htoken token rfl).1 nofun
      · exact .pure (h.updateColumn index fun _ => rfl)
  exact Points.expectKeyword.seq fun _ => Points.eatAnyKeyword.seq fun _ =>
    points_conflictClause.seq fun _ => (points_primaryKey ht h _).bind hincrement

theorem points_columnConstraint (earlier : Registry) (ht : t ∈ ts) (h : table.Named P) :
    Points ts [] (Table.Named P) (columnConstraint earlier table index t) := by
  unfold columnConstraint
  split
  · exact Points.expectKeyword.seq fun _ => points_conflictClause.seq fun _ =>
      .pure (h.updateColumn index fun _ => rfl)
  · exact points_conflictClause.seq fun _ => .pure h
  · exact points_columnPrimaryKey ht h
  · exact points_conflictClause.seq fun _ => points_uniqueKey ht h _
  · exact Points.skipBalanced.seq fun _ => .pure h
  · exact (points_defaultValue _ _).seq fun _ => .pure h
  · exact Points.collation.seq fun _ => .pure (h.updateColumn index fun _ => rfl)
  · exact points_references _ h _
  · exact Points.expectKeyword.seq fun _ => Points.expectKeyword.seq fun _ =>
      points_generatedColumn.seq fun _ => .pure h
  · exact points_generatedColumn.seq fun _ => .pure h
  · exact .failAt ht nofun

theorem points_columnConstraints (earlier : Registry) (h : table.Named P) :
    Points ts [] (Table.Named P) (columnConstraints earlier index table) := by
  refine .loop (fun table h => Points.lookAny.seq fun _ => .ite (fun _ => ?_)
    (fun _ => .pure nofun)) h
  refine points_constraintName.seq fun _ => Points.advance.bind fun _ ht =>
    (points_columnConstraint _ ht h).bind fun _ h => .pure ?_
  rintro _ ⟨⟩
  exact h

/-- A check of a name fails at the name. -/
theorem points_mapError {α : Type} {check : Except Fault α} (ht : t ∈ ts)
    (h : ∀ fault, check = .error fault → fault.code ≠ .unexpectedEndOfInput) :
    PointsInto ts (ofExcept (check.mapError (.atToken · t))) := by
  refine .ofExcept (fun e he => ?_) fun _ _ => trivial
  cases check with
  | ok a => cases he
  | error fault =>
    cases he
    exact .token _ ht (h fault rfl)

theorem points_columnDefinition (hP : ∀ t ∈ ts, P (Name.output t.unquoted)) (earlier : Registry)
    (h : table.Named P) : Points ts [] (Table.Named P) (columnDefinition earlier table) := by
  refine Points.expectIdentifier.bind fun t ht => Points.seq
    (points_mapError ht fun fault hfault => ?_) fun _ => Points.typeName.seq fun _ =>
    points_columnConstraints _ (h.addColumn (hP t ht) _)
  unfold checkColumnName at hfault
  split at hfault
  · cases hfault
    nofun
  · split at hfault <;> cases hfault
    nofun

/-! ### Tables -/

theorem points_tableConstraint (earlier : Registry) (ht : t ∈ ts) (h : table.Named P) :
    Points ts [] (Table.Named P) (tableConstraint earlier table t) := by
  unfold tableConstraint
  split
  · exact Points.expectKeyword.seq fun _ => (points_columnList _ _).seq fun _ =>
      points_conflictClause.seq fun _ => points_primaryKey ht h _
  · exact (points_columnList _ _).seq fun _ => points_conflictClause.seq fun _ =>
      points_uniqueKey ht h _
  · exact Points.skipBalanced.seq fun _ => .pure h
  · exact Points.expectKeyword.seq fun _ => (points_columnList _ _).seq fun _ =>
      Points.expectKeyword.seq fun _ => points_references _ h _
  · exact .unexpected ht

theorem points_bodyItem (hP : ∀ t ∈ ts, P (Name.output t.unquoted)) (earlier : Registry)
    {body : Body} (h : body.table.Named P) :
    Points ts [] (fun body => body.table.Named P) (bodyItem earlier body) :=
  Points.current.bind fun _ hfirst => .ite
    (fun _ => points_constraintName.seq fun _ => Points.advance.bind fun _ ht =>
      (points_tableConstraint _ ht h).bind fun _ h => .pure h)
    (fun _ => .ite (fun _ => .failAt hfirst nofun)
      (fun _ => (points_columnDefinition hP _ h).bind fun _ h => .pure h))

/-- The items behind the first one, up to the closing parenthesis. -/
theorem points_moreItems (hP : ∀ t ∈ ts, P (Name.output t.unquoted)) (earlier : Registry)
    {body : Body} (h : body.table.Named P) :
    Points ts [] (fun body => body.table.Named P) (loop (fun body => do
      let separator ← require "',' or ')'" fun t => t.is "," || t.is ")"
      if separator.is ")" then return none else return some (← bodyItem earlier body)) body) := by
  refine .loop (V := fun body : Body => body.table.Named P)
    (fun _ h => Points.require.seq fun _ => ?_) h
  refine .ite (fun _ => .pure nofun) (fun _ => (points_bodyItem hP _ h).bind fun _ h => .pure ?_)
  rintro _ ⟨⟩
  exact h

theorem points_tableBody (hP : ∀ t ∈ ts, P (Name.output t.unquoted)) (earlier : Registry)
    (h : table.Named P) : Points ts [] (Table.Named P) (tableBody earlier table) := by
  have hbody : ({ table := table } : Body).table.Named P := h
  exact (points_bodyItem hP _ hbody).bind fun _ hfirst =>
    (points_moreItems hP _ hfirst).bind fun _ h => .pure h

/-- The tokens that open the options are of the list. -/
structure Options.PointsInto (ts : List Token) (options : Options) : Prop where
  withoutRowid : ∀ t, options.withoutRowid = some t → t ∈ ts
  strict : ∀ t, options.strict = some t → t ∈ ts

theorem Options.pointsInto_none : Options.PointsInto ts {} where
  withoutRowid _ h := by cases h
  strict _ h := by cases h

theorem points_tableOption {options : Options} (h : options.PointsInto ts) :
    Points ts [] (Options.PointsInto ts) (tableOption options) := by
  refine Points.advance.bind fun t ht => ?_
  have hsome : ∀ u, some t = some u → u ∈ ts := by
    rintro _ ⟨⟩
    exact ht
  split
  · exact Points.expectKeyword.seq fun _ => .ite (fun _ => .failAt ht nofun)
      (fun _ => .pure ⟨hsome, h.strict⟩)
  · exact .ite (fun _ => .failAt ht nofun) (fun _ => .pure ⟨h.withoutRowid, hsome⟩)
  · exact .unexpected ht

theorem points_tableOptions : Points ts [] (Options.PointsInto ts) tableOptions := by
  refine Points.lookAny.seq fun _ => .ite
    (fun _ => (points_tableOption Options.pointsInto_none).bind fun _ hfirst =>
      .loop (fun options hoptions => Points.eat.seq fun _ => ?_) hfirst)
    (fun _ => .pure Options.pointsInto_none)
  refine .ite (fun _ => (points_tableOption hoptions).bind fun _ hnext => .pure ?_)
    (fun _ => .pure nofun)
  rintro _ ⟨⟩
  exact hnext

theorem pointsInto_applyOptions {table : Table} {options : Options} {e : ParseError}
    (h : options.PointsInto ts) (he : applyOptions table options = .error e) :
    e.PointsInto ts := by
  have hrowid (e : ParseError) (he : applyWithoutRowid table options.withoutRowid = .error e) :
      e.PointsInto ts := by
    unfold applyWithoutRowid at he
    split at he
    · cases he
    · next hoption =>
      split at he <;> cases he
      exact .token _ (h.withoutRowid _ hoption) nofun
  unfold applyOptions at he
  cases ha : applyWithoutRowid table options.withoutRowid with
  | error e' =>
    rw [ha] at he
    cases he
    exact hrowid _ ha
  | ok table' =>
    rw [ha] at he
    change applyStrict table' options.strict = .error e at he
    unfold applyStrict at he
    split at he
    · cases he
    · next hoption =>
      split at he <;> cases he
      exact .token _ (h.strict _ hoption) nofun

theorem points_applyOptions (h : table.Named P) {options : Options} (ho : options.PointsInto ts) :
    Points ts [] (Table.Named P) (ofExcept (applyOptions table options)) := by
  refine .ofExcept (fun _ he => pointsInto_applyOptions ho he) fun _ hok => ?_
  obtain ⟨rfl, -⟩ := applyOptions_eq_ok hok
  exact ⟨h.table, h.columns⟩

theorem points_tableName (earlier : Registry) :
    Points ts [] (Table.NamedFrom ts) (tableName earlier) := by
  refine Points.expectIdentifier.bind fun t ht => Points.lookAny.seq fun _ => .ite
    (fun _ => .failAt ht nofun)
    (fun _ => Points.seq (points_mapError ht fun fault h => ?_) fun _ => .pure ?_)
  · unfold checkTableName at h
    split at h
    · cases h
      nofun
    · split at h <;> cases h
      nofun
  · exact ⟨⟨t, ht, rfl⟩, nofun⟩

theorem points_statementKeyword (k : Keyword) (expected : String) :
    PointsInto ts (statementKeyword k expected) :=
  Points.current.bind fun _ ht => .ite (fun _ => Points.advance.any) (fun _ => .failAt ht nofun)

theorem points_ifNotExists : PointsInto ts ifNotExists :=
  Points.eatKeyword.seq fun _ => .ite
    (fun _ => Points.expectKeyword.seq fun _ => Points.expectKeyword.seq fun _ => .pure trivial)
    (fun _ => .pure trivial)

theorem points_refuseAs : PointsInto ts refuseAs := by
  refine Points.peek.bind fun token htoken => ?_
  cases token with
  | none => exact .pure trivial
  | some token => exact .ite (fun _ => .failAt (htoken token rfl) nofun) (fun _ => .pure trivial)

theorem points_createTable (source : List Char) (earlier : Registry) :
    Points ts [] (Table.NamedFrom ts) (createTable source earlier) := by
  refine (points_statementKeyword _ _).seq fun _ => Points.eatAnyKeyword.seq fun temporary =>
    (points_statementKeyword _ _).seq fun _ => points_ifNotExists.seq fun _ =>
    (points_tableName _).bind fun table h => points_refuseAs.seq fun _ => Points.expect.seq fun _ =>
    ?_
  have hbody : { table with isTemporary := temporary.isSome }.NamedFrom ts := ⟨h.table, h.columns⟩
  refine (points_tableBody (fun t ht => ⟨t, ht, rfl⟩) _ hbody).bind fun table h =>
    points_tableOptions.bind fun options ho => (points_applyOptions h ho).bind fun table h =>
    Points.expect.seq fun semicolon => .pure ?_
  exact ⟨h.table, h.columns⟩

/-- Schemas point into their tokens, from which the tables that they add are named. -/
theorem points_tables (source : List Char) (registry : Registry) :
    Points ts [] (fun r => ∀ table ∈ r.tables, table ∈ registry.tables ∨ table.NamedFrom ts)
      (schema source registry) := by
  refine .loop (fun r hr => Points.lookAny.seq fun _ => .ite (fun _ => .pure nofun)
    (fun _ => Points.eat.seq fun _ => .ite (fun _ => .pure ?_) (fun _ => ?_)))
    fun _ h => .inl h
  · rintro _ ⟨⟩
    exact hr
  · refine (points_createTable _ _).bind fun table h => .pure ?_
    rintro _ ⟨⟩ table' htable'
    rcases List.mem_append.1 htable' with htable' | htable'
    · exact hr table' htable'
    · rw [List.mem_singleton.1 htable']
      exact .inr h

theorem points_schema (source : List Char) (registry : Registry) :
    PointsInto ts (schema source registry) :=
  (points_tables source registry).any

end Definition

end SqliteSchema
