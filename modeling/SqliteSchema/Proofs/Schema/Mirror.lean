import SqliteSchema.Proofs.Expr.Mirror
import SqliteSchema.Proofs.Schema.ReadStatement

/-!
Table definitions on tokens in other places. Everything between the first word of a statement and
its semicolon makes the same table, with the same warnings, wherever the statement stands and
whatever follows it, and whatever the texts and the foreign keys of the earlier tables are. Foreign
keys that the table itself has already are kept, so that two tables which differ in them are made
into two such tables.
-/
namespace SqliteSchema

/-- Tables that differ in their texts at most. -/
inductive Table.SameButText : Table → Table → Prop
  | intro (t : Table) (text : String) : SameButText t { t with createTableText := text }

theorem Table.SameButText.refl (t : Table) : t.SameButText t := .intro t t.createTableText

/-- Tables that differ in their texts and their foreign keys at most. -/
inductive Table.SameShape : Table → Table → Prop
  | intro (t : Table) (text : String) (keys : List ForeignKey) :
    SameShape t { t with createTableText := text, foreignKeys := keys }

theorem Table.SameShape.refl (t : Table) : t.SameShape t :=
  .intro t t.createTableText t.foreignKeys

theorem Table.SameButText.sameShape {t t' : Table} (h : t.SameButText t') : t.SameShape t' := by
  cases h with
  | intro text => exact .intro t text t.foreignKeys

/-- Tables that differ in their foreign keys at most, and these are related by `K`. -/
inductive Table.Rekeyed (K : List ForeignKey → List ForeignKey → Prop) : Table → Table → Prop
  | intro (t : Table) {keys : List ForeignKey} (h : K t.foreignKeys keys) :
    Rekeyed K t { t with foreignKeys := keys }

/-- A relation of foreign keys that new ones do not affect. -/
class Extensible (K : List ForeignKey → List ForeignKey → Prop) : Prop where
  append : ∀ {keys keys' : List ForeignKey} (key : ForeignKey), K keys keys' →
    K (keys ++ [key]) (keys' ++ [key])

instance : Extensible Eq := ⟨fun _ h => by rw [h]⟩

namespace Table.Rekeyed

variable {K : List ForeignKey → List ForeignKey → Prop} {t t' : Table}

theorem refl (t : Table) : Rekeyed Eq t t := .intro t rfl

theorem eq (h : Rekeyed Eq t t') : t = t' := by
  cases h with
  | intro h => rw [← h]

theorem sameShape (h : Rekeyed K t t') : t.SameShape t' := by
  cases h with
  | @intro keys h => exact .intro t t.createTableText keys

end Table.Rekeyed

/-- Registries of tables that differ in their texts at most. -/
def Registry.SameTables (r r' : Registry) : Prop :=
  List.Forall₂ Table.SameButText r.tables r'.tables

/-- Registries of tables that differ in their texts and their foreign keys at most. -/
def Registry.SameShapes (r r' : Registry) : Prop :=
  List.Forall₂ Table.SameShape r.tables r'.tables

namespace Registry.SameTables

variable {r r' : Registry} {t t' : Table}

theorem refl (r : Registry) : r.SameTables r := List.forall₂_same.2 fun t _ => .refl t

theorem add (h : r.SameTables r') (ht : t.SameButText t') : (r.add t).SameTables (r'.add t') :=
  List.rel_append h (.cons ht .nil)

theorem sameShapes (h : r.SameTables r') : r.SameShapes r' :=
  List.Forall₂.imp (fun _ _ ht => Table.SameButText.sameShape ht) h

end Registry.SameTables

namespace Registry.SameShapes

variable {r r' : Registry} {t t' : Table}

theorem refl (r : Registry) : r.SameShapes r := List.forall₂_same.2 fun t _ => .refl t

theorem add (h : r.SameShapes r') (ht : t.SameShape t') : (r.add t).SameShapes (r'.add t') :=
  List.rel_append h (.cons ht .nil)

theorem rel_find? (h : r.SameShapes r') {p : Table → Bool}
    (hp : ∀ t t', t.SameShape t' → p t = p t') :
    Option.Rel Table.SameShape (r.tables.find? p) (r'.tables.find? p) := by
  have h : List.Forall₂ Table.SameShape r.tables r'.tables := h
  generalize r.tables = tables, r'.tables = tables' at h
  induction h with
  | nil => exact .none
  | @cons t t' ts ts' ht _ ih =>
    rw [List.find?_cons, List.find?_cons, ← hp t t' ht]
    cases p t with
    | true => exact .some ht
    | false => exact ih

theorem find? (h : r.SameShapes r') (name : String) :
    Option.Rel Table.SameShape (r.find? name) (r'.find? name) :=
  h.rel_find? fun _ _ ht => by
    cases ht
    rfl

theorem isSome_find? (h : r.SameShapes r') (name : String) :
    (r.find? name).isSome = (r'.find? name).isSome := by
  have hfind := h.find? name
  generalize r.find? name = t, r'.find? name = t' at hfind
  cases hfind <;> rfl

theorem length_eq (h : r.SameShapes r') : r.tables.length = r'.tables.length :=
  List.Forall₂.length_eq h

end Registry.SameShapes

namespace Definition

open SqliteSchema.Parser

variable {earlier earlier' : Registry} {table table' : Table}
  {K : List ForeignKey → List ForeignKey → Prop}

/-- Errors that say the same. -/
theorem mirrors_fail {α : Type} {V : α → α → Prop} {e e' : ParseError} (h : e.Same e') :
    Mirrors .text V (fail e) (fail e') :=
  .fail (Comparison.sameError_text_iff.2 h)

theorem mirrors_typeName : Mirrors .text Eq typeName typeName := by
  apply Mirrors.typeName.imp
  rintro _ _ (⟨h⟩ | -)
  · rw [h trivial]
  · rfl

theorem mirrors_collation (affinity : Option Affinity) :
    Mirrors .text Eq (collation affinity) (collation affinity) :=
  Mirrors.collation.imp fun _ _ h => h.eq trivial

/-! ### Keys -/

theorem mirrors_conflictClause : Mirrors .text Eq conflictClause conflictClause := by
  refine .seq (.look fun ts ts' h => ?_) fun _ => .ite
    (Mirrors.advance.bind fun _ _ _ => Mirrors.advance.bind fun _ _ _ =>
      Mirrors.expectAnyKeyword.seq fun _ => .pure rfl)
    (.pure rfl)
  exact Mirrors.test_two (by simp) (by simp)
    (fun t ht => Token.isKeyword_semicolon ht .ON) h

/-- Results of adding a key to tables that differ in their foreign keys. -/
inductive SameKeyed (K : List ForeignKey → List ForeignKey → Prop) :
    Except KeyConflict Table → Except KeyConflict Table → Prop
  | ok {t t' : Table} (h : t.Rekeyed K t') : SameKeyed K (.ok t) (.ok t')
  | error (conflict : KeyConflict) : SameKeyed K (.error conflict) (.error conflict)

theorem sameKeyed_setPrimaryKey (ht : table.Rekeyed K table') (indices : List Nat) :
    SameKeyed K (table.setPrimaryKey indices) (table'.setPrimaryKey indices) := by
  cases ht with
  | intro hkeys =>
  unfold Table.setPrimaryKey
  change SameKeyed K _ (if table.hasPrimaryKey then _ else _)
  split
  · exact .error _
  split
  · dsimp only
    split
    · exact .error _
    · exact .ok (.intro _ hkeys)
  · change SameKeyed K _ (if table.hasUniqueSet indices then _ else _)
    split
    · exact .error _
    · exact .ok (.intro _ hkeys)

theorem sameKeyed_addUniqueColumn (ht : table.Rekeyed K table') (index : Nat) :
    SameKeyed K (table.addUniqueColumn index) (table'.addUniqueColumn index) := by
  cases ht with
  | intro hkeys =>
  unfold Table.addUniqueColumn
  dsimp only
  split
  · exact .ok (.intro _ hkeys)
  split
  · exact .error _
  split
  · exact .error _
  split
  · exact .error _
  · exact .ok (.intro _ hkeys)

theorem sameKeyed_addUnique (ht : table.Rekeyed K table') (indices : List Nat) :
    SameKeyed K (table.addUnique indices) (table'.addUnique indices) := by
  have hcolumn (index : Nat) := sameKeyed_addUniqueColumn ht index
  cases ht with
  | intro hkeys =>
  unfold Table.addUnique
  dsimp only
  split
  · exact .error _
  split
  · exact hcolumn _
  · change SameKeyed K (if table.hasUniqueSet indices then _ else _)
      (if table.hasUniqueSet indices then _ else _)
    split
    · exact .error _
    · exact .ok (.intro _ hkeys)

theorem mirrors_acceptKey (ht : table.Rekeyed K table') (indices : List Nat) (t t' : Token)
    {result result' : Except KeyConflict Table} (h : SameKeyed K result result') :
    Mirrors .text (Table.Rekeyed K) (acceptKey table indices t result)
      (acceptKey table' indices t' result') := by
  cases h with
  | error conflict =>
    cases ht
    exact mirrors_fail ⟨rfl, rfl⟩
  | ok h => exact .pure h

theorem mirrors_columnCollation (column : Option Column) :
    Mirrors .text Eq (columnCollation column) (columnCollation column) :=
  Mirrors.eatKeyword.seq fun _ => .ite ((mirrors_collation _).seq fun _ => .pure rfl) (.pure rfl)

theorem mirrors_indexOptions (column : Option Column) :
    Mirrors .text Eq (indexOptions column) (indexOptions column) :=
  (mirrors_columnCollation column).seq fun _ => Mirrors.eatAnyKeyword.seq fun _ => .pure rfl

theorem mirrors_listedColumn (table : Table) (listed : List Nat) :
    Mirrors .text Eq (listedColumn table listed) (listedColumn table listed) := by
  refine Mirrors.expectIdentifier.bind fun t t' ht => ?_
  cases Comparison.like_text_iff.1 ht with
  | intro v k p q =>
  have hname : (⟨v, k, q⟩ : Token).unquoted = (⟨v, k, p⟩ : Token).unquoted := rfl
  rw [hname]
  split
  · exact mirrors_fail ⟨rfl, rfl⟩
  · exact .ite (mirrors_fail ⟨rfl, rfl⟩) (.pure rfl)

theorem mirrors_extendList (table : Table) (indexed : Bool) (listed : List Nat) :
    Mirrors .text Eq (extendList table indexed listed) (extendList table indexed listed) :=
  (mirrors_listedColumn table listed).seq fun _ => .ite
    ((mirrors_indexOptions _).seq fun _ => .pure rfl) (.pure rfl)

theorem mirrors_columnList (table : Table) (indexed : Bool) :
    Mirrors .text Eq (columnList table indexed) (columnList table indexed) := by
  refine Mirrors.expect.bind fun _ _ _ => (mirrors_extendList _ _ _).seq fun first => .seq
    (.loop (fun a a' ha => Mirrors.eat.seq fun _ => ?_) rfl) fun _ =>
    Mirrors.expect.bind fun _ _ _ => .pure rfl
  subst ha
  exact .ite ((mirrors_extendList _ _ _).seq fun _ => .pure (.some rfl)) (.pure .none)

/-! ### Foreign keys -/

theorem mirrors_referentialAction : Mirrors .text Eq referentialAction referentialAction := by
  refine Mirrors.expectAnyKeyword.seq fun k => ?_
  split
  · refine Mirrors.expectAnyKeyword.seq fun k => ?_
    split <;> exact .pure rfl
  · exact .pure rfl
  · exact .pure rfl
  · exact Mirrors.expectKeyword.bind fun _ _ _ => .pure rfl

theorem mirrors_onClause (actions : ReferentialActions) :
    Mirrors .text Eq (onClause actions) (onClause actions) := by
  refine Mirrors.expectAnyKeyword.seq fun k => ?_
  split <;> exact mirrors_referentialAction.seq fun _ => .pure rfl

theorem mirrors_matchClause {t t' : Token} (ht : Comparison.text.Like t t') :
    Mirrors .text Eq (matchClause t) (matchClause t') := by
  refine Mirrors.expectIdentifier.bind fun u u' hu => ?_
  cases Comparison.like_text_iff.1 hu
  exact Mirrors.warn (.atToken (fun _ => rfl) ht)

theorem mirrors_deferrableClause : Mirrors .text Eq deferrableClause deferrableClause :=
  Mirrors.eatKeyword.seq fun _ => Mirrors.advance.bind fun _ _ _ => Mirrors.eatKeyword.seq fun _ =>
    .ite (Mirrors.expectAnyKeyword.seq fun _ => .pure rfl) (.pure rfl)

theorem mirrors_startsDeferrable :
    Mirrors .text Eq (look startsDeferrable) (look startsDeferrable) := by
  refine .look fun ts ts' h => ?_
  have hfirst := Mirrors.test_head (f := (·.isKeyword .DEFERRABLE)) (by simp) h
  have hsecond := Mirrors.test_two (f := (·.isKeyword .NOT)) (g := (·.isKeyword .DEFERRABLE))
    (by simp) (by simp) (fun t ht => Token.isKeyword_semicolon ht .NOT) h
  rw [List.head?_eq_getElem?, List.head?_eq_getElem?] at hfirst
  rw [startsDeferrable, startsDeferrable, hfirst, hsecond]

theorem mirrors_referenceClause (actions : ReferentialActions) :
    Mirrors .text (Option.Rel Eq) (referenceClause actions) (referenceClause actions) := by
  refine Mirrors.eatKeyword.seq fun _ => .ite
    ((mirrors_onClause actions).seq fun _ => .pure (.some rfl))
    ((Mirrors.accept (by simp)).bind fun t t' ht => ?_)
  cases ht with
  | some ht => exact (mirrors_matchClause ht).seq fun _ => .pure (.some rfl)
  | none =>
    exact mirrors_startsDeferrable.seq fun _ => .ite
      (mirrors_deferrableClause.seq fun _ => .pure (.some rfl)) (.pure .none)

theorem mirrors_listedColumns (foreign : Table) :
    Mirrors .text Eq (listedColumns foreign) (listedColumns foreign) :=
  (Mirrors.test (by simp)).seq fun _ => .ite
    ((mirrors_columnList _ _).seq fun _ => .pure rfl) (.pure rfl)

theorem mirrors_references [Extensible K] (h : earlier.SameShapes earlier')
    (ht : table.Rekeyed K table') (columns : List Nat) :
    Mirrors .text (Table.Rekeyed K) (references earlier table columns)
      (references earlier' table' columns) := by
  refine Mirrors.expectIdentifier.bind fun t t' htoken => ?_
  have hfind := (h.add ht.sameShape).find? t.unquoted
  rw [← htoken.unquoted.eq trivial]
  generalize (earlier.add table).find? t.unquoted = foreign,
    (earlier'.add table').find? t.unquoted = foreign' at hfind
  cases hfind with
  | none => exact .fail (.atToken rfl (fun _ => rfl) htoken)
  | some hforeign =>
    cases hforeign
    cases ht with
    | intro hkeys =>
    refine (mirrors_listedColumns _).seq fun listed => .seq
      (.loop (fun a a' ha => ?_) rfl) fun actions =>
      (Mirrors.ofExcept (sameResult_atToken _ htoken)).seq fun _ =>
      .pure (.intro _ (Extensible.append _ hkeys))
    subst ha
    exact mirrors_referenceClause a

/-! ### Columns -/

theorem mirrors_constraintName : Mirrors .text Eq constraintName constraintName :=
  Mirrors.eatKeyword.seq fun _ => .ite
    (Mirrors.expectIdentifier.bind fun _ _ _ => .pure rfl) (.pure rfl)

theorem mirrors_generatedColumn : Mirrors .text Eq generatedColumn generatedColumn :=
  Mirrors.skipBalanced.bind fun _ _ _ => Mirrors.eatAnyKeyword.seq fun _ => .pure rfl

/-- Expressions do not read the texts and the foreign keys of tables. -/
theorem sameContext_table (h : earlier.SameShapes earlier') (ht : table.Rekeyed K table') :
    Expr.SameContext .text ⟨earlier, .table table⟩ ⟨earlier', .table table'⟩ := by
  have hfind {name name' : String} (hname : Comparison.text.Spelled name name') :
      Option.Rel Table.SameShape (earlier.find? name) (earlier'.find? name') := by
    rw [← hname.eq trivial]
    exact h.find? name
  constructor
  · intro name name' hname
    rw [← hname.eq trivial]
    exact h.isSome_find? name
  · rintro ⟨qualifier, column⟩ ⟨qualifier', column'⟩ hr
    have hqualifier := hr.table
    dsimp only at hqualifier
    cases ht
    cases hqualifier with
    | none => exact Expr.sameResult_requireColumn table hr
    | @some t t' ht =>
      have howner := hfind ht.unquoted
      unfold Scope.check
      dsimp only
      generalize earlier.find? t.unquoted = owner, earlier'.find? t'.unquoted = owner' at howner
      cases howner with
      | none => exact .error (.atToken rfl (fun hv => by rw [ht.unquoted.eq hv]) ht)
      | some howner =>
        cases howner
        exact Expr.sameResult_requireColumn _ hr

theorem mirrors_defaultExpression (h : earlier.SameShapes earlier')
    (ht : table.Rekeyed K table') :
    Mirrors .text Eq (defaultExpression earlier table) (defaultExpression earlier' table') :=
  Mirrors.expect.bind fun _ _ _ =>
    (Expr.mirrors_parse (sameContext_table (h.add ht.sameShape) ht) _).bind fun _ _ _ =>
    Mirrors.expect.bind fun _ _ _ => .pure rfl

theorem mirrors_defaultValue (h : earlier.SameShapes earlier') (ht : table.Rekeyed K table') :
    Mirrors .text Eq (defaultValue earlier table) (defaultValue earlier' table') := by
  refine Mirrors.signedNumber.seq fun number => ?_
  cases number with
  | some number => exact .pure rfl
  | none =>
    refine Mirrors.literalValue.bind fun literal literal' hl => ?_
    cases hl with
    | some => exact .pure rfl
    | none =>
      refine Mirrors.current.bind fun t t' htoken => ?_
      rw [← htoken.is "("]
      exact .ite (mirrors_defaultExpression h ht) (.fail (.unexpected htoken))

theorem mirrors_autoIncrement (ht : table.Rekeyed K table') (index : Nat) :
    Mirrors .text (Table.Rekeyed K) (autoIncrement table index) (autoIncrement table' index) := by
  refine (Mirrors.accept (by simp)).bind fun t t' htoken => ?_
  cases htoken with
  | none => exact .pure ht
  | some htoken =>
    cases ht with
    | intro hkeys =>
    dsimp only
    split
    · exact mirrors_fail ⟨rfl, rfl⟩
    · exact .pure (.intro _ hkeys)

theorem mirrors_columnPrimaryKey (ht : table.Rekeyed K table') (index : Nat) (t t' : Token) :
    Mirrors .text (Table.Rekeyed K) (columnPrimaryKey table index t)
      (columnPrimaryKey table' index t') :=
  Mirrors.expectKeyword.bind fun _ _ _ => Mirrors.eatAnyKeyword.seq fun _ =>
    mirrors_conflictClause.seq fun _ =>
    (mirrors_acceptKey ht _ _ _ (sameKeyed_setPrimaryKey ht _)).bind fun _ _ ht =>
    mirrors_autoIncrement ht index

theorem rekeyed_updateColumn (ht : table.Rekeyed K table') (index : Nat) (f : Column → Column) :
    (table.updateColumn index f).Rekeyed K (table'.updateColumn index f) := by
  cases ht with
  | intro hkeys => exact .intro _ hkeys

theorem mirrors_columnConstraint [Extensible K] (h : earlier.SameShapes earlier')
    (ht : table.Rekeyed K table') (index : Nat) {t t' : Token}
    (htoken : Comparison.text.Like t t') :
    Mirrors .text (Table.Rekeyed K) (columnConstraint earlier table index t)
      (columnConstraint earlier' table' index t') := by
  have hcolumns : table'.columns = table.columns := by
    cases ht
    rfl
  cases Comparison.like_text_iff.1 htoken with
  | intro v k p q =>
  have hkeyword : (⟨v, k, q⟩ : Token).keyword = (⟨v, k, p⟩ : Token).keyword := rfl
  unfold columnConstraint columnName
  rw [hkeyword, hcolumns]
  split
  · exact Mirrors.expectKeyword.bind fun _ _ _ => mirrors_conflictClause.seq fun _ =>
      .pure (rekeyed_updateColumn ht _ _)
  · exact mirrors_conflictClause.seq fun _ => .pure ht
  · exact mirrors_columnPrimaryKey ht _ _ _
  · exact mirrors_conflictClause.seq fun _ =>
      mirrors_acceptKey ht _ _ _ (sameKeyed_addUnique ht _)
  · exact Mirrors.skipBalanced.bind fun _ _ _ => .pure ht
  · exact (mirrors_defaultValue h ht).seq fun _ => .pure ht
  · exact (mirrors_collation _).seq fun _ => .pure (rekeyed_updateColumn ht _ _)
  · exact mirrors_references h ht _
  · exact Mirrors.expectKeyword.bind fun _ _ _ => Mirrors.expectKeyword.bind fun _ _ _ =>
      mirrors_generatedColumn.seq fun _ => .pure ht
  · exact mirrors_generatedColumn.seq fun _ => .pure ht
  · exact mirrors_fail ⟨rfl, rfl⟩

/-- A round of `columnConstraints`. -/
def clauseRound (earlier : Registry) (index : Nat) (table : Table) : Parser (Option Table) := do
  if ← look (·.head?.any fun t => !t.is "," && !t.is ")") then
    constraintName
    let token ← advance "a column constraint"
    return some (← columnConstraint earlier table index token)
  else return none

theorem columnConstraints_eq (earlier : Registry) (index : Nat) (table : Table) :
    columnConstraints earlier index table = loop (clauseRound earlier index) table := rfl

theorem mirrors_clauseRound [Extensible K] (h : earlier.SameShapes earlier')
    (ht : table.Rekeyed K table') (index : Nat) :
    Mirrors .text (Option.Rel (Table.Rekeyed K)) (clauseRound earlier index table)
      (clauseRound earlier' index table') :=
  (Mirrors.test (by simp)).seq fun _ => .ite
    (mirrors_constraintName.seq fun _ => Mirrors.advance.bind fun _ _ htoken =>
      (mirrors_columnConstraint h ht index htoken).bind fun _ _ ht => .pure (.some ht))
    (.pure .none)

theorem mirrors_columnConstraints [Extensible K] (h : earlier.SameShapes earlier') (index : Nat)
    (ht : table.Rekeyed K table') :
    Mirrors .text (Table.Rekeyed K) (columnConstraints earlier index table)
      (columnConstraints earlier' index table') :=
  .loop (fun _ _ ht => mirrors_clauseRound h ht index) ht

/-- A column without its constraints. -/
def columnHead (table : Table) : Parser Table := do
  let token ← expectIdentifier "a column name"
  ofExcept ((checkColumnName table token.unquoted).mapError (.atToken · token))
  return table.addColumn token.unquoted ((← typeName).getD "")

theorem columnDefinition_eq (earlier : Registry) (table : Table) :
    columnDefinition earlier table =
      columnHead table >>= columnConstraints earlier table.columns.length := by
  simp only [columnHead, bind_assoc, pure_bind]
  rfl

theorem mirrors_columnHead (ht : table.Rekeyed K table') :
    Mirrors .text (Table.Rekeyed K) (columnHead table) (columnHead table') := by
  refine Mirrors.expectIdentifier.bind fun t t' htoken => ?_
  rw [← htoken.unquoted.eq trivial]
  cases ht with
  | intro hkeys =>
  exact (Mirrors.ofExcept (sameResult_atToken _ htoken)).seq fun _ => mirrors_typeName.seq fun _ =>
    .pure (.intro _ hkeys)

theorem mirrors_columnDefinition [Extensible K] (h : earlier.SameShapes earlier')
    (ht : table.Rekeyed K table') :
    Mirrors .text (Table.Rekeyed K) (columnDefinition earlier table)
      (columnDefinition earlier' table') := by
  have hlength : table'.columns.length = table.columns.length := by
    cases ht
    rfl
  rw [columnDefinition_eq, columnDefinition_eq, hlength]
  exact (mirrors_columnHead ht).bind fun _ _ ht => mirrors_columnConstraints h _ ht

/-! ### Tables -/

theorem mirrors_tableConstraint [Extensible K] (h : earlier.SameShapes earlier')
    (ht : table.Rekeyed K table') {t t' : Token} (htoken : Comparison.text.Like t t') :
    Mirrors .text (Table.Rekeyed K) (tableConstraint earlier table t)
      (tableConstraint earlier' table' t') := by
  have hlist (indexed : Bool) : columnList table' indexed = columnList table indexed := by
    cases ht
    rfl
  cases Comparison.like_text_iff.1 htoken with
  | intro v k p q =>
  have hkeyword : (⟨v, k, q⟩ : Token).keyword = (⟨v, k, p⟩ : Token).keyword := rfl
  unfold tableConstraint
  rw [hkeyword, hlist, hlist]
  split
  · exact Mirrors.expectKeyword.bind fun _ _ _ => (mirrors_columnList _ _).seq fun _ =>
      mirrors_conflictClause.seq fun _ =>
      mirrors_acceptKey ht _ _ _ (sameKeyed_setPrimaryKey ht _)
  · exact (mirrors_columnList _ _).seq fun _ => mirrors_conflictClause.seq fun _ =>
      mirrors_acceptKey ht _ _ _ (sameKeyed_addUnique ht _)
  · exact Mirrors.skipBalanced.bind fun _ _ _ => .pure ht
  · exact Mirrors.expectKeyword.bind fun _ _ _ => (mirrors_columnList _ _).seq fun _ =>
      Mirrors.expectKeyword.bind fun _ _ _ => mirrors_references h ht _
  · exact mirrors_fail ⟨rfl, rfl⟩

/-- Bodies whose tables differ in their foreign keys at most. -/
structure Body.Rekeyed (K : List ForeignKey → List ForeignKey → Prop) (body body' : Body) : Prop where
  table : body.table.Rekeyed K body'.table
  constrained : body.constrained = body'.constrained

theorem Body.Rekeyed.eq {body body' : Body} (h : body.Rekeyed Eq body') : body = body' := by
  obtain ⟨table, constrained⟩ := body
  obtain ⟨table', constrained'⟩ := body'
  cases h.table.eq
  cases h.constrained
  rfl

theorem mirrors_bodyItem [Extensible K] (h : earlier.SameShapes earlier') {body body' : Body}
    (hbody : body.Rekeyed K body') :
    Mirrors .text (Body.Rekeyed K) (bodyItem earlier body) (bodyItem earlier' body') := by
  refine Mirrors.current.bind fun t t' htoken => ?_
  cases Comparison.like_text_iff.1 htoken with
  | intro v k p q =>
  refine .ite
    (mirrors_constraintName.seq fun _ => Mirrors.advance.bind fun _ _ htoken =>
      (mirrors_tableConstraint h hbody.table htoken).bind fun _ _ ht => .pure ⟨ht, rfl⟩) ?_
  rw [hbody.constrained]
  exact .ite (mirrors_fail ⟨rfl, rfl⟩)
    ((mirrors_columnDefinition h hbody.table).bind fun _ _ ht => .pure ⟨ht, rfl⟩)

/-- A round of `tableBody`. -/
def bodyRound (earlier : Registry) (body : Body) : Parser (Option Body) := do
  let separator ← require "',' or ')'" fun t => t.is "," || t.is ")"
  if separator.is ")" then return none else return some (← bodyItem earlier body)

theorem mirrors_bodyRound [Extensible K] (h : earlier.SameShapes earlier') {body body' : Body}
    (hbody : body.Rekeyed K body') :
    Mirrors .text (Option.Rel (Body.Rekeyed K)) (bodyRound earlier body)
      (bodyRound earlier' body') := by
  refine (Mirrors.require (by simp)).bind fun t t' htoken => ?_
  rw [← htoken.is ")"]
  exact .ite (.pure .none) ((mirrors_bodyItem h hbody).bind fun _ _ hbody => .pure (.some hbody))

theorem mirrors_tableBody [Extensible K] (h : earlier.SameShapes earlier')
    (ht : table.Rekeyed K table') :
    Mirrors .text (Table.Rekeyed K) (tableBody earlier table) (tableBody earlier' table') := by
  have hbody : Body.Rekeyed K { table := table } { table := table' } := ⟨ht, rfl⟩
  exact (mirrors_bodyItem h hbody).bind fun _ _ hfirst =>
    .bind (.loop (fun _ _ hbody => mirrors_bodyRound h hbody) hfirst) fun _ _ hbody =>
    .pure hbody.table

/-- Options that differ in the places of their tokens at most. -/
structure SameOptions (o o' : Options) : Prop where
  withoutRowid : Option.Rel Comparison.text.Like o.withoutRowid o'.withoutRowid
  strict : Option.Rel Comparison.text.Like o.strict o'.strict

theorem mirrors_tableOption {o o' : Options} (h : SameOptions o o') :
    Mirrors .text SameOptions (tableOption o) (tableOption o') := by
  have hisSome {a b : Option Token} (hab : Option.Rel Comparison.text.Like a b) :
      b.isSome = a.isSome := by
    cases hab <;> rfl
  refine Mirrors.advance.bind fun t t' ht => ?_
  have hsome : Option.Rel Comparison.text.Like (some t) (some t') := .some ht
  cases Comparison.like_text_iff.1 ht with
  | intro v k p q =>
  have hkeyword : (⟨v, k, q⟩ : Token).keyword = (⟨v, k, p⟩ : Token).keyword := rfl
  rw [hkeyword]
  split
  · rw [hisSome h.withoutRowid]
    exact Mirrors.expectKeyword.bind fun _ _ _ => .ite (mirrors_fail ⟨rfl, rfl⟩)
      (.pure ⟨hsome, h.strict⟩)
  · rw [hisSome h.strict]
    exact .ite (mirrors_fail ⟨rfl, rfl⟩) (.pure ⟨h.withoutRowid, hsome⟩)
  · exact mirrors_fail ⟨rfl, rfl⟩

theorem mirrors_tableOptions : Mirrors .text SameOptions tableOptions tableOptions := by
  refine (Mirrors.test (by simp)).seq fun _ => .ite
    ((mirrors_tableOption ⟨.none, .none⟩).bind fun o o' ho => .loop
      (fun o o' ho => Mirrors.eat.seq fun _ => ?_) ho)
    (.pure ⟨.none, .none⟩)
  exact .ite ((mirrors_tableOption ho).bind fun _ _ ho => .pure (.some ho)) (.pure .none)

theorem sameResult_applyOptions (ht : table.Rekeyed K table') {o o' : Options}
    (h : SameOptions o o') :
    SameResult .text (Table.Rekeyed K) (applyOptions table o) (applyOptions table' o') := by
  obtain ⟨withoutRowid, strict⟩ := o
  obtain ⟨withoutRowid', strict'⟩ := o'
  obtain ⟨hrowid, hstrict⟩ := h
  refine .bind (V := Table.Rekeyed K) (f := (applyStrict · strict)) (g := (applyStrict · strict'))
    ?_ fun table table' ht => ?_
  · cases ht with
    | intro hkeys =>
    cases hrowid with
    | none => exact .ok (.intro _ hkeys)
    | some htoken =>
      unfold applyWithoutRowid
      dsimp only
      change SameResult .text _ _ (if table.hasPrimaryKey then _ else _)
      split
      · exact .ok (.intro _ hkeys)
      · exact .error (.atToken rfl (fun _ => rfl) htoken)
  · cases ht with
    | intro hkeys =>
    cases hstrict with
    | none => exact .ok (.intro _ hkeys)
    | some htoken =>
      unfold applyStrict
      dsimp only
      cases table.columns.find? fun c => !isStrictType c.sqlType with
      | none => exact .ok (.intro _ hkeys)
      | some c => exact .error (.atToken rfl (fun _ => rfl) htoken)

/-- Whether a name is taken does not hang on the texts and the foreign keys of the tables. -/
theorem checkTableName_congr (h : earlier.SameShapes earlier') (name : String) :
    checkTableName earlier name = checkTableName earlier' name := by
  have houtput : Option.Rel Table.SameShape (earlier.findOutput? (Name.output name))
      (earlier'.findOutput? (Name.output name)) :=
    h.rel_find? fun _ _ ht => by
      cases ht
      rfl
  unfold checkTableName
  rw [h.isSome_find?]
  generalize earlier.findOutput? (Name.output name) = other,
    earlier'.findOutput? (Name.output name) = other' at houtput
  cases houtput with
  | none => rfl
  | some hother =>
    cases hother
    rfl

theorem mirrors_tableName (h : earlier.SameShapes earlier') :
    Mirrors .text Eq (tableName earlier) (tableName earlier') := by
  refine Mirrors.expectIdentifier.bind fun t t' ht => Mirrors.check.seq fun _ => ?_
  rw [← ht.unquoted.eq trivial, checkTableName_congr h, Registry.newTable, h.length_eq]
  exact .ite (.fail (.atToken rfl (fun _ => rfl) ht))
    ((Mirrors.ofExcept (sameResult_atToken _ ht)).seq fun _ => .pure rfl)

theorem mirrors_statementKeyword (k : Keyword) (expected : String) :
    Mirrors .text Comparison.text.Like (statementKeyword k expected)
      (statementKeyword k expected) := by
  refine Mirrors.current.bind fun t t' ht => ?_
  cases Comparison.like_text_iff.1 ht with
  | intro v k p q => exact .ite Mirrors.advance (mirrors_fail ⟨rfl, rfl⟩)

theorem mirrors_ifNotExists : Mirrors .text Eq ifNotExists ifNotExists :=
  Mirrors.eatKeyword.seq fun _ => .ite
    (Mirrors.expectKeyword.bind fun _ _ _ => Mirrors.expectKeyword.bind fun _ _ _ => .pure rfl)
    (.pure rfl)

theorem mirrors_refuseAs : Mirrors .text Eq refuseAs refuseAs := by
  refine Mirrors.peek.bind fun t t' ht => ?_
  cases ht with
  | none => exact .pure rfl
  | some ht =>
    dsimp only
    rw [ht.congr (f := (·.isKeyword .AS)) (by simp)]
    exact .ite (.fail (.atToken rfl (fun _ => rfl) ht)) (.pure rfl)

theorem mirrors_tableDefinition (h : earlier.SameShapes earlier') :
    Mirrors .text Eq (tableDefinition earlier) (tableDefinition earlier') := by
  refine .imp (V := Table.Rekeyed Eq) ?_ fun _ _ ht => ht.eq
  exact Mirrors.eatAnyKeyword.seq fun _ => (mirrors_statementKeyword _ _).bind fun _ _ _ =>
    mirrors_ifNotExists.seq fun _ => (mirrors_tableName h).seq fun _ =>
    mirrors_refuseAs.seq fun _ => Mirrors.expect.bind fun _ _ _ =>
    (mirrors_tableBody h (.refl _)).bind fun _ _ ht => mirrors_tableOptions.bind fun _ _ ho =>
    Mirrors.ofExcept (sameResult_applyOptions ht ho)

/-- The source is read for the texts of the tables only. -/
theorem mirrors_createTable (source source' : List Char) (h : earlier.SameShapes earlier') :
    Mirrors .text Table.SameButText (createTable source earlier)
      (createTable source' earlier') := by
  rw [createTable_eq, createTable_eq]
  exact (mirrors_statementKeyword _ _).bind fun _ _ _ => (mirrors_tableDefinition h).seq fun _ =>
    Mirrors.expect.bind fun _ _ _ => .pure (.intro _ _)

/-- A round of `schema`. -/
def schemaRound (source : List Char) (registry : Registry) : Parser (Option Registry) := do
  if ← look List.isEmpty then return none
  else if ← eat ";" then return some registry
  else return some (registry.add (← createTable source registry))

theorem mirrors_schemaRound (source source' : List Char) {V : Registry → Registry → Prop}
    (hshapes : ∀ r r', V r r' → r.SameShapes r')
    (hadd : ∀ r r' t t', V r r' → Table.SameButText t t' → V (r.add t) (r'.add t'))
    (h : V earlier earlier') :
    Mirrors .text (Option.Rel V) (schemaRound source earlier) (schemaRound source' earlier') := by
  have hend : Mirrors .text Eq (look List.isEmpty) (look List.isEmpty) :=
    .look fun ts ts' hts => by cases hts <;> rfl
  exact hend.seq fun _ => .ite (.pure .none) (Mirrors.eat.seq fun _ => .ite (.pure (.some h))
    ((mirrors_createTable source source' (hshapes _ _ h)).bind fun _ _ ht =>
      .pure (.some (hadd _ _ _ _ h ht))))

/-- What stays the same of the registry when a schema adds its tables. -/
theorem mirrors_schema_of (source source' : List Char) {V : Registry → Registry → Prop}
    (hshapes : ∀ r r', V r r' → r.SameShapes r')
    (hadd : ∀ r r' t t', V r r' → Table.SameButText t t' → V (r.add t) (r'.add t'))
    (h : V earlier earlier') :
    Mirrors .text V (schema source earlier) (schema source' earlier') :=
  .loop (fun _ _ hr => mirrors_schemaRound source source' hshapes hadd hr) h

theorem mirrors_schema (source source' : List Char) (h : earlier.SameTables earlier') :
    Mirrors .text Registry.SameTables (schema source earlier) (schema source' earlier') :=
  mirrors_schema_of source source' (fun _ _ hr => Registry.SameTables.sameShapes hr)
    (fun _ _ _ _ hr ht => Registry.SameTables.add hr ht) h

end Definition

end SqliteSchema
