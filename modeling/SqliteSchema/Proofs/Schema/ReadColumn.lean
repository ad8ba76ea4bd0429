import SqliteSchema.Proofs.Parser.TypeName
import SqliteSchema.Proofs.Schema.Print

/-!
Printed column definitions are read back. A column that has its constraints in its definition keeps
all but the keys that the table prints for it.
-/
namespace SqliteSchema

/-- The column as its definition says. -/
def Column.declared (c : Column) : Column :=
  { c with unique := false, primaryKey := c.autoIncrement }

theorem Column.declared_eq {c : Column} {i : Nat} (ht : c.table = i)
    (ho : c.outputName = Name.output c.sqlName) (ha : c.affinity = .ofDeclaredType c.sqlType) :
    c.declared = { declare i c.sqlName c.sqlType with
      notNull := c.notNull
      collation := c.collation
      primaryKey := c.autoIncrement
      autoIncrement := c.autoIncrement } := by
  simp only [declared, declare, ← ht, ← ho, ← ha]

/-- What is remarked on the name of a collation. -/
def unknownNotes (name : String) : List Parser.Note :=
  if Parser.builtinCollations.any (sameName · name) then []
  else [(.unknownCollation, s!"Unknown collation '{name}'")]

/-- What is remarked on a collation of values that are no text. -/
def notTextNotes (name : String) (affinity : Affinity) : List Parser.Note :=
  if affinity = .text then []
  else [(.collateOnNonText,
    s!"COLLATE {name} applied to a column with {affinity.display} affinity")]

/-- What is remarked on the definition of a column. -/
def Column.notes (c : Column) : List Parser.Note :=
  c.collation.elim [] fun name => unknownNotes name ++ notTextNotes name c.affinity

def Table.notes (t : Table) : List Parser.Note := t.columns.flatMap (·.notes)

namespace Table

/-- The table with one column more. -/
def withColumn (t : Table) (c : Column) : Table := { t with columns := t.columns ++ [c] }

/-- The table behind the definition of a column, which may have the key. -/
def declare (t : Table) (c : Column) : Table :=
  { t.withColumn c with
    primaryKey := if c.autoIncrement then [t.columns.length] else t.primaryKey }

@[simp] theorem updateColumn_withColumn (t : Table) (c : Column) (f : Column → Column) :
    (t.withColumn c).updateColumn t.columns.length f = t.withColumn (f c) := by
  have hlt : t.columns.length < (t.columns ++ [c]).length := by simp
  rw [updateColumn, withColumn, List.modify_eq_take_cons_drop hlt]
  simp [withColumn]

@[simp] theorem getElem?_withColumn (t : Table) (c : Column) :
    (t.withColumn c).columns[t.columns.length]? = some c := by
  simp [withColumn]

end Table

namespace Definition

open SqliteSchema.Parser Piece Token

variable {earlier : Registry} {t : Table} {c : Column} {b : Token} {bs : List Token}
  {ns : List Note}

/-- The marks between and behind the items of a table. -/
def itemEnds : List Token := [ofMark ',', ofMark ')']

/-- What may stand behind a part of a column definition. -/
def partEnds : List Token :=
  itemEnds ++ [ofKeyword .NOT, ofKeyword .COLLATE, ofKeyword .PRIMARY]

theorem isTypeWord_of_mem_partEnds (hb : b ∈ partEnds) :
    isTypeWord b = false ∧ b.is "(" = false ∧ b.isKeyword .ON = false := by
  have hall : ∀ b ∈ partEnds,
      isTypeWord b = false ∧ b.is "(" = false ∧ b.isKeyword .ON = false := by
    decide +kernel
  exact hall b hb

/-! ### Types -/

theorem isTypeWord_ofWord {w : String} (hw : IsTypeWord w) : isTypeWord (ofWord w) = true := by
  obtain ⟨⟨hne, hletters, -⟩, hstart⟩ := hw
  obtain ⟨a, as, hs⟩ := List.exists_cons_of_ne_nil (mt String.toList_eq_nil_iff.1 hne)
  have ha : a.isAlpha = true := List.all_eq_true.1 hletters a (hs ▸ List.mem_cons_self)
  have hstarts : startsWord a = true := by
    have h := Text.isAlphanumeric_of_isAlphanum (c := a) (by simp [Char.isAlphanum, ha])
    simp [startsWord, h]
  have hidentifier : (ofWord w).isIdentifier = true := by
    simp [isIdentifier, ofWord, hs, hstarts]
  have hfree : constraintStarts.any (ofWord w).isKeyword = false := by
    simpa [isKeyword, isWord, ofWord] using hstart
  rw [Parser.isTypeWord, hidentifier, hfree]
  rfl

theorem spellsSizes_split {size : String} (hs : IsTypeSize size) :
    SpellsSizes (tokens (split size.toList)) size := by
  cases hs with
  | none =>
    rw [String.toList_empty, split]
    exact .none
  | one hn =>
    rw [split_one hn, tokens_mark, tokens_number, tokens_mark, tokens_nil]
    exact .one (by decide) (.plain rfl) (by decide)
  | two hn hm =>
    rw [split_two hn hm, tokens_mark, tokens_number, tokens_mark, tokens_number, tokens_mark,
      tokens_nil]
    exact .two (by decide) (.plain rfl) (by decide) (.plain rfl) (by decide)

theorem reads_typeName {type : String} (h : IsDeclaredType type) (hb : b ∈ partEnds) :
    Reads typeName ⟨tokens (declaredType type) ++ b :: bs, ns⟩ (·.getD "" = type)
      ⟨b :: bs, ns⟩ := by
  obtain ⟨hword, hopen, -⟩ := isTypeWord_of_mem_partEnds hb
  cases h with
  | none =>
    have hnone : ∀ a ∈ (b :: bs).head?, isTypeWord a = false := by
      rintro _ ⟨⟩
      exact hword
    exact (reads_typeWords [] (List.forall_mem_nil _) hnone).seq (.pure rfl)
  | @some words size hne hw hs =>
    have htokens : tokens (words.flatMap fun w => [.gap ' ', .word w]) = words.map ofWord := by
      rw [tokens_flatMap, List.map_eq_flatMap]
      simp
    have hvalues : (words.map ofWord).map (·.value) = words := by
      rw [List.map_map]
      exact List.map_id words
    have hspelled : SpellsType (words.map ofWord ++ tokens (split size.toList))
        (" ".intercalate ((words.map ofWord).map (·.value)) ++ size) := by
      refine .intro (by simpa using hne) (fun t ht => ?_) (spellsSizes_split hs)
      obtain ⟨w, hmem, rfl⟩ := List.mem_map.1 ht
      exact isTypeWord_ofWord (hw w hmem)
    rw [hvalues] at hspelled
    rw [declaredType_append hne (fun w h => (hw w h).1) hs, tokens_append, htokens]
    refine (hspelled.reads ?_).imp fun _ h => h ▸ rfl
    rintro _ ⟨⟩
    exact ⟨hword, hopen⟩

/-! ### Constraints -/

theorem reads_conflictClause (hb : b.isKeyword .ON = false) :
    Reads conflictClause ⟨b :: bs, ns⟩ (fun _ => True) ⟨b :: bs, ns⟩ := by
  refine .seq (x := false) (.look fun ts hts => ?_) (.pure trivial)
  obtain ⟨d, ds, rfl, hd, -⟩ := List.map_eq_cons_iff.1 hts
  have hd : d.isKeyword .ON = false := by
    rw [← hb, ← hd]
    rfl
  simp [hd]

theorem reads_constraintName (hb : b.isKeyword .CONSTRAINT = false) :
    Reads constraintName ⟨b :: bs, ns⟩ (fun _ => True) ⟨b :: bs, ns⟩ :=
  (Reads.eatKeyword_not hb).seq (.pure trivial)

/-- A constraint that a keyword opens, and those behind it. -/
theorem reads_constraint {k : Keyword} {u u' : Table} {index : Nat} {as as' : List Token}
    {ns' : List Note} {v : View} {Q : Table → Prop} (hk : k ≠ .CONSTRAINT)
    (h : ∀ token, token.keyword = some k →
      Reads (columnConstraint earlier u index token) ⟨as, ns⟩ (· = u') ⟨as', ns'⟩)
    (hl : as'.length ≤ as.length) (hn : Reads (columnConstraints earlier index u') ⟨as', ns'⟩ Q v) :
    Reads (columnConstraints earlier index u) ⟨ofKeyword k :: as, ns⟩ Q v := by
  have hmore : (!(ofKeyword k).is "," && !(ofKeyword k).is ")") = true := by
    rw [is_ofKeyword rfl, is_ofKeyword rfl]
    rfl
  have hname : (ofKeyword k).isKeyword .CONSTRAINT = false := by
    simpa [isKeyword_ofKeyword] using hk
  refine .loop_next (P := (· = u')) ?_ (Nat.lt_succ_of_le hl) fun _ hu => hu ▸ hn
  refine (Reads.look_head fun _ => rfl).seq ?_
  rw [if_pos hmore]
  refine (reads_constraintName hname).bind fun _ _ => Reads.keyword.bind fun token ht => ?_
  exact (h token ht).seq (.pure ⟨u', rfl, rfl⟩)

/-- The constraints end where the item ends. -/
theorem reads_noConstraint {u : Table} {index : Nat} (hb : b ∈ itemEnds) :
    Reads (columnConstraints earlier index u) ⟨b :: bs, ns⟩ (· = u) ⟨b :: bs, ns⟩ := by
  have hall : ∀ b ∈ itemEnds, (!b.is "," && !b.is ")") = false := by decide
  refine .loop_stop ((Reads.look_head fun _ => rfl).seq ?_) rfl
  rw [hall b hb]
  exact .pure rfl

theorem reads_notNull {u : Table} {index : Nat} {token : Token} (ht : token.keyword = some .NOT)
    (hb : b ∈ partEnds) :
    Reads (columnConstraint earlier u index token) ⟨ofKeyword .NULL :: b :: bs, ns⟩
      (· = u.updateColumn index ({ · with notNull := true })) ⟨b :: bs, ns⟩ := by
  simp only [columnConstraint, ht]
  apply (Reads.expectKeyword isKeyword_self).bind
  intro _ _
  exact (reads_conflictClause (isTypeWord_of_mem_partEnds hb).2.2).bind fun _ _ => .pure rfl

theorem reads_warnUnknownCollation {name : String} {token : Token} {as : List Token} :
    Reads (warnUnknownCollation name token) ⟨as, ns⟩ (fun _ => True)
      ⟨as, ns ++ unknownNotes name⟩ := by
  unfold warnUnknownCollation unknownNotes
  split
  · rw [List.append_nil]
    exact .pure trivial
  · exact .warn

theorem reads_warnNotText {name : String} {token : Token} {affinity : Affinity} {as : List Token} :
    Reads (warnNotText name token (some affinity)) ⟨as, ns⟩ (fun _ => True)
      ⟨as, ns ++ notTextNotes name affinity⟩ := by
  cases affinity with
  | text =>
    rw [notTextNotes, if_pos rfl, List.append_nil]
    exact .pure trivial
  | _ => exact .warn

theorem reads_collation {name : String} {affinity : Affinity} {as : List Token} :
    Reads (collation (some affinity)) ⟨ofName name :: as, ns⟩ (· = name)
      ⟨as, ns ++ (unknownNotes name ++ notTextNotes name affinity)⟩ := by
  apply Reads.name.bind
  intro token hname
  rw [← List.append_assoc]
  simp only [hname]
  exact reads_warnUnknownCollation.bind fun _ _ => reads_warnNotText.bind fun _ _ => .pure rfl

/-- The key of a column that counts by itself. -/
theorem reads_columnPrimaryKey {token : Token} (hk : t.hasPrimaryKey = false)
    (hp : c.primaryKey = false) (hu : c.unique = false)
    (hi : sameName c.sqlType "INTEGER" = true) :
    Reads (columnPrimaryKey (t.withColumn c) t.columns.length token)
      ⟨ofKeyword .KEY :: ofKeyword .AUTOINCREMENT :: b :: bs, ns⟩
      (· = t.declare { c with primaryKey := true, autoIncrement := true }) ⟨b :: bs, ns⟩ := by
  have hon : (ofKeyword .AUTOINCREMENT).isKeyword .ON = false := isKeyword_ofKeyword
  have hset : (t.withColumn c).setPrimaryKey [t.columns.length] =
      .ok ({ t with primaryKey := [t.columns.length] }.withColumn
        { c with primaryKey := true }) := by
    obtain ⟨hnone, hflags⟩ := Table.hasPrimaryKey_eq_false.1 hk
    refine Table.setPrimaryKey_single_iff.2 ⟨Table.hasPrimaryKey_eq_false.2 ⟨hnone, ?_⟩, ?_, ?_⟩
    · intro d hd
      rcases List.mem_append.1 hd with hd | hd
      · exact hflags d hd
      · rw [List.mem_singleton.1 hd]
        exact hp
    · simpa using hu
    · rw [Table.updateColumn_withColumn]
      rfl
  apply (Reads.expectKeyword isKeyword_self).bind
  intro _ _
  refine (Reads.eatAnyKeyword_not (find?_ofKeyword_eq_none (by decide))).seq ?_
  apply (reads_conflictClause hon).bind
  intro _ _
  apply (Reads.ofExcept (by rw [hset]; rfl)).seq
  apply (Reads.accept (fun _ => rfl) isKeyword_self).bind
  rintro _ ⟨_, ht, _⟩
  have hnone : (({ t with primaryKey := [t.columns.length] }.withColumn
      { c with primaryKey := true }).columns[t.columns.length]?).filter
        (fun c => !sameName c.sqlType "INTEGER") = none := by
    rw [Table.getElem?_withColumn { t with primaryKey := [t.columns.length] }]
    simp [hi]
  rw [ht]
  simp only [hnone]
  refine .pure ?_
  exact Table.updateColumn_withColumn { t with primaryKey := [t.columns.length] } _ _

/-! ### Column definitions -/

/-- The key is the last part of a column definition. -/
theorem reads_keyPart {d : Column} (hp : d.primaryKey = false) (hu : d.unique = false)
    (ha : d.autoIncrement = false)
    (hc : c.autoIncrement = true → t.hasPrimaryKey = false ∧ sameName d.sqlType "INTEGER" = true)
    (hb : b ∈ itemEnds) :
    Reads (columnConstraints earlier t.columns.length (t.withColumn d))
      ⟨tokens c.keyPieces ++ b :: bs, ns⟩
      (· = t.declare { d with primaryKey := c.autoIncrement, autoIncrement := c.autoIncrement })
      ⟨b :: bs, ns⟩ := by
  unfold Column.keyPieces
  cases hauto : c.autoIncrement with
  | false =>
    apply (reads_noConstraint hb).imp
    intro u hu
    cases d
    cases hp
    cases ha
    exact hu
  | true =>
    obtain ⟨hk, hi⟩ := hc hauto
    rw [if_pos rfl, tokens_keywords]
    refine reads_constraint (k := .PRIMARY) (by decide) (fun token ht => ?_) ?_
      (reads_noConstraint hb)
    · simp only [columnConstraint, ht]
      exact reads_columnPrimaryKey hk hp hu hi
    · simp

/-- A collation and what is behind it. -/
theorem reads_collationPart {d : Column} {as : List Token} {v : View} {Q : Table → Prop}
    (hd : d.collation = none)
    (hn : Reads (columnConstraints earlier t.columns.length
      (t.withColumn { d with collation := c.collation })) ⟨as, ns ++ c.notes⟩ Q v)
    (ha : c.affinity = d.affinity) :
    Reads (columnConstraints earlier t.columns.length (t.withColumn d))
      ⟨tokens c.collationPieces ++ as, ns⟩ Q v := by
  unfold Column.collationPieces
  unfold Column.notes at hn
  cases hc : c.collation with
  | none =>
    rw [hc, Option.elim_none, List.append_nil, ← hd] at hn
    exact hn
  | some name =>
    rw [hc, ha] at hn
    rw [Option.elim_some, tokens_append, tokens_keywords]
    refine reads_constraint (k := .COLLATE) (by decide) (fun token ht => ?_) ?_ hn
    · simp only [columnConstraint, ht, Table.getElem?_withColumn, Option.map_some]
      refine reads_collation.seq (.pure ?_)
      rw [Table.updateColumn_withColumn]
    · simp

theorem reads_notNullPart {d : Column} {as : List Token} {v : View} {Q : Table → Prop}
    (hd : d.notNull = false) (has : StartsIn partEnds as)
    (hn : Reads (columnConstraints earlier t.columns.length
      (t.withColumn { d with notNull := c.notNull })) ⟨as, ns⟩ Q v) :
    Reads (columnConstraints earlier t.columns.length (t.withColumn d))
      ⟨tokens c.notNullPieces ++ as, ns⟩ Q v := by
  unfold Column.notNullPieces
  obtain ⟨b, bs, rfl, hb⟩ := has
  cases hc : c.notNull with
  | false =>
    rw [hc, ← hd] at hn
    exact hn
  | true =>
    rw [hc] at hn
    rw [if_pos rfl, tokens_keywords]
    refine reads_constraint (k := .NOT) (by decide) (fun token ht => ?_) ?_ hn
    · rw [← Table.updateColumn_withColumn t d fun c => { c with notNull := true }]
      exact reads_notNull ht hb
    · simp

theorem reads_columnDefinition (hn : checkColumnName t c.sqlName = .ok ()) (ht : c.table = t.id)
    (ho : c.outputName = Name.output c.sqlName) (ha : c.affinity = .ofDeclaredType c.sqlType)
    (hd : IsDeclaredType c.sqlType)
    (hc : c.autoIncrement = true → t.hasPrimaryKey = false ∧ sameName c.sqlType "INTEGER" = true)
    (hb : b ∈ itemEnds) :
    Reads (columnDefinition earlier t) ⟨tokens c.pieces ++ b :: bs, ns⟩ (· = t.declare c.declared)
      ⟨b :: bs, ns ++ c.notes⟩ := by
  have hkey : StartsIn partEnds (tokens c.keyPieces ++ b :: bs) := by
    refine .append ?_ ⟨b, bs, rfl, List.mem_append_left _ hb⟩
    unfold Column.keyPieces
    split
    · exact .inr ⟨ofKeyword .PRIMARY, _, tokens_keywords _, by simp [partEnds]⟩
    · exact .inl rfl
  have hcollation : StartsIn partEnds
      (tokens c.collationPieces ++ (tokens c.keyPieces ++ b :: bs)) := by
    refine .append ?_ hkey
    unfold Column.collationPieces
    cases c.collation with
    | none => exact .inl rfl
    | some name =>
      refine .inr ⟨ofKeyword .COLLATE, [ofName name], ?_, by simp [partEnds]⟩
      rw [Option.elim_some, tokens_append, tokens_keywords]
      rfl
  have hnotNull : StartsIn partEnds (tokens c.notNullPieces ++
      (tokens c.collationPieces ++ (tokens c.keyPieces ++ b :: bs))) := by
    refine .append ?_ hcollation
    unfold Column.notNullPieces
    split
    · exact .inr ⟨ofKeyword .NOT, _, tokens_keywords _, by simp [partEnds]⟩
    · exact .inl rfl
  rw [Column.pieces, List.singleton_append, tokens_name, tokens_append, tokens_append,
    tokens_append, List.cons_append, List.append_assoc, List.append_assoc, List.append_assoc]
  apply Reads.name.bind
  intro token hname
  rw [hname]
  apply (Reads.ofExcept (x := ()) (by rw [hn]; rfl)).seq
  obtain ⟨d, ds, hd', hmem⟩ := hnotNull
  rw [hd']
  apply (reads_typeName hd hmem).bind
  intro type htype
  rw [htype, ← hd']
  refine reads_notNullPart rfl hcollation (reads_collationPart rfl ?_ ha)
  rw [Column.declared_eq ht ho ha]
  exact reads_keyPart (d := { Column.declare t.id c.sqlName c.sqlType with
    notNull := c.notNull, collation := c.collation }) rfl rfl rfl hc hb

end Definition

end SqliteSchema
