import Mathlib.Data.List.Nodup
import Mathlib.Logic.Relation
import SqliteSchema.Definition.Table
import SqliteSchema.Proofs.Parser.Ensures
import SqliteSchema.Proofs.Schema.Key

/-!
What the clauses of a `CREATE TABLE` statement do to the table that is being defined. Every clause
is a sequence of edits, in whichever order the clauses come; invariants of tables are proved edit by
edit.
-/
namespace SqliteSchema.Definition

open Relation SqliteSchema.Parser

/-- One change of a table that is defined behind the tables of `earlier`. -/
inductive Edit (earlier : Registry) : Table → Table → Prop
  | column {t : Table} {name : String} (type : String) (hn : checkColumnName t name = .ok ()) :
      Edit earlier t (t.addColumn name type)
  | notNull {t : Table} (i : Nat) : Edit earlier t (t.updateColumn i ({ · with notNull := true }))
  | collation {t : Table} (i : Nat) (name : String) :
      Edit earlier t (t.updateColumn i ({ · with collation := some name }))
  | autoIncrement {t : Table} {i : Nat}
      (hc : ∀ c, t.columns[i]? = some c →
        c.primaryKey = true ∧ sameName c.sqlType "INTEGER" = true) :
      Edit earlier t (t.updateColumn i ({ · with autoIncrement := true }))
  | primaryKey {t t' : Table} {indices : List Nat} (hn : indices ≠ [])
      (hl : t.ListsColumns indices) (hk : t.setPrimaryKey indices = .ok t') : Edit earlier t t'
  | unique {t t' : Table} {indices : List Nat} (hn : indices ≠ [])
      (hl : t.ListsColumns indices) (hk : t.addUnique indices = .ok t') : Edit earlier t t'
  | reference {t foreign : Table} {name : String} {columns indices : List Nat}
      (hn : columns ≠ []) (hl : t.ListsColumns columns)
      (hf : (earlier.add t).find? name = some foreign)
      (hi : foreign.ListsColumns indices ∨ indices = foreign.primaryKey)
      (hs : indices.length = columns.length) (hu : foreign.isUniqueBy indices = true)
      (onDelete onUpdate : ReferentialAction) :
      Edit earlier t { t with
        foreignKeys := t.foreignKeys ++ [⟨columns, foreign.id, indices, onDelete, onUpdate⟩] }

/-- Any number of changes. -/
abbrev Edits (earlier : Registry) : Table → Table → Prop := ReflTransGen (Edit earlier)

variable {earlier : Registry} {t t' : Table} {index : Nat}

/-- What an edit never changes. -/
def head (t : Table) : Table :=
  { t with columns := [], primaryKey := [], uniqueSets := [], foreignKeys := [] }

/-- A key changes the flags of columns and the lists of keys only. -/
theorem effect_of_setPrimaryKey {indices : List Nat} (h : t.setPrimaryKey indices = .ok t') :
    head t' = head t ∧ t'.columns.length = t.columns.length ∧ t'.foreignKeys = t.foreignKeys := by
  by_cases hl : indices.length = 1
  · obtain ⟨i, rfl⟩ := List.length_eq_one_iff.1 hl
    obtain ⟨-, -, rfl⟩ := Table.setPrimaryKey_single_iff.1 h
    exact ⟨rfl, by simp [Table.updateColumn], rfl⟩
  · obtain ⟨-, -, rfl⟩ := (Table.setPrimaryKey_list_iff hl).1 h
    exact ⟨rfl, rfl, rfl⟩

theorem effect_of_addUnique {indices : List Nat} (hi : t.ListsColumns indices)
    (h : t.addUnique indices = .ok t') :
    head t' = head t ∧ t'.columns.length = t.columns.length ∧ t'.foreignKeys = t.foreignKeys := by
  by_cases hl : indices.length = 1
  · obtain ⟨i, rfl⟩ := List.length_eq_one_iff.1 hl
    have hc := List.getElem?_eq_getElem (hi.lt_length i (by simp))
    obtain ⟨-, -, -, rfl⟩ := (Table.addUnique_single_iff hc).1 h
    exact ⟨rfl, by simp [Table.updateColumn], rfl⟩
  · obtain ⟨-, -, rfl⟩ := (Table.addUnique_list_iff hl).1 h
    exact ⟨rfl, rfl, rfl⟩

theorem Edit.head_eq (h : Edit earlier t t') : head t' = head t := by
  cases h with
  | primaryKey _ _ hk => exact (effect_of_setPrimaryKey hk).1
  | unique _ hl hk => exact (effect_of_addUnique hl hk).1
  | _ => rfl

theorem Edit.length_le (h : Edit earlier t t') : t.columns.length ≤ t'.columns.length := by
  cases h with
  | column => simp [Table.addColumn]
  | primaryKey _ _ hk => exact Nat.le_of_eq (effect_of_setPrimaryKey hk).2.1.symm
  | unique _ hl hk => exact Nat.le_of_eq (effect_of_addUnique hl hk).2.1.symm
  | reference => exact Nat.le_refl _
  | _ => simp [Table.updateColumn]

theorem Edits.head_eq (h : Edits earlier t t') : head t' = head t := by
  induction h with
  | refl => rfl
  | tail _ he ih => exact he.head_eq.trans ih

theorem Edits.id_eq (h : Edits earlier t t') : t'.id = t.id := by
  have hid : (head t').id = (head t).id := congrArg Table.id h.head_eq
  exact hid

theorem Edits.length_le (h : Edits earlier t t') : t.columns.length ≤ t'.columns.length := by
  induction h with
  | refl => exact Nat.le_refl _
  | tail _ he ih => exact Nat.le_trans ih he.length_le

/-! ### Lists of columns -/

theorem ensures_listedColumn (listed : List Nat) :
    Ensures (listedColumn t listed) fun i => i < t.columns.length ∧ i ∉ listed := by
  refine .after fun token => ?_
  split
  · exact .fail
  · next i hi =>
    refine .ite (fun _ => .fail) fun hn => .pure ⟨?_, by simpa using hn⟩
    obtain ⟨h, -⟩ := List.findIdx?_eq_some_iff_getElem.1 hi
    exact h

theorem ensures_extendList {listed : List Nat} (indexed : Bool) (h : t.ListsColumns listed) :
    Ensures (extendList t indexed listed) fun l => l ≠ [] ∧ t.ListsColumns l := by
  refine (ensures_listedColumn listed).bind fun i hi => ?_
  have hl : listed ++ [i] ≠ [] ∧ t.ListsColumns (listed ++ [i]) := by
    refine ⟨by simp, ?_, ?_⟩
    · refine List.nodup_append.2 ⟨h.nodup, List.nodup_singleton i, ?_⟩
      intro a ha b hb hab
      rw [List.mem_singleton.1 hb] at hab
      exact hi.2 (hab ▸ ha)
    · intro j hj
      rcases List.mem_append.1 hj with hj | hj
      · exact h.lt_length j hj
      · rw [List.mem_singleton.1 hj]
        exact hi.1
  exact .ite (fun _ => .after fun _ => .pure hl) fun _ => .pure hl

/-- A list of columns is not empty, and its members are columns of the table without
repetition. -/
theorem ensures_columnList (t : Table) (indexed : Bool) :
    Ensures (columnList t indexed) fun l => l ≠ [] ∧ t.ListsColumns l := by
  refine .after fun _ => (ensures_extendList indexed t.listsColumns_nil).bind fun first hf => ?_
  refine (Ensures.loop (P := fun l => l ≠ [] ∧ t.ListsColumns l) (fun listed hl => ?_) hf).bind
    fun l hl => .after fun _ => .pure hl
  refine .after fun _ => .ite (fun _ => ?_) fun _ => .pure (by simp)
  exact (ensures_extendList indexed hl.2).bind fun l hl => .pure (by rintro _ ⟨⟩; exact hl)

/-! ### Keys and foreign keys -/

theorem ensures_acceptKey (indices : List Nat) (token : Token) (r : Except KeyConflict Table) :
    Ensures (acceptKey t indices token r) (r = .ok ·) := by
  refine Ensures.ofExcept.imp fun t' h => ?_
  cases r with
  | error e => cases h
  | ok b =>
    cases h
    rfl

theorem edits_primaryKey {indices : List Nat} (hn : indices ≠ []) (hl : t.ListsColumns indices)
    (token : Token) : Ensures (primaryKey t indices token) (Edits earlier t) :=
  (ensures_acceptKey indices token _).imp fun _ h => .single (.primaryKey hn hl h)

theorem edits_uniqueKey {indices : List Nat} (hn : indices ≠ []) (hl : t.ListsColumns indices)
    (token : Token) : Ensures (uniqueKey t indices token) (Edits earlier t) :=
  (ensures_acceptKey indices token _).imp fun _ h => .single (.unique hn hl h)

/-- The referenced columns are a list of columns or the primary key, as many as the own ones, and
unique. -/
theorem referencedKey_eq_ok {foreign : Table} {count : Nat} {listed : Option (List Nat)}
    {indices : List Nat} (h : referencedKey foreign count listed = .ok indices) :
    (listed = some indices ∨ indices = foreign.primaryKey) ∧ indices.length = count ∧
      foreign.isUniqueBy indices = true := by
  unfold referencedKey at h
  cases hc : referencedColumns foreign count listed with
  | error e => simp [hc, bind, Except.bind] at h
  | ok l =>
    simp only [hc, bind, Except.bind] at h
    split at h
    · next hu =>
      cases h
      unfold referencedColumns at hc
      split at hc <;> split at hc <;> cases hc
      · next he => exact ⟨.inl rfl, he, hu⟩
      · next he => exact ⟨.inr rfl, he, hu⟩
    · cases h

theorem edits_references {columns : List Nat} (hn : columns ≠ []) (hl : t.ListsColumns columns) :
    Ensures (references earlier t columns) (Edits earlier t) := by
  refine .after fun name => ?_
  split
  · exact .fail
  · next foreign hf =>
    have hlisted : Ensures (listedColumns foreign) fun listed =>
        ∀ l, listed = some l → foreign.ListsColumns l := by
      refine .after fun _ => .ite (fun _ => ?_) fun _ => .pure (by simp)
      exact (ensures_columnList foreign false).bind fun l hl => .pure (by rintro _ ⟨⟩; exact hl.2)
    refine hlisted.bind fun listed hlisted => .after fun actions => ?_
    refine Ensures.ofExcept.bind fun indices hi => .pure ?_
    have hi : referencedKey foreign columns.length listed = .ok indices := by
      cases hk : referencedKey foreign columns.length listed with
      | error e => simp [hk, Except.mapError] at hi
      | ok l => simpa [hk, Except.mapError] using hi
    obtain ⟨hi, hs, hu⟩ := referencedKey_eq_ok hi
    exact .single (.reference hn hl hf (hi.imp_left (hlisted indices)) hs hu _ _)

/-! ### Column definitions -/

theorem edits_columnPrimaryKey (hi : index < t.columns.length) (token : Token) :
    Ensures (columnPrimaryKey t index token) (Edits earlier t) := by
  refine .after fun _ => .after fun _ => .after fun _ =>
    (ensures_acceptKey _ _ _).bind fun t' hk => .after fun found => ?_
  have hs : t.ListsColumns [index] := ⟨List.nodup_singleton _, by simpa using hi⟩
  have he : Edits earlier t t' := .single (.primaryKey (by simp) hs hk)
  have hf : ∀ c, t'.columns[index]? = some c → c.primaryKey = true := by
    obtain ⟨-, -, rfl⟩ := Table.setPrimaryKey_single_iff.1 hk
    intro c hc
    simp only [Table.updateColumn, List.getElem?_modify_eq] at hc
    obtain ⟨b, -, rfl⟩ := Option.map_eq_some_iff.1 hc
    rfl
  split
  · exact .pure he
  · split
    · exact .fail
    · next hnone =>
      refine .pure (he.tail (.autoIncrement fun c hc => ⟨hf c hc, ?_⟩))
      simpa [hc, Option.filter] using hnone

/-- Whichever constraint the token opens, it edits the table. -/
theorem edits_columnConstraint (hi : index < t.columns.length) (token : Token) :
    Ensures (columnConstraint earlier t index token) (Edits earlier t) := by
  have hs : t.ListsColumns [index] := ⟨List.nodup_singleton _, by simpa using hi⟩
  unfold columnConstraint
  split
  · exact .after fun _ => .after fun _ => .pure (.single (.notNull index))
  · exact .after fun _ => .pure .refl
  · exact edits_columnPrimaryKey hi token
  · exact .after fun _ => edits_uniqueKey (by simp) hs token
  · exact .after fun _ => .pure .refl
  · exact .after fun _ => .pure .refl
  · exact .after fun name => .pure (.single (.collation index name))
  · exact edits_references (by simp) hs
  · exact .after fun _ => .after fun _ => .after fun _ => .pure .refl
  · exact .after fun _ => .pure .refl
  · exact .fail

theorem edits_columnConstraints (hi : index < t.columns.length) :
    Ensures (columnConstraints earlier index t) (Edits earlier t) := by
  refine Ensures.loop (fun t' he => ?_) .refl
  refine .after fun _ => .ite (fun _ => .after fun _ => .after fun token => ?_) fun _ =>
    .pure (by simp)
  refine (edits_columnConstraint (Nat.lt_of_lt_of_le hi he.length_le) token).bind fun t'' h => ?_
  exact .pure (by rintro _ ⟨⟩; exact he.trans h)

theorem edits_columnDefinition : Ensures (columnDefinition earlier t) (Edits earlier t) := by
  refine .after fun token => Ensures.ofExcept.bind fun _ hn => .after fun type => ?_
  have hn : checkColumnName t token.unquoted = .ok () := by
    cases hk : checkColumnName t token.unquoted with
    | error e => simp [hk, Except.mapError] at hn
    | ok _ => rfl
  refine (edits_columnConstraints ?_).imp fun t' he => .head (.column (type.getD "") hn) he
  simp [Table.addColumn]

/-! ### Statements -/

theorem edits_tableConstraint (token : Token) :
    Ensures (tableConstraint earlier t token) (Edits earlier t) := by
  unfold tableConstraint
  split
  · exact .after fun _ => (ensures_columnList t true).bind fun _ hl => .after fun _ =>
      edits_primaryKey hl.1 hl.2 token
  · exact (ensures_columnList t true).bind fun _ hl => .after fun _ =>
      edits_uniqueKey hl.1 hl.2 token
  · exact .after fun _ => .pure .refl
  · exact .after fun _ => (ensures_columnList t false).bind fun _ hl => .after fun _ =>
      edits_references hl.1 hl.2
  · exact .fail

theorem edits_bodyItem (body : Body) :
    Ensures (bodyItem earlier body) fun body' => Edits earlier body.table body'.table := by
  refine .after fun first => .ite (fun _ => .after fun _ => .after fun token => ?_) fun _ =>
    .ite (fun _ => .fail) fun _ => ?_
  · exact (edits_tableConstraint token).bind fun _ h => .pure h
  · exact edits_columnDefinition.bind fun _ h => .pure h

theorem edits_tableBody : Ensures (tableBody earlier t) (Edits earlier t) := by
  refine (edits_bodyItem { table := t }).bind fun first hf => ?_
  refine (Ensures.loop (P := fun b => Edits earlier t b.table) (fun body hb => ?_) hf).bind
    fun body hb => .pure hb
  refine .after fun separator => .ite (fun _ => .pure (by simp)) fun _ => ?_
  exact (edits_bodyItem body).bind fun _ h => .pure (by rintro _ ⟨⟩; exact hb.trans h)

/-- A table that a statement adds to the tables of `earlier`. -/
inductive Creates (earlier : Registry) : Table → Prop
  | intro {name : String} {temporary : Bool} {t t' : Table} {options : Options} (text : String)
      (hn : checkTableName earlier name = .ok ())
      (he : Edits earlier { earlier.newTable name with isTemporary := temporary } t)
      (ho : applyOptions t options = .ok t') : Creates earlier { t' with createTableText := text }

theorem ensures_tableName :
    Ensures (tableName earlier) fun t =>
      ∃ name, checkTableName earlier name = .ok () ∧ t = earlier.newTable name := by
  refine .after fun token => .after fun _ => .ite (fun _ => .fail) fun _ => ?_
  refine Ensures.ofExcept.bind fun _ hn => .pure ⟨token.unquoted, ?_, rfl⟩
  cases hk : checkTableName earlier token.unquoted with
  | error e => simp [hk, Except.mapError] at hn
  | ok _ => rfl

theorem creates_createTable (source : List Char) :
    Ensures (createTable source earlier) (Creates earlier) := by
  refine .after fun create => .after fun temporary => .after fun _ => .after fun _ => ?_
  refine ensures_tableName.bind fun t ht => .after fun _ => .after fun _ => ?_
  obtain ⟨name, hn, rfl⟩ := ht
  refine edits_tableBody.bind fun t he => .after fun options => ?_
  exact Ensures.ofExcept.bind fun t' ho => .after fun semicolon => .pure (.intro _ hn he ho)

/-- One statement more. -/
inductive Declares : Registry → Registry → Prop
  | table {registry : Registry} {t : Table} (h : Creates registry t) :
      Declares registry (registry.add t)

theorem declares_schema (source : List Char) (registry : Registry) :
    Ensures (schema source registry) (ReflTransGen Declares registry) := by
  refine Ensures.loop (fun r hr => ?_) .refl
  refine .after fun _ => .ite (fun _ => .pure (by simp)) fun _ => .after fun _ =>
    .ite (fun _ => .pure (by rintro _ ⟨⟩; exact hr)) fun _ => ?_
  exact (creates_createTable source).bind fun t ht =>
    .pure (by rintro _ ⟨⟩; exact hr.tail (.table ht))

end SqliteSchema.Definition

namespace SqliteSchema.Registry

variable {r r' : Registry} {text : String} {ws : List Warning}

theorem extend_eq_ok (h : r.extend text = .ok (r', ws)) :
    ∃ ts t, Token.tokenize text = .ok ts ∧
      Definition.schema text.toList r { rest := ts } = .ok r' t ∧ t.warnings = ws := by
  unfold extend at h
  split at h
  · cases h
  · next ts hts =>
    obtain ⟨t, hschema, hws⟩ := Parser.run_eq_ok h
    exact ⟨ts, t, hts, hschema, hws⟩

/-- A text that is read adds tables to the registry by statements. -/
theorem declares_of_extend (h : r.extend text = .ok (r', ws)) :
    Relation.ReflTransGen Definition.Declares r r' := by
  obtain ⟨ts, t, -, hschema, -⟩ := extend_eq_ok h
  exact Definition.declares_schema _ _ _ _ _ hschema

end SqliteSchema.Registry
