import SqliteSchema.Proofs.Schema.Edit

/-!
The invariant of schema models. Every edit keeps it for the table that is being defined, so that it
holds of every registry that is read, and tables that were there before stay as they are.
-/
namespace SqliteSchema

/-- The flags of the column with index `i` agree with each other and with the primary key. -/
structure Column.Fits (c : Column) (i : Nat) (primaryKey : List Nat) : Prop where
  flag : c.primaryKey = true ↔ primaryKey = [i]
  oneKey : ¬(c.unique = true ∧ c.primaryKey = true)
  autoIncrement : c.autoIncrement = true →
    c.primaryKey = true ∧ sameName c.sqlType "INTEGER" = true

/-- Lists of columns have the same members. -/
def SameColumns (a b : List Nat) : Prop := ∀ i, i ∈ a ↔ i ∈ b

namespace Table

structure WellFormed (t : Table) : Prop where
  owned : ∀ c ∈ t.columns, c.table = t.id
  sqlNames : (t.columns.map (·.sqlName)).Pairwise fun a b => sameName a b = false
  outputNames : (t.columns.map (·.outputName)).Nodup
  flags : ∀ (i : Nat) (c : Column), t.columns[i]? = some c → c.Fits i t.primaryKey
  primaryKey : t.ListsColumns t.primaryKey
  uniqueSets : ∀ u ∈ t.uniqueSets,
    t.ListsColumns u ∧ 2 ≤ u.length ∧ ¬SameColumns u t.primaryKey
  distinctSets : t.uniqueSets.Pairwise fun u v => ¬SameColumns u v

/-- The options of a table hold of its keys and types. -/
structure OptionsAllowed (t : Table) : Prop where
  withoutRowid : t.withoutRowid = true → t.primaryKey ≠ []
  strict : t.strict = true → ∀ c ∈ t.columns, Definition.isStrictType c.sqlType = true

variable {t t' : Table} {indices : List Nat} {i : Nat}

theorem sameColumns_iff_perm {a b : List Nat} (ha : t.ListsColumns a) (hb : t'.ListsColumns b) :
    SameColumns a b ↔ a.Perm b :=
  (perm_iff_mem_iff ha.nodup hb.nodup).symm

theorem forall_mem_modify {α : Type} {P : α → Prop} {l : List α} {f : α → α} (h : ∀ a ∈ l, P a)
    (hf : ∀ a, l[i]? = some a → P (f a)) : ∀ a ∈ l.modify i f, P a := by
  intro a ha
  obtain ⟨j, hj⟩ := List.mem_iff_getElem?.1 ha
  rw [List.getElem?_modify] at hj
  obtain ⟨b, hb, rfl⟩ := Option.map_eq_some_iff.1 hj
  by_cases hij : i = j
  · subst hij
    simpa using hf b hb
  · simpa [hij] using h b (List.mem_of_getElem? hb)

theorem map_modify_of_eq {α β : Type} {l : List α} {f : α → α} {g : α → β}
    (h : ∀ a, g (f a) = g a) : (l.modify i f).map g = l.map g := by
  apply List.ext_getElem?
  intro j
  rw [List.getElem?_map, List.getElem?_modify, List.getElem?_map]
  cases l[j]? with
  | none => rfl
  | some a => by_cases hij : i = j <;> simp [hij, h]

/-- Nothing else of a table is looked at. -/
theorem WellFormed.congr (hw : t.WellFormed) (hi : t'.id = t.id) (hc : t'.columns = t.columns)
    (hp : t'.primaryKey = t.primaryKey) (hu : t'.uniqueSets = t.uniqueSets) : t'.WellFormed where
  owned := by simpa only [hc, hi] using hw.owned
  sqlNames := by simpa only [hc] using hw.sqlNames
  outputNames := by simpa only [hc] using hw.outputNames
  flags := by simpa only [hc, hp] using hw.flags
  primaryKey := hp ▸ hw.primaryKey.mono (Nat.le_of_eq (by rw [hc]))
  uniqueSets := fun u hm => by
    have h := hw.uniqueSets u (hu ▸ hm)
    exact ⟨h.1.mono (Nat.le_of_eq (by rw [hc])), by simpa only [hp] using h.2⟩
  distinctSets := by simpa only [hu] using hw.distinctSets

/-- Other keys on the same columns. -/
theorem WellFormed.withKeys (hw : t.WellFormed) {primaryKey : List Nat}
    {uniqueSets : List (List Nat)}
    (hf : ∀ (i : Nat) (c : Column), t.columns[i]? = some c → c.Fits i primaryKey)
    (hp : t.ListsColumns primaryKey)
    (hu : ∀ u ∈ uniqueSets, t.ListsColumns u ∧ 2 ≤ u.length ∧ ¬SameColumns u primaryKey)
    (hd : uniqueSets.Pairwise fun u v => ¬SameColumns u v) :
    { t with primaryKey := primaryKey, uniqueSets := uniqueSets }.WellFormed where
  owned := hw.owned
  sqlNames := hw.sqlNames
  outputNames := hw.outputNames
  flags := hf
  primaryKey := hp.mono (Nat.le_refl _)
  uniqueSets := fun u hm => ⟨(hu u hm).1.mono (Nat.le_refl _), (hu u hm).2⟩
  distinctSets := hd

/-- A change of flags, and perhaps of the primary key with them. -/
theorem WellFormed.update (hw : t.WellFormed) {f : Column → Column} {primaryKey : List Nat}
    (hf : ∀ c, (f c).table = c.table ∧ (f c).sqlName = c.sqlName ∧
      (f c).outputName = c.outputName)
    (hp : t.ListsColumns primaryKey)
    (hu : ∀ u ∈ t.uniqueSets, ¬SameColumns u primaryKey)
    (hi : ∀ c, t.columns[i]? = some c → (f c).Fits i primaryKey)
    (hj : ∀ j c, j ≠ i → t.columns[j]? = some c → c.Fits j primaryKey) :
    { t.updateColumn i f with primaryKey := primaryKey }.WellFormed where
  owned := forall_mem_modify hw.owned fun c hc =>
    (hf c).1.trans (hw.owned c (List.mem_of_getElem? hc))
  sqlNames := by
    have h : (t.columns.modify i f).map (·.sqlName) = t.columns.map (·.sqlName) :=
      map_modify_of_eq fun c => (hf c).2.1
    simpa only [updateColumn, h] using hw.sqlNames
  outputNames := by
    have h : (t.columns.modify i f).map (·.outputName) = t.columns.map (·.outputName) :=
      map_modify_of_eq fun c => (hf c).2.2
    simpa only [updateColumn, h] using hw.outputNames
  flags := by
    intro j c hc
    simp only [updateColumn, List.getElem?_modify] at hc
    obtain ⟨b, hb, rfl⟩ := Option.map_eq_some_iff.1 hc
    by_cases hij : i = j
    · subst hij
      simpa using hi b hb
    · simpa [hij] using hj j b (Ne.symm hij) hb
  primaryKey := hp.mono (by simp [updateColumn])
  uniqueSets := fun u hm =>
    ⟨(hw.uniqueSets u hm).1.mono (by simp [updateColumn]), (hw.uniqueSets u hm).2.1, hu u hm⟩
  distinctSets := hw.distinctSets

/-- A change that no key is concerned with. -/
theorem WellFormed.updateColumn (hw : t.WellFormed) {f : Column → Column}
    (hf : ∀ c, (f c).table = c.table ∧ (f c).sqlName = c.sqlName ∧
      (f c).outputName = c.outputName)
    (hi : ∀ c, t.columns[i]? = some c → (f c).Fits i t.primaryKey) :
    (t.updateColumn i f).WellFormed :=
  hw.update hf hw.primaryKey (fun u hu => (hw.uniqueSets u hu).2.2) hi
    fun j c _ hc => hw.flags j c hc

/-- The flags of columns of a table without a primary key. -/
theorem WellFormed.no_flag (hw : t.WellFormed) (hk : t.hasPrimaryKey = false) {c : Column}
    (hc : t.columns[i]? = some c) : c.primaryKey = false ∧ c.autoIncrement = false := by
  have hp := (hasPrimaryKey_eq_false.1 hk).2 c (List.mem_of_getElem? hc)
  refine ⟨hp, Bool.eq_false_iff.2 fun ha => ?_⟩
  have := ((hw.flags i c hc).autoIncrement ha).1
  simp [hp] at this

theorem WellFormed.primaryKey_ne_nil (hw : t.WellFormed) (hk : t.hasPrimaryKey = true) :
    t.primaryKey ≠ [] := by
  intro hp
  rw [hasPrimaryKey, hp, List.isEmpty_nil, Bool.not_true, Bool.false_or, List.any_eq_true] at hk
  obtain ⟨c, hc, hf⟩ := hk
  obtain ⟨i, hi⟩ := List.mem_iff_getElem?.1 hc
  have h := (hw.flags i c hi).flag.1 hf
  rw [hp] at h
  cases h

theorem WellFormed.addColumn (hw : t.WellFormed) {name : String} (type : String)
    (hn : Definition.checkColumnName t name = .ok ()) : (t.addColumn name type).WellFormed := by
  unfold Definition.checkColumnName at hn
  split at hn
  · cases hn
  · next hname =>
    split at hn
    · cases hn
    · next houtput =>
      have hname : ∀ c ∈ t.columns, sameName c.sqlName name = false := by
        simpa [column?, Column.isNamed, List.find?_isSome] using hname
      have houtput : ∀ c ∈ t.columns, c.outputName ≠ Name.output name := by
        simpa [List.find?_eq_none] using houtput
      have hl : t.columns.length ≤ (t.addColumn name type).columns.length := by
        simp [Table.addColumn]
      constructor
      · intro c hc
        rcases List.mem_append.1 hc with hc | hc
        · exact hw.owned c hc
        · rw [List.mem_singleton.1 hc]
          rfl
      · rw [Table.addColumn, List.map_append, List.pairwise_append]
        refine ⟨hw.sqlNames, List.pairwise_singleton _ _, ?_⟩
        simpa [Column.declare] using hname
      · rw [Table.addColumn, List.map_append, List.nodup_append]
        refine ⟨hw.outputNames, List.nodup_singleton _, ?_⟩
        simpa [Column.declare] using houtput
      · intro i c hc
        by_cases hi : i < t.columns.length
        · simp only [Table.addColumn, List.getElem?_append_left hi] at hc
          exact hw.flags i c hc
        · -- The new column has no flag, and no key can contain it yet.
          have hne : t.primaryKey ≠ [i] := fun h => hi (hw.primaryKey.lt_length i (by simp [h]))
          simp only [Table.addColumn, List.getElem?_append_right (Nat.le_of_not_lt hi)] at hc
          rw [List.mem_singleton.1 (List.mem_of_getElem? hc)]
          exact ⟨by simpa [Column.declare, Table.addColumn] using hne, by simp [Column.declare],
            by simp [Column.declare]⟩
      · exact hw.primaryKey.mono hl
      · exact fun u hu => ⟨(hw.uniqueSets u hu).1.mono hl, (hw.uniqueSets u hu).2⟩
      · exact hw.distinctSets

/-- A list that is no unique set has other columns than each of them. -/
theorem WellFormed.not_sameColumns (hw : t.WellFormed) (hn : indices ≠ [])
    (hl : t.ListsColumns indices) (hnone : t.hasUniqueSet indices = false) {u : List Nat}
    (hu : u ∈ t.uniqueSets) : ¬SameColumns u indices := by
  intro hs
  have hp := (sameColumns_iff_perm (hw.uniqueSets u hu).1 hl).1 hs
  have hset := (hasUniqueSet_iff hn).2 ⟨u, hu, hp⟩
  rw [hnone] at hset
  cases hset

theorem WellFormed.setPrimaryKey (hw : t.WellFormed) (hn : indices ≠ [])
    (hl : t.ListsColumns indices) (hk : t.setPrimaryKey indices = .ok t') : t'.WellFormed := by
  by_cases h1 : indices.length = 1
  · obtain ⟨i, rfl⟩ := List.length_eq_one_iff.1 h1
    obtain ⟨hnone, hu, rfl⟩ := setPrimaryKey_single_iff.1 hk
    refine hw.update (fun _ => ⟨rfl, rfl, rfl⟩) hl ?_ ?_ ?_
    · intro u hu hs
      have hp := ((sameColumns_iff_perm (hw.uniqueSets u hu).1 hl).1 hs).length_eq
      have h2 := (hw.uniqueSets u hu).2.1
      simp only [List.length_singleton] at hp
      omega
    · intro c hc
      have ha := (hw.no_flag hnone hc).2
      exact ⟨by simp, by simp [hu c hc], by simp [ha]⟩
    · intro j c hj hc
      obtain ⟨hp, ha⟩ := hw.no_flag hnone hc
      exact ⟨by simp [hp, Ne.symm hj], by simp [hp], by simp [ha]⟩
  · obtain ⟨hnone, hu, rfl⟩ := (setPrimaryKey_list_iff h1).1 hk
    refine hw.withKeys ?_ hl (fun u hm => ⟨(hw.uniqueSets u hm).1, (hw.uniqueSets u hm).2.1,
      hw.not_sameColumns hn hl hu hm⟩) hw.distinctSets
    intro j c hc
    obtain ⟨hp, ha⟩ := hw.no_flag hnone hc
    have hne : indices ≠ [j] := fun h => h1 (by simp [h])
    exact ⟨by simp [hp, hne], by simp [hp], by simp [ha]⟩

theorem WellFormed.addUnique (hw : t.WellFormed) (hn : indices ≠ [])
    (hl : t.ListsColumns indices) (hk : t.addUnique indices = .ok t') : t'.WellFormed := by
  by_cases h1 : indices.length = 1
  · obtain ⟨i, rfl⟩ := List.length_eq_one_iff.1 h1
    obtain ⟨b, hb⟩ : ∃ b, t.columns[i]? = some b :=
      ⟨_, List.getElem?_eq_getElem (hl.lt_length i (by simp))⟩
    obtain ⟨-, hp, -, rfl⟩ := (addUnique_single_iff hb).1 hk
    refine hw.updateColumn (fun _ => ⟨rfl, rfl, rfl⟩) fun c hc => ?_
    cases hb.symm.trans hc
    have hf := hw.flags i b hb
    exact ⟨hf.flag, by simp [hp], hf.autoIncrement⟩
  · obtain ⟨hs, hu, rfl⟩ := (addUnique_list_iff h1).1 hk
    have h2 : 2 ≤ indices.length := by
      have := List.length_pos_of_ne_nil hn
      omega
    refine hw.withKeys hw.flags hw.primaryKey ?_ ?_
    · intro u hm
      rcases List.mem_append.1 hm with hm | hm
      · exact hw.uniqueSets u hm
      · rw [List.mem_singleton.1 hm]
        refine ⟨hl, h2, fun hsame => ?_⟩
        have hp := ((sameColumns_iff_perm hl hw.primaryKey).1 hsame).symm
        have hne : t.primaryKey ≠ [] := fun he => hn (by simpa [he] using hp)
        have hset := sameMembers_iff.2 ⟨hne, hp⟩
        rw [hs] at hset
        cases hset
    · refine List.pairwise_append.2 ⟨hw.distinctSets, List.pairwise_singleton _ _, ?_⟩
      intro u hm v hv hsame
      rw [List.mem_singleton.1 hv] at hsame
      exact hw.not_sameColumns hn hl hu hm hsame

end Table

namespace Definition

variable {earlier : Registry} {t t' : Table}

theorem Edit.wellFormed (h : Edit earlier t t') (hw : t.WellFormed) : t'.WellFormed := by
  cases h with
  | column type hn => exact hw.addColumn type hn
  | notNull i =>
    refine hw.updateColumn (fun _ => ⟨rfl, rfl, rfl⟩) fun c hc => ?_
    have hf := hw.flags i c hc
    exact ⟨hf.flag, hf.oneKey, hf.autoIncrement⟩
  | collation i name =>
    refine hw.updateColumn (fun _ => ⟨rfl, rfl, rfl⟩) fun c hc => ?_
    have hf := hw.flags i c hc
    exact ⟨hf.flag, hf.oneKey, hf.autoIncrement⟩
  | @autoIncrement i ha =>
    refine hw.updateColumn (fun _ => ⟨rfl, rfl, rfl⟩) fun c hc => ?_
    have hf := hw.flags i c hc
    exact ⟨hf.flag, hf.oneKey, fun _ => ha c hc⟩
  | primaryKey hn hl hk => exact hw.setPrimaryKey hn hl hk
  | unique hn hl hk => exact hw.addUnique hn hl hk
  | reference => exact hw.congr rfl rfl rfl rfl

theorem Edits.wellFormed (h : Edits earlier t t') (hw : t.WellFormed) : t'.WellFormed := by
  induction h with
  | refl => exact hw
  | tail _ he ih => exact he.wellFormed ih

/-- A table option is on only where its condition holds of the table. -/
theorem applyOptions_eq_ok {options : Options} (h : applyOptions t options = .ok t') :
    t' = { t with
      withoutRowid := options.withoutRowid.isSome || t.withoutRowid
      strict := options.strict.isSome || t.strict } ∧
    (options.withoutRowid.isSome = true → t.hasPrimaryKey = true) ∧
    (options.strict.isSome = true → ∀ c ∈ t.columns, isStrictType c.sqlType = true) := by
  have hs (u : Table) (h : applyStrict u options.strict = .ok t') :
      t' = { u with strict := options.strict.isSome || u.strict } ∧
        (options.strict.isSome = true → ∀ c ∈ u.columns, isStrictType c.sqlType = true) := by
    unfold applyStrict at h
    split at h
    · next ho =>
      cases h
      simp [ho]
    · next ho =>
      split at h
      · next hc =>
        cases h
        simpa [ho, List.find?_eq_none] using hc
      · cases h
  unfold applyOptions at h
  cases ho : options.withoutRowid with
  | none =>
    obtain ⟨rfl, hc⟩ := hs t (by simpa [ho, applyWithoutRowid, bind, Except.bind] using h)
    simpa using hc
  | some token =>
    cases hk : t.hasPrimaryKey with
    | false => simp [ho, hk, applyWithoutRowid, bind, Except.bind] at h
    | true =>
      obtain ⟨rfl, hc⟩ := hs { t with withoutRowid := true }
        (by simpa [ho, hk, applyWithoutRowid, bind, Except.bind] using h)
      simpa using hc

/-- A name that is accepted differs from the other names, and so does its output name. -/
theorem checkTableName_eq_ok {name : String} (h : checkTableName earlier name = .ok ()) :
    ∀ t ∈ earlier.tables, sameName t.sqlName name = false ∧ t.outputName ≠ Name.output name := by
  unfold checkTableName at h
  split at h
  · cases h
  · next hname =>
    split at h
    · cases h
    · next houtput =>
      have hname : ∀ t ∈ earlier.tables, sameName t.sqlName name = false := by
        simpa [Registry.find?, Table.isNamed, List.find?_isSome] using hname
      have houtput : ∀ t ∈ earlier.tables, t.outputName ≠ Name.output name := by
        simpa [Registry.findOutput?, List.find?_eq_none] using houtput
      exact fun t ht => ⟨hname t ht, houtput t ht⟩

/-- The table that a statement starts from. -/
theorem wellFormed_newTable (earlier : Registry) (name : String) (temporary : Bool) :
    { earlier.newTable name with isTemporary := temporary }.WellFormed where
  owned := by simp [Registry.newTable, Table.named]
  sqlNames := .nil
  outputNames := .nil
  flags := by simp [Registry.newTable, Table.named]
  primaryKey := Table.listsColumns_nil _
  uniqueSets := by simp [Registry.newTable, Table.named]
  distinctSets := .nil

/-- What a created table is, whichever its clauses are. -/
theorem Creates.spec (h : Creates earlier t) :
    t.id = earlier.tables.length ∧
    (∀ u ∈ earlier.tables, sameName u.sqlName t.sqlName = false ∧ u.outputName ≠ t.outputName) ∧
    t.WellFormed ∧ t.OptionsAllowed := by
  obtain @⟨name, temporary, t, t', options, text, hn, he, ho⟩ := h
  obtain ⟨rfl, hk, hs⟩ := applyOptions_eq_ok ho
  have hid : t.id = earlier.tables.length := he.id_eq
  have hname : t.sqlName = name := congrArg Table.sqlName he.head_eq
  have houtput : t.outputName = Name.output name := congrArg Table.outputName he.head_eq
  have hw : t.WellFormed := he.wellFormed (wellFormed_newTable earlier name temporary)
  refine ⟨hid, fun u hu => ?_, hw.congr rfl rfl rfl rfl, fun hr => ?_, fun hr => hs ?_⟩
  · rw [hname, houtput]
    exact checkTableName_eq_ok hn u hu
  · have hf : t.withoutRowid = false := congrArg Table.withoutRowid he.head_eq
    exact hw.primaryKey_ne_nil (hk (by simpa [hf] using hr))
  · have hf : t.strict = false := congrArg Table.strict he.head_eq
    simpa [hf] using hr

end Definition

namespace Registry

variable {r r' : Registry}

/-- The tables stand under their indices, their names are distinct, and each is well formed. -/
structure WellFormed (r : Registry) : Prop where
  ids : ∀ (i : Nat) (t : Table), r.tables[i]? = some t → t.id = i
  sqlNames : (r.tables.map (·.sqlName)).Pairwise fun a b => sameName a b = false
  outputNames : (r.tables.map (·.outputName)).Nodup
  tables : ∀ t ∈ r.tables, t.WellFormed

theorem wellFormed_empty : ({} : Registry).WellFormed where
  ids := by simp
  sqlNames := .nil
  outputNames := .nil
  tables := by simp

/-- A table under the next index. -/
theorem ids_add {t : Table} (hr : ∀ (i : Nat) (u : Table), r.tables[i]? = some u → u.id = i)
    (ht : t.id = r.tables.length) (i : Nat) (u : Table) (hu : (r.add t).tables[i]? = some u) :
    u.id = i := by
  rw [add, List.getElem?_append] at hu
  split at hu
  · exact hr i u hu
  · next hi =>
    obtain ⟨hi', rfl⟩ := List.getElem?_eq_some_iff.1 hu
    rw [List.length_singleton] at hi'
    rw [List.getElem_singleton]
    omega

theorem WellFormed.declare (hr : r.WellFormed) (h : Definition.Declares r r') :
    r'.WellFormed ∧ ∃ t, t.OptionsAllowed ∧ r'.tables = r.tables ++ [t] := by
  obtain @⟨t, hc⟩ := h
  obtain ⟨hid, hnames, hw, ho⟩ := hc.spec
  refine ⟨⟨ids_add hr.ids hid, ?_, ?_, ?_⟩, t, ho, rfl⟩
  · rw [add, List.map_append, List.pairwise_append]
    refine ⟨hr.sqlNames, List.pairwise_singleton _ _, ?_⟩
    simpa using fun u hu => (hnames u hu).1
  · rw [add, List.map_append, List.nodup_append]
    refine ⟨hr.outputNames, List.nodup_singleton _, ?_⟩
    simpa using fun u hu => (hnames u hu).2
  · intro u hu
    rcases List.mem_append.1 hu with hu | hu
    · exact hr.tables u hu
    · rw [List.mem_singleton.1 hu]
      exact hw

/-- Statements keep the invariant and every table that was there; the tables that they add have
their options for a reason. -/
theorem WellFormed.run (hr : r.WellFormed)
    (h : Relation.ReflTransGen Definition.Declares r r') :
    r'.WellFormed ∧ ∃ added, r'.tables = r.tables ++ added ∧ ∀ t ∈ added, t.OptionsAllowed := by
  induction h with
  | refl => exact ⟨hr, [], by simp, by simp⟩
  | tail _ hd ih =>
    obtain ⟨hw, added, hadded, ho⟩ := ih
    obtain ⟨hw', t, ht, htables⟩ := hw.declare hd
    refine ⟨hw', added ++ [t], by rw [htables, hadded, List.append_assoc], fun u hu => ?_⟩
    rcases List.mem_append.1 hu with hu | hu
    · exact ho u hu
    · rw [List.mem_singleton.1 hu]
      exact ht

theorem wellFormed_of_extend {text : String} {ws : List Warning} (hr : r.WellFormed)
    (h : r.extend text = .ok (r', ws)) :
    r'.WellFormed ∧ ∃ added, r'.tables = r.tables ++ added ∧ ∀ t ∈ added, t.OptionsAllowed :=
  hr.run (declares_of_extend h)

/-- A text behind another one, whose primary key comes after a unique column. -/
theorem wellFormed_of_extend_keys :
    ∃ r r', extend {} "CREATE TABLE a (x INTEGER PRIMARY KEY);" = .ok (r, []) ∧
      r.extend "CREATE TABLE b (y TEXT UNIQUE, z INT, PRIMARY KEY (z, y)) WITHOUT ROWID;" =
        .ok (r', []) ∧
      r'.WellFormed ∧ ∃ added, r'.tables = r.tables ++ added ∧ ∀ t ∈ added, t.OptionsAllowed := by
  let a : Table := { Table.named 0 "a" with
    columns := [{ Column.declare 0 "x" "INTEGER" with primaryKey := true }]
    createTableText := "CREATE TABLE a (x INTEGER PRIMARY KEY);"
    primaryKey := [0] }
  let b : Table := { Table.named 1 "b" with
    columns := [{ Column.declare 1 "y" "TEXT" with unique := true }, .declare 1 "z" "INT"]
    createTableText := "CREATE TABLE b (y TEXT UNIQUE, z INT, PRIMARY KEY (z, y)) WITHOUT ROWID;"
    primaryKey := [1, 0]
    withoutRowid := true }
  have ha : extend {} "CREATE TABLE a (x INTEGER PRIMARY KEY);" = .ok (⟨[a]⟩, []) := by
    decide +kernel
  have hb : extend ⟨[a]⟩
      "CREATE TABLE b (y TEXT UNIQUE, z INT, PRIMARY KEY (z, y)) WITHOUT ROWID;" =
        .ok (⟨[a, b]⟩, []) := by
    decide +kernel
  have hr : Registry.WellFormed ⟨[a]⟩ := (wellFormed_of_extend wellFormed_empty ha).1
  exact ⟨_, _, ha, hb, wellFormed_of_extend hr hb⟩

end Registry

end SqliteSchema
