import SqliteSchema.Proofs.Schema.ReadItem

/-!
A printed table is read back from its items. The states in between have the first columns of the
table, then all columns with the first unique flags, then the first unique sets, and then all keys
with the first foreign keys.
-/
namespace SqliteSchema

open SqliteSchema.Definition

namespace Table

variable {t u : Table} {n i : Nat} {c : Column}

/-- The table behind its first `n` columns. -/
def withColumns (t : Table) (n : Nat) : Table :=
  { named t.id t.sqlName with
    isTemporary := t.isTemporary
    columns := (t.columns.take n).map (·.declared)
    primaryKey := if (t.columns.take n).any (·.autoIncrement) then t.primaryKey else [] }

/-- The table behind its columns and the unique constraints on some of them. -/
def withUnique (t : Table) (unique : List Nat) : Table :=
  { t.withColumns t.columns.length with
    columns := t.columns.mapIdx fun i c => { c.declared with unique := decide (i ∈ unique) } }

/-- The table behind its first `n` unique sets. -/
def withSets (t : Table) (n : Nat) : Table :=
  { t.withUnique t.uniqueColumns with uniqueSets := t.uniqueSets.take n }

/-- The table behind its keys and the first `n` foreign keys. -/
def withForeignKeys (t : Table) (n : Nat) : Table :=
  { named t.id t.sqlName with
    isTemporary := t.isTemporary
    columns := t.columns
    primaryKey := t.primaryKey
    uniqueSets := t.uniqueSets
    foreignKeys := t.foreignKeys.take n }

theorem take_add_one {α : Type} {l : List α} {a : α} (h : l[n]? = some a) :
    l.take (n + 1) = l.take n ++ [a] := by
  rw [List.take_add_one, h]
  rfl

/-! ### Columns -/

/-- At most one column has its key in its definition. -/
theorem WellFormed.primaryKey_of_autoIncrement (hw : t.WellFormed) (hc : t.columns[i]? = some c)
    (ha : c.autoIncrement = true) : t.primaryKey = [i] := by
  have hf := hw.flags i c hc
  exact hf.flag.1 (hf.autoIncrement ha).1

theorem WellFormed.no_autoIncrement_before (hw : t.WellFormed) (hc : t.columns[n]? = some c)
    (ha : c.autoIncrement = true) : (t.columns.take n).any (·.autoIncrement) = false := by
  rw [List.any_eq_false]
  intro d hd hda
  obtain ⟨j, hj⟩ := List.mem_iff_getElem?.1 hd
  rw [List.getElem?_take] at hj
  split at hj
  · next hlt =>
    have h := (hw.primaryKey_of_autoIncrement hj hda).symm.trans
      (hw.primaryKey_of_autoIncrement hc ha)
    have hjn : j = n := List.singleton_inj.1 h
    omega
  · cases hj

theorem withColumns_succ (hw : t.WellFormed) (hc : t.columns[n]? = some c) :
    t.withColumns (n + 1) = (t.withColumns n).declare c.declared := by
  obtain ⟨hlt, -⟩ := List.getElem?_eq_some_iff.1 hc
  have htake := take_add_one hc
  have hlength : (t.withColumns n).columns.length = n := by
    simp [withColumns]
    omega
  have hdeclared : c.declared.autoIncrement = c.autoIncrement := rfl
  rw [declare, hlength, hdeclared]
  cases ha : c.autoIncrement with
  | false => simp [withColumns, withColumn, htake, ha]
  | true =>
    have hnone := hw.no_autoIncrement_before hc ha
    simp [withColumns, withColumn, htake, ha, hw.primaryKey_of_autoIncrement hc ha]

/-- A column that is read has no name that a column before it has. -/
theorem checkColumnName_withColumns (hw : t.WellFormed)
    (ho : ∀ c ∈ t.columns, c.outputName = Name.output c.sqlName) (hc : t.columns[n]? = some c) :
    checkColumnName (t.withColumns n) c.sqlName = .ok () := by
  obtain ⟨hlt, rfl⟩ := List.getElem?_eq_some_iff.1 hc
  have hfresh : ∀ d ∈ t.columns.take n, sameName d.sqlName t.columns[n].sqlName = false ∧
      d.outputName ≠ t.columns[n].outputName := by
    intro d hd
    obtain ⟨j, hj, rfl⟩ := List.mem_take_iff_getElem.1 hd
    have hjn : j < n := by omega
    have hname := List.pairwise_iff_getElem.1 hw.sqlNames j n (by simp; omega) (by simpa) hjn
    have houtput := List.pairwise_iff_getElem.1 hw.outputNames j n (by simp; omega) (by simpa) hjn
    simp only [List.getElem_map] at hname houtput
    exact ⟨hname, houtput⟩
  have hcolumn : (t.withColumns n).column? t.columns[n].sqlName = none := by
    refine List.find?_eq_none.2 fun d hd => ?_
    obtain ⟨d, hmem, rfl⟩ := List.mem_map.1 hd
    exact ne_true_of_eq_false (hfresh d hmem).1
  have houtput : (t.withColumns n).columns.find?
      (·.outputName == Name.output t.columns[n].sqlName) = none := by
    refine List.find?_eq_none.2 fun d hd => ?_
    obtain ⟨d, hmem, rfl⟩ := List.mem_map.1 hd
    rw [← ho _ (List.getElem_mem hlt), beq_iff_eq]
    exact (hfresh d hmem).2
  simp [checkColumnName, hcolumn, houtput]

theorem hasPrimaryKey_withColumns (hw : t.WellFormed) (hc : t.columns[n]? = some c)
    (ha : c.autoIncrement = true) : (t.withColumns n).hasPrimaryKey = false := by
  have hnone := hw.no_autoIncrement_before hc ha
  refine hasPrimaryKey_eq_false.2 ⟨?_, fun d hd => ?_⟩
  · simp only [withColumns, hnone]
    rfl
  · obtain ⟨d, hmem, rfl⟩ := List.mem_map.1 hd
    rw [List.any_eq_false] at hnone
    exact Bool.eq_false_iff.2 (hnone d hmem)

/-! ### Unique constraints -/

theorem getElem?_withUnique (t : Table) (unique : List Nat) (i : Nat) :
    (t.withUnique unique).columns[i]? =
      (t.columns[i]?).map fun c => { c.declared with unique := decide (i ∈ unique) } := by
  simp [withUnique]

/-- Without its key in a column definition a table has no key yet. -/
theorem primaryKey_withUnique (t : Table) (unique : List Nat) :
    (t.withUnique unique).primaryKey =
      if t.columns.any (·.autoIncrement) then t.primaryKey else [] := by
  simp [withUnique, withColumns]

theorem withUnique_nil (t : Table) : t.withUnique [] = t.withColumns t.columns.length := by
  have hcolumns : (t.withUnique []).columns = (t.withColumns t.columns.length).columns := by
    refine List.ext_getElem? fun i => ?_
    rw [getElem?_withUnique]
    simp [withColumns, Column.declared]
  change { t.withColumns t.columns.length with columns := (t.withUnique []).columns } = _
  rw [hcolumns]

theorem mem_uniqueColumns :
    i ∈ t.uniqueColumns ↔ ∃ c, t.columns[i]? = some c ∧ c.unique = true := by
  rw [uniqueColumns, List.mem_filter, List.mem_range, Option.any_eq_true]
  constructor
  · rintro ⟨-, c, hc⟩
    exact ⟨c, hc⟩
  · rintro ⟨c, hc, hu⟩
    obtain ⟨hlt, -⟩ := List.getElem?_eq_some_iff.1 hc
    exact ⟨hlt, c, hc, hu⟩

theorem nodup_uniqueColumns : t.uniqueColumns.Nodup := List.nodup_range.filter _

/-- A column that is unique by itself is no key of the table. -/
theorem not_mem_primaryKey_withUnique (hw : t.WellFormed) (unique : List Nat)
    (hi : i ∈ t.uniqueColumns) : i ∉ (t.withUnique unique).primaryKey := by
  obtain ⟨c, hc, hu⟩ := mem_uniqueColumns.1 hi
  rw [primaryKey_withUnique]
  split
  · next ha =>
    rw [List.any_eq_true] at ha
    obtain ⟨d, hd, ha⟩ := ha
    obtain ⟨j, hj⟩ := List.mem_iff_getElem?.1 hd
    rw [hw.primaryKey_of_autoIncrement hj ha, List.mem_singleton]
    rintro rfl
    rw [hc, Option.some_inj] at hj
    subst hj
    have hf := hw.flags i c hc
    exact hf.oneKey ⟨hu, (hf.autoIncrement ha).1⟩
  · exact List.not_mem_nil

theorem addUnique_withUnique (hw : t.WellFormed) {unique : List Nat} (hi : i ∈ t.uniqueColumns)
    (hn : i ∉ unique) :
    (t.withUnique unique).addUnique [i] = .ok (t.withUnique (unique ++ [i])) := by
  obtain ⟨c, hc, hu⟩ := mem_uniqueColumns.1 hi
  have hf := hw.flags i c hc
  have ha : c.autoIncrement = false := by
    rw [Bool.eq_false_iff]
    exact fun ha => hf.oneKey ⟨hu, (hf.autoIncrement ha).1⟩
  have hcolumn := getElem?_withUnique t unique i
  rw [hc, Option.map_some] at hcolumn
  refine (addUnique_single_iff hcolumn).2 ⟨?_, ha, decide_eq_false hn, ?_⟩
  · exact not_mem_primaryKey_withUnique hw unique hi
  · have hcolumns : (t.withUnique (unique ++ [i])).columns =
        (t.withUnique unique).columns.modify i ({ · with unique := true }) := by
      refine List.ext_getElem? fun j => ?_
      rw [List.getElem?_modify, getElem?_withUnique, getElem?_withUnique]
      cases t.columns[j]? with
      | none => rfl
      | some d =>
        by_cases hij : i = j
        · simp [hij]
        · simp [hij, Ne.symm hij]
    change { t.withColumns t.columns.length with
      columns := (t.withUnique (unique ++ [i])).columns } = _
    rw [hcolumns]
    rfl

theorem sameColumns_of_perm {a b : List Nat} (h : a.Perm b) : SameColumns a b := fun _ => h.mem_iff

theorem addUnique_withSets (hw : t.WellFormed) {set : List Nat}
    (hs : t.uniqueSets[n]? = some set) :
    (t.withSets n).addUnique set = .ok (t.withSets (n + 1)) := by
  obtain ⟨-, hlength, hdiffers⟩ := hw.uniqueSets set (List.mem_of_getElem? hs)
  refine (addUnique_list_iff (by omega)).2 ⟨?_, ?_, ?_⟩
  · rw [Bool.eq_false_iff]
    intro hsame
    obtain ⟨hne, hperm⟩ := sameMembers_iff.1 hsame
    have hkey : (t.withSets n).primaryKey = _ := primaryKey_withUnique t t.uniqueColumns
    rw [hkey] at hne hperm
    split at hne
    · next ha =>
      rw [if_pos ha] at hperm
      exact hdiffers (sameColumns_of_perm hperm.symm)
    · exact hne rfl
  · rw [Bool.eq_false_iff]
    intro hset
    obtain ⟨u, hu, hperm⟩ := (hasUniqueSet_iff (by rintro rfl; simp at hlength)).1 hset
    obtain ⟨j, hj, rfl⟩ := List.mem_take_iff_getElem.1 hu
    obtain ⟨hlt, rfl⟩ := List.getElem?_eq_some_iff.1 hs
    exact List.pairwise_iff_getElem.1 hw.distinctSets j n (by omega) hlt (by omega)
      (sameColumns_of_perm hperm)
  · rw [withSets, take_add_one hs]
    rfl

/-! ### Primary keys -/

/-- All but the primary key is read. -/
theorem getElem?_withSets (t : Table) (n i : Nat) :
    (t.withSets n).columns[i]? =
      (t.columns[i]?).map fun c => { c with primaryKey := c.autoIncrement } := by
  have hcolumns : (t.withSets n).columns = (t.withUnique t.uniqueColumns).columns := rfl
  rw [hcolumns, getElem?_withUnique]
  cases hc : t.columns[i]? with
  | none => rfl
  | some c =>
    have hu : decide (i ∈ t.uniqueColumns) = c.unique := by
      rw [Bool.eq_iff_iff, decide_eq_true_eq, mem_uniqueColumns, hc]
      simp
    simp [hu, Column.declared]

/-- What is read where the primary key and `AUTOINCREMENT` are of the same columns. -/
theorem columns_withSets (n : Nat)
    (h : ∀ (i : Nat) (c : Column), t.columns[i]? = some c → c.autoIncrement = c.primaryKey) :
    (t.withSets n).columns = t.columns := by
  refine List.ext_getElem? fun i => ?_
  rw [getElem?_withSets]
  cases hc : t.columns[i]? with
  | none => rfl
  | some c => exact congrArg (fun b => some { c with primaryKey := b }) (h i c hc)

/-- Where no item has the primary key, the flags of the columns are read with the columns. -/
theorem WellFormed.autoIncrement_eq (hw : t.WellFormed)
    (hk : t.primaryKey = [] ∨ t.columns.any (·.autoIncrement) = true)
    (hc : t.columns[i]? = some c) : c.autoIncrement = c.primaryKey := by
  have hf := hw.flags i c hc
  rw [Bool.eq_iff_iff]
  refine ⟨fun ha => (hf.autoIncrement ha).1, fun hp => ?_⟩
  have hkey := hf.flag.1 hp
  rcases hk with hk | hk
  · rw [hk] at hkey
    cases hkey
  · rw [List.any_eq_true] at hk
    obtain ⟨d, hd, ha⟩ := hk
    obtain ⟨j, hj⟩ := List.mem_iff_getElem?.1 hd
    rw [hw.primaryKey_of_autoIncrement hj ha, List.singleton_inj] at hkey
    rw [hkey, hc, Option.some_inj] at hj
    rw [hj]
    exact ha

/-- What the primary key adds to the table. -/
theorem withSets_withKey (t : Table) :
    { t.withSets t.uniqueSets.length with columns := t.columns, primaryKey := t.primaryKey } =
      t.withForeignKeys 0 := by
  have hsets : (t.withSets t.uniqueSets.length).uniqueSets = t.uniqueSets := List.take_length
  calc { t.withSets t.uniqueSets.length with columns := t.columns, primaryKey := t.primaryKey }
      = { t.withForeignKeys 0 with
          uniqueSets := (t.withSets t.uniqueSets.length).uniqueSets } := rfl
    _ = t.withForeignKeys 0 := by
      rw [hsets]
      rfl

theorem withSets_length (hw : t.WellFormed)
    (hk : t.primaryKey = [] ∨ t.columns.any (·.autoIncrement) = true) :
    t.withSets t.uniqueSets.length = t.withForeignKeys 0 := by
  have hcolumns : (t.withSets t.uniqueSets.length).columns = t.columns :=
    columns_withSets _ fun _ _ => hw.autoIncrement_eq hk
  have hkey : (t.withSets t.uniqueSets.length).primaryKey = t.primaryKey := by
    apply (primaryKey_withUnique t t.uniqueColumns).trans
    split
    · rfl
    · next ha => exact (hk.resolve_right ha).symm
  rw [← withSets_withKey, ← hcolumns, ← hkey]

theorem hasPrimaryKey_withSets (ha : t.columns.any (·.autoIncrement) = false) :
    (t.withSets n).hasPrimaryKey = false := by
  refine hasPrimaryKey_eq_false.2 ⟨?_, fun d hd => ?_⟩
  · apply (primaryKey_withUnique t t.uniqueColumns).trans
    rw [ha]
    rfl
  · obtain ⟨i, hi⟩ := List.mem_iff_getElem?.1 hd
    rw [getElem?_withSets] at hi
    obtain ⟨c, hc, rfl⟩ := Option.map_eq_some_iff.1 hi
    exact Bool.eq_false_iff.2 (List.any_eq_false.1 ha c (List.mem_of_getElem? hc))

theorem withFlag_eq_self {b : Bool} (h : c.primaryKey = b) : { c with primaryKey := b } = c := by
  rw [← h]

/-- A key of one column, which is marked by the key only now. -/
theorem setPrimaryKey_withSets_single (hw : t.WellFormed) (hi : t.primaryKey = [i])
    (ha : t.columns.any (·.autoIncrement) = false) :
    (t.withSets t.uniqueSets.length).setPrimaryKey [i] = .ok (t.withForeignKeys 0) := by
  have hcolumns : (t.withSets t.uniqueSets.length).columns.modify i
      ({ · with primaryKey := true }) = t.columns := by
    refine List.ext_getElem? fun j => ?_
    rw [List.getElem?_modify, getElem?_withSets]
    cases hc : t.columns[j]? with
    | none => rfl
    | some c =>
      have hp : c.primaryKey = decide (i = j) := by
        rw [Bool.eq_iff_iff, (hw.flags j c hc).flag, hi, decide_eq_true_eq, List.singleton_inj]
      have hauto : c.autoIncrement = false :=
        Bool.eq_false_iff.2 (List.any_eq_false.1 ha c (List.mem_of_getElem? hc))
      by_cases hij : i = j
      · simpa [hij] using withFlag_eq_self (hp.trans (decide_eq_true hij))
      · simpa [hij, hauto] using withFlag_eq_self (hp.trans (decide_eq_false hij))
  refine setPrimaryKey_single_iff.2 ⟨hasPrimaryKey_withSets ha, fun d hd => ?_, ?_⟩
  · rw [getElem?_withSets] at hd
    obtain ⟨c, hc, rfl⟩ := Option.map_eq_some_iff.1 hd
    have hf := hw.flags i c hc
    exact Bool.eq_false_iff.2 fun hu => hf.oneKey ⟨hu, hf.flag.2 hi⟩
  · rw [updateColumn, hcolumns, ← hi]
    exact (withSets_withKey t).symm

theorem setPrimaryKey_withSets_list (hw : t.WellFormed) (hne : t.primaryKey ≠ [])
    (hl : t.primaryKey.length ≠ 1) (ha : t.columns.any (·.autoIncrement) = false) :
    (t.withSets t.uniqueSets.length).setPrimaryKey t.primaryKey = .ok (t.withForeignKeys 0) := by
  have hcolumns : (t.withSets t.uniqueSets.length).columns = t.columns := by
    refine columns_withSets _ fun i c hc => ?_
    have hp : c.primaryKey = false := by
      rw [Bool.eq_false_iff]
      intro hp
      rw [(hw.flags i c hc).flag.1 hp] at hl
      exact hl rfl
    have hauto : c.autoIncrement = false :=
      Bool.eq_false_iff.2 (List.any_eq_false.1 ha c (List.mem_of_getElem? hc))
    exact hauto.trans hp.symm
  refine (setPrimaryKey_list_iff hl).2 ⟨hasPrimaryKey_withSets ha, ?_, ?_⟩
  · rw [Bool.eq_false_iff]
    intro hset
    obtain ⟨u, hu, hperm⟩ := (hasUniqueSet_iff hne).1 hset
    exact (hw.uniqueSets u (List.mem_of_mem_take hu)).2.2 (sameColumns_of_perm hperm)
  · rw [← withSets_withKey, ← hcolumns]

/-- The primary key that is printed for the table. -/
theorem setPrimaryKey_withSets (hw : t.WellFormed) (hne : t.primaryKey ≠ [])
    (ha : t.columns.any (·.autoIncrement) = false) :
    (t.withSets t.uniqueSets.length).setPrimaryKey t.primaryKey = .ok (t.withForeignKeys 0) := by
  by_cases h1 : t.primaryKey.length = 1
  · obtain ⟨i, hi⟩ := List.length_eq_one_iff.1 h1
    rw [hi]
    exact setPrimaryKey_withSets_single hw hi ha
  · exact setPrimaryKey_withSets_list hw hne h1 ha

/-! ### Foreign keys -/

theorem withForeignKeys_succ {k : ForeignKey} (hk : t.foreignKeys[n]? = some k) :
    t.withForeignKeys (n + 1) = { t.withForeignKeys n with
      foreignKeys := (t.withForeignKeys n).foreignKeys ++ [k] } := by
  rw [withForeignKeys, take_add_one hk]
  rfl

end Table

/-- The first tables of the registry, each with its statement as its text. -/
def Registry.retold (r : Registry) (n : Nat) : Registry := ⟨(r.tables.take n).map (·.retold r)⟩

namespace Definition

variable {r : Registry} {t u : Table} {n i : Nat}

theorem finds_of_names (hw : t.WellFormed)
    (h : u.columns.map (·.sqlName) = t.columns.map (·.sqlName)) : Finds u t := by
  intro i hi
  rw [Table.columnIndex?_congr h]
  exact Table.columnIndex?_columnName hw hi

theorem finds_withUnique (hw : t.WellFormed) (unique : List Nat) :
    Finds (t.withUnique unique) t := by
  refine finds_of_names hw (List.ext_getElem? fun i => ?_)
  rw [List.getElem?_map, List.getElem?_map, Table.getElem?_withUnique, Option.map_map]
  rfl

theorem finds_withSets (hw : t.WellFormed) (n : Nat) : Finds (t.withSets n) t :=
  finds_withUnique hw t.uniqueColumns

/-- Where names are distinct, a table is found by its name. -/
theorem find?_of_names {tables : List Table} (hi : tables[i]? = some t)
    (hn : (tables.map (·.sqlName)).Pairwise fun a b => sameName a b = false) :
    tables.find? (·.isNamed t.sqlName) = some t := by
  obtain ⟨hlt, ht⟩ := List.getElem?_eq_some_iff.1 hi
  refine List.find?_eq_some_iff_getElem.2 ⟨Table.sameName_self _, i, hlt, ht, fun j hj => ?_⟩
  have hdistinct := List.pairwise_iff_getElem.1 hn j i (by simp; omega) (by simpa) hj
  rw [List.getElem_map, List.getElem_map, ht] at hdistinct
  rw [Table.isNamed, hdistinct]
  rfl

/-- The table of a foreign key is found, also where it is the table that is being read. -/
theorem find?_foreign (hr : r.WellFormed) (ht : r.tables[t.id]? = some t)
    {k : ForeignKey} {foreign : Table} (hk : k.foreignTable ≤ t.id)
    (hforeign : r.table? k.foreignTable = some foreign) (n : Nat) :
    ∃ found, ((r.retold t.id).add (t.withForeignKeys n)).find? foreign.sqlName = some found ∧
      found.id = k.foreignTable ∧ Finds found foreign ∧
      ∀ indices, foreign.isUniqueBy indices = true → found.isUniqueBy indices = true := by
  have hid := hr.ids k.foreignTable foreign hforeign
  have hw := hr.tables foreign (List.mem_of_getElem? hforeign)
  have hlt : t.id < r.tables.length := (List.getElem?_eq_some_iff.1 ht).1
  have hlength : (r.retold t.id).tables.length = t.id := by
    rw [Registry.retold, List.length_map, List.length_take]
    omega
  have hnames : (((r.retold t.id).add (t.withForeignKeys n)).tables.map (·.sqlName)).Pairwise
      fun a b => sameName a b = false := by
    have htake : ((r.retold t.id).add (t.withForeignKeys n)).tables.map (·.sqlName) =
        (r.tables.take (t.id + 1)).map (·.sqlName) := by
      rw [List.take_add_one, ht, List.map_append, Registry.add, List.map_append, Registry.retold,
        List.map_map]
      rfl
    rw [htake]
    exact hr.sqlNames.sublist ((List.take_sublist _ _).map _)
  rcases Nat.lt_or_eq_of_le hk with hlt | heq
  · -- An earlier table, of which only the text is another one.
    have hi : ((r.retold t.id).add (t.withForeignKeys n)).tables[k.foreignTable]? =
        some (foreign.retold r) := by
      rw [Registry.add, List.getElem?_append_left (by rw [hlength]; exact hlt), Registry.retold,
        List.getElem?_map, List.getElem?_take_of_lt hlt]
      exact congrArg (Option.map (·.retold r)) hforeign
    exact ⟨foreign.retold r, find?_of_names hi hnames, hid, finds_of_names hw rfl,
      fun _ hq => hq⟩
  · have hself : foreign = t := by
      rw [Registry.table?, heq, ht] at hforeign
      exact (Option.some_inj.1 hforeign).symm
    subst hself
    have hi : ((r.retold foreign.id).add (foreign.withForeignKeys n)).tables[foreign.id]? =
        some (foreign.withForeignKeys n) := by
      rw [Registry.add, List.getElem?_append_right (Nat.le_of_eq hlength), hlength, Nat.sub_self]
      rfl
    exact ⟨foreign.withForeignKeys n, find?_of_names hi hnames, hid, finds_of_names hw rfl,
      fun _ hq => hq⟩

/-! ### The whole body -/

theorem readsItems_columns (earlier : Registry) (hw : t.WellFormed) (hp : t.Printable) :
    ReadsItems earlier ⟨t.withColumns 0, false⟩ (t.columns.map (·.pieces))
      t.notes ⟨t.withColumns t.columns.length, false⟩ := by
  apply readsItems_of_steps (f := fun n => ⟨t.withColumns n, false⟩)
  intro n c hc
  have hmem := List.mem_of_getElem? hc
  rw [Table.withColumns_succ hw hc]
  exact readsItem_column (Table.checkColumnName_withColumns hw hp.outputNames hc)
    (hw.owned c hmem) (hp.outputNames c hmem) (hp.affinities c hmem) (hp.types c hmem)
    fun ha => ⟨Table.hasPrimaryKey_withColumns hw hc ha, ((hw.flags n c hc).autoIncrement ha).2⟩

theorem readsItems_uniqueColumns (earlier : Registry) (hw : t.WellFormed) (constrained : Bool) :
    ∃ constrained', ReadsItems earlier ⟨t.withColumns t.columns.length, constrained⟩
      (t.uniqueColumns.map fun i => t.uniquePieces [i]) [] ⟨t.withSets 0, constrained'⟩ := by
  have hstep (n i : Nat) (hi : t.uniqueColumns[n]? = some i) (constrained : Bool) :
      ReadsItem earlier ⟨t.withUnique (t.uniqueColumns.take n), constrained⟩ (t.uniquePieces [i])
        [] ⟨t.withUnique (t.uniqueColumns.take (n + 1)), true⟩ := by
    have hmem := List.mem_of_getElem? hi
    obtain ⟨c, hc, -⟩ := Table.mem_uniqueColumns.1 hmem
    have hl : t.ListsColumns [i] :=
      ⟨List.nodup_singleton i, by simpa using (List.getElem?_eq_some_iff.1 hc).1⟩
    have htake := Table.take_add_one hi
    have hnew : i ∉ t.uniqueColumns.take n := by
      have hnodup := Table.nodup_uniqueColumns.sublist (List.take_sublist (n + 1) t.uniqueColumns)
      rw [htake, List.nodup_append] at hnodup
      exact fun h => hnodup.2.2 i h i (List.mem_singleton_self i) rfl
    rw [htake]
    exact readsItem_unique (finds_withUnique hw _) (List.cons_ne_nil i []) hl
      (Table.addUnique_withUnique hw hmem hnew)
  have hrun := readsItems_constraints hstep constrained
  rwa [List.take_zero, Table.withUnique_nil, List.take_length] at hrun

theorem readsItems_uniqueSets (earlier : Registry) (hw : t.WellFormed) (constrained : Bool) :
    ∃ constrained', ReadsItems earlier ⟨t.withSets 0, constrained⟩
      (t.uniqueSets.map t.uniquePieces) [] ⟨t.withSets t.uniqueSets.length, constrained'⟩ := by
  refine readsItems_constraints (f := t.withSets) (fun n set hs constrained => ?_) constrained
  obtain ⟨hl, hlength, -⟩ := hw.uniqueSets set (List.mem_of_getElem? hs)
  exact readsItem_unique (finds_withSets hw n) (by rintro rfl; simp at hlength) hl
    (Table.addUnique_withSets hw hs)

theorem readsItems_primaryKey (earlier : Registry) (hw : t.WellFormed) (constrained : Bool) :
    ∃ constrained', ReadsItems earlier ⟨t.withSets t.uniqueSets.length, constrained⟩
      t.primaryKeyPieces [] ⟨t.withForeignKeys 0, constrained'⟩ := by
  unfold Table.primaryKeyPieces
  split
  · next hk =>
    rw [Table.withSets_length hw hk]
    exact ⟨constrained, .nil _⟩
  · next hk =>
    obtain ⟨hne, ha⟩ := not_or.1 hk
    have hset := Table.setPrimaryKey_withSets hw hne (Bool.eq_false_iff.2 ha)
    exact ⟨true, .cons (readsItem_primaryKey (finds_withSets hw _) hne hw.primaryKey hset)
      (.nil _)⟩

theorem readsItems_foreignKeys (hr : r.WellFormed) (hf : r.Referenced)
    (ht : r.tables[t.id]? = some t) (constrained : Bool) :
    ∃ constrained', ReadsItems (r.retold t.id) ⟨t.withForeignKeys 0, constrained⟩
      (t.foreignKeys.map (t.foreignKeyPieces r)) []
      ⟨t.withForeignKeys t.foreignKeys.length, constrained'⟩ := by
  have hmem := List.mem_of_getElem? ht
  refine readsItems_constraints (f := t.withForeignKeys) (fun n k hk constrained => ?_) constrained
  obtain ⟨hne, hl, hle, foreign, hforeign, -, hlength, hforeignList, hq⟩ :=
    hf.sound t hmem k (List.mem_of_getElem? hk)
  obtain ⟨found, hfound, hid, hfinds, hunique⟩ := find?_foreign hr ht hle hforeign n
  rw [Table.withForeignKeys_succ hk]
  exact readsItem_foreignKey (finds_of_names (hr.tables t hmem) rfl) hne hl hforeign hfound hid
    hfinds hforeignList hlength (hunique _ hq)

/-- The items of a table are read one after another. -/
theorem readsItems_items (hr : r.WellFormed) (hf : r.Referenced) (ht : r.tables[t.id]? = some t)
    (hp : t.Printable) :
    ∃ constrained, ReadsItems (r.retold t.id) ⟨t.withColumns 0, false⟩ (t.items r)
      t.notes ⟨t.withForeignKeys t.foreignKeys.length, constrained⟩ := by
  have hw := hr.tables t (List.mem_of_getElem? ht)
  have hcolumns := readsItems_columns (r.retold t.id) hw hp
  obtain ⟨constrained, hunique⟩ := readsItems_uniqueColumns (r.retold t.id) hw false
  obtain ⟨constrained, hsets⟩ := readsItems_uniqueSets (r.retold t.id) hw constrained
  obtain ⟨constrained, hkey⟩ := readsItems_primaryKey (r.retold t.id) hw constrained
  obtain ⟨constrained, hforeign⟩ := readsItems_foreignKeys hr hf ht constrained
  have hall := (((hcolumns.append hunique).append hsets).append hkey).append hforeign
  simp only [List.append_nil] at hall
  exact ⟨constrained, hall⟩

end Definition

end SqliteSchema
