import SqliteSchema.Proofs.Schema.WellFormed

/-!
Foreign keys stay sound. A foreign key is checked against a table that may still change; whatever a
table is unique by it stays unique by, so that the check holds of the final tables as well.
-/
namespace SqliteSchema

namespace Table

variable {t t' : Table} {indices : List Nat} {i : Nat}

/-- What later edits of a table keep. -/
structure Grows (t t' : Table) : Prop where
  id : t'.id = t.id
  length : t.columns.length ≤ t'.columns.length
  unique : ∀ indices, t.isUniqueBy indices = true → t'.isUniqueBy indices = true

theorem Grows.refl (t : Table) : t.Grows t := ⟨rfl, Nat.le_refl _, fun _ h => h⟩

theorem Grows.trans {t'' : Table} (h : t.Grows t') (h' : t'.Grows t'') : t.Grows t'' where
  id := h'.id.trans h.id
  length := Nat.le_trans h.length h'.length
  unique := fun l hu => h'.unique l (h.unique l hu)

/-- No flag is taken back, no unique set either, and the primary key is chosen only once. -/
theorem isUniqueBy_mono (hu : t.isUniqueBy indices = true)
    (hf : ∀ i, t.isKeyColumn i = true → t'.isKeyColumn i = true)
    (hp : t.primaryKey = [] ∨ t'.primaryKey = t.primaryKey)
    (hs : t.uniqueSets ⊆ t'.uniqueSets) : t'.isUniqueBy indices = true := by
  obtain ⟨hn, hu⟩ := isUniqueBy_iff.1 hu
  refine isUniqueBy_iff.2 ⟨hn, ?_⟩
  rcases hu with ⟨i, rfl, hi⟩ | hk | ⟨u, hu, hp⟩
  · exact .inl ⟨i, rfl, hf i hi⟩
  · rcases hp with hp | hp
    · rw [hp] at hk
      exact absurd (List.nil_perm.1 hk) hn
    · exact .inr (.inl (hp ▸ hk))
  · exact .inr (.inr ⟨u, hs hu, hp⟩)

theorem isKeyColumn_addColumn {name type : String} (h : t.isKeyColumn i = true) :
    (t.addColumn name type).isKeyColumn i = true := by
  obtain ⟨c, hc, hf⟩ := isKeyColumn_iff.1 h
  obtain ⟨hi, -⟩ := List.getElem?_eq_some_iff.1 hc
  refine isKeyColumn_iff.2 ⟨c, ?_, hf⟩
  rw [addColumn, List.getElem?_append_left hi]
  exact hc

theorem isKeyColumn_updateColumn {f : Column → Column} {j : Nat}
    (hf : ∀ c, c.unique = true ∨ c.primaryKey = true →
      (f c).unique = true ∨ (f c).primaryKey = true)
    (h : t.isKeyColumn i = true) : (t.updateColumn j f).isKeyColumn i = true := by
  obtain ⟨c, hc, hk⟩ := isKeyColumn_iff.1 h
  refine isKeyColumn_iff.2 ⟨if j = i then f c else c, ?_, ?_⟩
  · rw [updateColumn, List.getElem?_modify, hc]
    by_cases hj : j = i <;> simp [hj]
  · by_cases hj : j = i
    · simpa [hj] using hf c hk
    · simpa [hj] using hk

theorem isUniqueBy_setPrimaryKey (hk : t.setPrimaryKey indices = .ok t') {l : List Nat}
    (hu : t.isUniqueBy l = true) : t'.isUniqueBy l = true := by
  by_cases h1 : indices.length = 1
  · obtain ⟨i, rfl⟩ := List.length_eq_one_iff.1 h1
    obtain ⟨hnone, -, rfl⟩ := setPrimaryKey_single_iff.1 hk
    have hp := (hasPrimaryKey_eq_false.1 hnone).1
    exact isUniqueBy_mono hu (fun j => isKeyColumn_updateColumn fun _ _ => .inr rfl) (.inl hp)
      fun u hu => hu
  · obtain ⟨hnone, -, rfl⟩ := (setPrimaryKey_list_iff h1).1 hk
    have hp := (hasPrimaryKey_eq_false.1 hnone).1
    exact isUniqueBy_mono hu (fun _ h => h) (.inl hp) fun u hu => hu

theorem isUniqueBy_addUnique (hl : t.ListsColumns indices) (hk : t.addUnique indices = .ok t')
    {l : List Nat} (hu : t.isUniqueBy l = true) : t'.isUniqueBy l = true := by
  by_cases h1 : indices.length = 1
  · obtain ⟨i, rfl⟩ := List.length_eq_one_iff.1 h1
    have hc := List.getElem?_eq_getElem (hl.lt_length i (by simp))
    obtain ⟨-, -, -, rfl⟩ := (addUnique_single_iff hc).1 hk
    exact isUniqueBy_mono hu (fun _ => isKeyColumn_updateColumn fun _ _ => .inl rfl) (.inr rfl)
      fun u hu => hu
  · obtain ⟨-, -, rfl⟩ := (addUnique_list_iff h1).1 hk
    exact isUniqueBy_mono hu (fun _ h => h) (.inr rfl) (by simp)

end Table

/-- A foreign key of the table `t` refers to columns that are unique in their table. -/
structure ForeignKey.Sound (k : ForeignKey) (r : Registry) (t : Table) : Prop where
  ne_nil : k.columns ≠ []
  columns : t.ListsColumns k.columns
  notLater : k.foreignTable ≤ t.id
  foreign : ∃ u, r.table? k.foreignTable = some u ∧ u.id = k.foreignTable ∧
    k.foreignColumns.length = k.columns.length ∧ u.ListsColumns k.foreignColumns ∧
    u.isUniqueBy k.foreignColumns = true

/-- The tables stand under their indices, primary keys are columns of their tables, and every
foreign key is sound. -/
structure Registry.Referenced (r : Registry) : Prop where
  ids : ∀ (i : Nat) (t : Table), r.tables[i]? = some t → t.id = i
  keys : ∀ t ∈ r.tables, t.ListsColumns t.primaryKey
  sound : ∀ t ∈ r.tables, ∀ k ∈ t.foreignKeys, k.Sound r t

namespace Definition

variable {earlier : Registry} {t t' : Table}

theorem Edit.grows (h : Edit earlier t t') : t.Grows t' := by
  have hid : (head t').id = (head t).id := congrArg Table.id h.head_eq
  refine ⟨hid, h.length_le, fun l hu => ?_⟩
  have hupdate {i : Nat} {f : Column → Column}
      (hf : ∀ c, (f c).unique = c.unique ∧ (f c).primaryKey = c.primaryKey) :
      (t.updateColumn i f).isUniqueBy l = true := by
    refine Table.isUniqueBy_mono hu (fun j => ?_) (.inr rfl) fun u hu => hu
    exact Table.isKeyColumn_updateColumn fun c hc => by simpa [hf c] using hc
  cases h with
  | column =>
    exact Table.isUniqueBy_mono hu (fun _ => Table.isKeyColumn_addColumn) (.inr rfl)
      fun u hu => hu
  | notNull => exact hupdate fun _ => ⟨rfl, rfl⟩
  | collation => exact hupdate fun _ => ⟨rfl, rfl⟩
  | autoIncrement => exact hupdate fun _ => ⟨rfl, rfl⟩
  | primaryKey _ _ hk => exact Table.isUniqueBy_setPrimaryKey hk hu
  | unique _ hl hk => exact Table.isUniqueBy_addUnique hl hk hu
  | reference => exact Table.isUniqueBy_mono hu (fun _ h => h) (.inr rfl) fun u hu => hu

/-- A table that is found by name stands under its index. -/
theorem table?_of_find? (hr : earlier.Referenced) (hid : t.id = earlier.tables.length)
    {name : String} {u : Table} (h : (earlier.add t).find? name = some u) :
    (earlier.add t).table? u.id = some u ∧ u.id ≤ t.id := by
  obtain ⟨i, hi⟩ := List.mem_iff_getElem?.1 (List.mem_of_find?_eq_some h)
  obtain ⟨hlt, -⟩ := List.getElem?_eq_some_iff.1 hi
  have hu : u.id = i := Registry.ids_add hr.ids hid i u hi
  simp only [Registry.add, List.length_append, List.length_singleton] at hlt
  exact ⟨hu ▸ hi, by omega⟩

/-- Foreign keys of an unfinished table stay sound while it grows. -/
theorem sound_of_grows (hid : t.id = earlier.tables.length) (hg : t.Grows t') {k : ForeignKey}
    (hk : k.Sound (earlier.add t) t) : k.Sound (earlier.add t') t' := by
  refine ⟨hk.ne_nil, hk.columns.mono hg.length, hg.id ▸ hk.notLater, ?_⟩
  obtain ⟨u, hu, hui, hl, hc, hq⟩ := hk.foreign
  by_cases hlt : k.foreignTable < earlier.tables.length
  · refine ⟨u, ?_, hui, hl, hc, hq⟩
    rw [Registry.table?, Registry.add, List.getElem?_append_left hlt] at hu ⊢
    exact hu
  · have he : k.foreignTable = earlier.tables.length := by
      have := hk.notLater
      omega
    rw [Registry.table?, Registry.add, he, List.getElem?_concat_length] at hu
    cases hu
    refine ⟨t', ?_, hg.id.trans hui, hl, hc.mono hg.length, hg.unique _ hq⟩
    rw [Registry.table?, Registry.add, he, List.getElem?_concat_length]

/-- The edit that adds a foreign key adds a sound one. -/
theorem Edit.sound (hr : earlier.Referenced) (hid : t.id = earlier.tables.length)
    (hw : t.WellFormed) (h : Edit earlier t t')
    (hs : ∀ k ∈ t.foreignKeys, k.Sound (earlier.add t) t) :
    ∀ k ∈ t'.foreignKeys, k.Sound (earlier.add t') t' := by
  have hg := h.grows
  intro k hk
  apply sound_of_grows hid hg
  cases h with
  | @reference foreign _ columns indices hn hl hf hi hlen hu onDelete onUpdate =>
    rcases List.mem_append.1 hk with hk | hk
    · exact hs k hk
    · rw [List.mem_singleton.1 hk]
      obtain ⟨hplace, hle⟩ := table?_of_find? hr hid hf
      have hi : foreign.ListsColumns indices := by
        rcases hi with hi | rfl
        · exact hi
        · rcases List.mem_append.1 (List.mem_of_find?_eq_some hf) with hm | hm
          · exact hr.keys foreign hm
          · rw [List.mem_singleton.1 hm]
            exact hw.primaryKey
      exact ⟨hn, hl, hle, foreign, hplace, rfl, hlen, hi, hu⟩
  | primaryKey _ _ he => exact hs k ((effect_of_setPrimaryKey he).2.2 ▸ hk)
  | unique _ hl he => exact hs k ((effect_of_addUnique hl he).2.2 ▸ hk)
  | _ => exact hs k hk

theorem Edits.sound (h : Edits earlier t t') (hr : earlier.Referenced)
    (hid : t.id = earlier.tables.length) (hw : t.WellFormed)
    (hs : ∀ k ∈ t.foreignKeys, k.Sound (earlier.add t) t) :
    ∀ k ∈ t'.foreignKeys, k.Sound (earlier.add t') t' := by
  induction h with
  | refl => exact hs
  | @tail u _ hu he ih =>
    have hu' : Edits earlier t u := hu
    exact he.sound hr (hu'.id_eq.trans hid) (hu'.wellFormed hw) ih

/-- The foreign keys of a created table are sound behind the earlier tables. -/
theorem Creates.sound (hr : earlier.Referenced) (h : Creates earlier t) :
    ∀ k ∈ t.foreignKeys, k.Sound (earlier.add t) t := by
  obtain @⟨name, temporary, u, _, options, text, hn, he, ho⟩ := h
  obtain ⟨rfl, -, -⟩ := applyOptions_eq_ok ho
  have hs := he.sound hr rfl (wellFormed_newTable earlier name temporary) nofun
  intro k hk
  apply sound_of_grows he.id_eq ?_ (hs k hk)
  exact ⟨rfl, Nat.le_refl _, fun l hu =>
    Table.isUniqueBy_mono hu (fun _ h => h) (.inr rfl) fun _ h => h⟩

end Definition

namespace Registry

variable {r r' : Registry}

theorem referenced_empty : ({} : Registry).Referenced where
  ids := by simp
  keys := by simp
  sound := by simp

theorem Referenced.declare (hr : r.Referenced) (h : Definition.Declares r r') : r'.Referenced := by
  obtain @⟨t, hc⟩ := h
  obtain ⟨hid, -, hw, -⟩ := hc.spec
  refine ⟨ids_add hr.ids hid, fun u hu => ?_, fun u hu k hk => ?_⟩
  · rcases List.mem_append.1 hu with hu | hu
    · exact hr.keys u hu
    · rw [List.mem_singleton.1 hu]
      exact hw.primaryKey
  · rcases List.mem_append.1 hu with hu | hu
    · obtain ⟨hn, hl, hle, v, hv, hf⟩ := hr.sound u hu k hk
      refine ⟨hn, hl, hle, v, ?_, hf⟩
      obtain ⟨hlt, -⟩ := List.getElem?_eq_some_iff.1 hv
      rw [table?, add, List.getElem?_append_left hlt]
      exact hv
    · rw [List.mem_singleton.1 hu] at hk ⊢
      exact hc.sound hr k hk

theorem Referenced.run (hr : r.Referenced)
    (h : Relation.ReflTransGen Definition.Declares r r') : r'.Referenced := by
  induction h with
  | refl => exact hr
  | tail _ hd ih => exact ih.declare hd

end Registry

end SqliteSchema
