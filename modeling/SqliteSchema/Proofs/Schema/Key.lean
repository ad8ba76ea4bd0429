import SqliteSchema.Model.Registry

/-!
When a key is accepted and what it does to the table, and which columns a table is unique by. Lists
of columns are compared up to their order.
-/
namespace SqliteSchema.Table

variable {t t' : Table} {indices : List Nat} {i : Nat} {c : Column}

/-- The indices are those of columns of the table, and none of them is repeated. -/
structure ListsColumns (t : Table) (indices : List Nat) : Prop where
  nodup : indices.Nodup
  lt_length : ∀ i ∈ indices, i < t.columns.length

theorem listsColumns_nil (t : Table) : t.ListsColumns [] := ⟨List.nodup_nil, by simp⟩

theorem ListsColumns.mono (h : t.ListsColumns indices)
    (hl : t.columns.length ≤ t'.columns.length) : t'.ListsColumns indices :=
  ⟨h.nodup, fun i hi => Nat.lt_of_lt_of_le (h.lt_length i hi) hl⟩

theorem sameMembers_iff {a b : List Nat} : sameMembers a b = true ↔ a ≠ [] ∧ a.Perm b := by
  simp [sameMembers, List.isPerm_iff]

/-- For lists without repetitions these are the same members indeed. -/
theorem perm_iff_mem_iff {a b : List Nat} (ha : a.Nodup) (hb : b.Nodup) :
    a.Perm b ↔ ∀ i, i ∈ a ↔ i ∈ b :=
  List.perm_ext_iff_of_nodup ha hb

theorem hasUniqueSet_iff (h : indices ≠ []) :
    t.hasUniqueSet indices = true ↔ ∃ u ∈ t.uniqueSets, u.Perm indices := by
  simp only [hasUniqueSet, List.any_eq_true, sameMembers_iff]
  constructor
  · rintro ⟨u, hu, -, hp⟩
    exact ⟨u, hu, hp⟩
  · rintro ⟨u, hu, hp⟩
    refine ⟨u, hu, fun he => h ?_, hp⟩
    rw [he] at hp
    exact List.nil_perm.1 hp

theorem hasPrimaryKey_eq_false :
    t.hasPrimaryKey = false ↔ t.primaryKey = [] ∧ ∀ c ∈ t.columns, c.primaryKey = false := by
  simp [hasPrimaryKey]

theorem setPrimaryKey_single_iff :
    t.setPrimaryKey [i] = .ok t' ↔
      t.hasPrimaryKey = false ∧ (∀ c, t.columns[i]? = some c → c.unique = false) ∧
        t' = { t.updateColumn i ({ · with primaryKey := true }) with primaryKey := [i] } := by
  have hf : (t.columns[i]?).filter (·.unique) = none ↔
      ∀ c, t.columns[i]? = some c → c.unique = false := by
    simp [Option.filter_eq_none_iff]
  unfold setPrimaryKey
  cases hk : t.hasPrimaryKey with
  | true => simp
  | false =>
    simp only [Bool.false_eq_true, if_false, true_and, ← hf]
    split
    · next h => simp [h]
    · next h => simp [h, eq_comm]

/-- A key of several columns, or of none, only has to differ from the unique sets. -/
theorem setPrimaryKey_of_length_ne_one (h : indices.length ≠ 1) :
    t.setPrimaryKey indices =
      if t.hasPrimaryKey then .error .primaryKeyExists
      else if t.hasUniqueSet indices then .error .matchesUnique
      else .ok { t with primaryKey := indices } := by
  match indices, h with
  | [], _ => rfl
  | _ :: _ :: _, _ => rfl

theorem setPrimaryKey_list_iff (h : indices.length ≠ 1) :
    t.setPrimaryKey indices = .ok t' ↔
      t.hasPrimaryKey = false ∧ t.hasUniqueSet indices = false ∧
        t' = { t with primaryKey := indices } := by
  rw [setPrimaryKey_of_length_ne_one h, @eq_comm _ t']
  cases t.hasPrimaryKey <;> cases t.hasUniqueSet indices <;> simp

theorem addUnique_single_iff (hc : t.columns[i]? = some c) :
    t.addUnique [i] = .ok t' ↔
      i ∉ t.primaryKey ∧ c.primaryKey = false ∧ c.unique = false ∧
        t' = t.updateColumn i ({ · with unique := true }) := by
  have hm : sameMembers t.primaryKey [i] = true → i ∈ t.primaryKey := by
    intro h
    have hp := (sameMembers_iff.1 h).2
    exact hp.symm.subset (by simp)
  unfold addUnique
  cases hs : sameMembers t.primaryKey [i] with
  | true => simp [hm hs]
  | false =>
    simp only [Bool.false_eq_true, if_false, addUniqueColumn, hc]
    cases hp : c.primaryKey with
    | true => simp
    | false =>
      by_cases hi : i ∈ t.primaryKey
      · simp [hi]
      · cases hu : c.unique <;> simp [hi, eq_comm]

theorem addUnique_of_length_ne_one (h : indices.length ≠ 1) :
    t.addUnique indices =
      if sameMembers t.primaryKey indices then .error .matchesPrimaryKey
      else if t.hasUniqueSet indices then .error .matchesUnique
      else .ok { t with uniqueSets := t.uniqueSets ++ [indices] } := by
  match indices, h with
  | [], _ => rfl
  | _ :: _ :: _, _ => rfl

theorem addUnique_list_iff (h : indices.length ≠ 1) :
    t.addUnique indices = .ok t' ↔
      sameMembers t.primaryKey indices = false ∧ t.hasUniqueSet indices = false ∧
        t' = { t with uniqueSets := t.uniqueSets ++ [indices] } := by
  rw [addUnique_of_length_ne_one h, @eq_comm _ t']
  cases sameMembers t.primaryKey indices <;> cases t.hasUniqueSet indices <;> simp

theorem isKeyColumn_iff :
    t.isKeyColumn i = true ↔
      ∃ c, t.columns[i]? = some c ∧ (c.unique = true ∨ c.primaryKey = true) := by
  simp [isKeyColumn, Option.any_eq_true]

/-- A list of columns is unique because of a flag, of the primary key, or of a unique set. -/
theorem isUniqueBy_iff :
    t.isUniqueBy indices = true ↔ indices ≠ [] ∧
      ((∃ i, indices = [i] ∧ t.isKeyColumn i = true) ∨ t.primaryKey.Perm indices ∨
        ∃ u ∈ t.uniqueSets, u.Perm indices) := by
  have hk (h : indices ≠ []) :
      sameMembers t.primaryKey indices = true ↔ t.primaryKey.Perm indices := by
    rw [sameMembers_iff]
    refine ⟨fun hp => hp.2, fun hp => ⟨fun he => h ?_, hp⟩⟩
    rw [he] at hp
    exact List.nil_perm.1 hp
  match indices, hk with
  | [], _ => simp [isUniqueBy]
  | [j], hk =>
    have h : [j] ≠ [] := by simp
    simp [isUniqueBy, hk h, hasUniqueSet_iff h, or_assoc]
  | j :: k :: rest, hk =>
    have h : j :: k :: rest ≠ [] := by simp
    simp [isUniqueBy, hk h, hasUniqueSet_iff h]

end SqliteSchema.Table
