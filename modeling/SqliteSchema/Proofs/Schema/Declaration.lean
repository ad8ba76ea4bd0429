import Mathlib.Data.List.Induction
import SqliteSchema.Proofs.Schema.Key

/-!
Keys that are declared one after the other. Which of them a table accepts can be told from the
declarations before it alone, and so can the flags and the lists that the table then has.
-/
namespace SqliteSchema

/-- A primary key or a unique constraint on the columns with these indices. -/
inductive KeyDeclaration
  | primaryKey (indices : List Nat)
  | unique (indices : List Nat)
  deriving DecidableEq, Repr

namespace KeyDeclaration

def indices : KeyDeclaration → List Nat
  | primaryKey l => l
  | unique l => l

def primaryKeys (ds : List KeyDeclaration) : List (List Nat) :=
  ds.filterMap fun
    | primaryKey l => some l
    | unique _ => none

def uniques (ds : List KeyDeclaration) : List (List Nat) :=
  ds.filterMap fun
    | primaryKey _ => none
    | unique l => some l

/-- The columns of the primary keys. -/
def key (ds : List KeyDeclaration) : List Nat := (primaryKeys ds).flatten

variable {ds es : List KeyDeclaration} {l : List Nat} {i : Nat}

theorem primaryKeys_append : primaryKeys (ds ++ es) = primaryKeys ds ++ primaryKeys es :=
  List.filterMap_append

theorem uniques_append : uniques (ds ++ es) = uniques ds ++ uniques es :=
  List.filterMap_append

theorem mem_primaryKeys : l ∈ primaryKeys ds ↔ primaryKey l ∈ ds := by
  simp only [primaryKeys, List.mem_filterMap]
  constructor
  · rintro ⟨k | u, hd, h⟩
    · cases h
      exact hd
    · cases h
  · intro hd
    exact ⟨_, hd, rfl⟩

theorem mem_key_of_single (h : primaryKey [i] ∈ ds) : i ∈ key ds :=
  List.mem_flatten.2 ⟨[i], mem_primaryKeys.2 h, List.mem_singleton_self i⟩

theorem mem_uniques : l ∈ uniques ds ↔ unique l ∈ ds := by
  simp only [uniques, List.mem_filterMap]
  constructor
  · rintro ⟨k | u, hd, h⟩
    · cases h
    · cases h
      exact hd
  · intro hd
    exact ⟨_, hd, rfl⟩

end KeyDeclaration

namespace Table

open KeyDeclaration

/-- No column of the table is part of a key. -/
structure Keyless (t : Table) : Prop where
  primaryKey : t.primaryKey = []
  uniqueSets : t.uniqueSets = []
  flags : ∀ c ∈ t.columns, c.primaryKey = false ∧ c.unique = false

def addKey (t : Table) : KeyDeclaration → Except KeyConflict Table
  | .primaryKey l => t.setPrimaryKey l
  | .unique l => t.addUnique l

/-- All declarations, each of which has to be accepted. -/
def addKeys (t : Table) (ds : List KeyDeclaration) : Except KeyConflict Table :=
  ds.foldlM addKey t

/-- A column with the flags of the declared keys and no others. -/
def flagged (ds : List KeyDeclaration) (i : Nat) (c : Column) : Column :=
  { c with
    primaryKey := decide (.primaryKey [i] ∈ ds)
    unique := decide (.unique [i] ∈ ds) }

/-- The table with the declared keys and no others. -/
def keyed (t : Table) (ds : List KeyDeclaration) : Table :=
  { t with
    primaryKey := key ds
    uniqueSets := (uniques ds).filter (·.length ≠ 1)
    columns := t.columns.mapIdx (flagged ds) }

variable {t u : Table} {ds : List KeyDeclaration} {d : KeyDeclaration} {l : List Nat} {i : Nat}
  {c : Column}

theorem getElem?_keyed (t : Table) (ds : List KeyDeclaration) (i : Nat) :
    (t.keyed ds).columns[i]? = (t.columns[i]?).map (flagged ds i) := by
  simp [keyed]

theorem exists_getElem?_keyed (ds : List KeyDeclaration) (hi : i < t.columns.length) :
    ∃ c, (t.keyed ds).columns[i]? = some (flagged ds i c) :=
  ⟨t.columns[i], by rw [getElem?_keyed, List.getElem?_eq_getElem hi, Option.map_some]⟩

/-- Without declarations a column that is part of no key is as it was. -/
theorem flagged_nil (hp : c.primaryKey = false) (hu : c.unique = false) : flagged [] i c = c := by
  obtain ⟨⟩ := c
  subst hp hu
  rfl

theorem keyed_nil (h : t.Keyless) : t.keyed [] = t := by
  have hcolumns : t.columns.mapIdx (flagged []) = t.columns := by
    apply List.ext_getElem?
    intro i
    rw [List.getElem?_mapIdx]
    cases hc : t.columns[i]? with
    | none => rfl
    | some c =>
      obtain ⟨hp, hu⟩ := h.flags c (List.mem_of_getElem? hc)
      rw [Option.map_some, flagged_nil hp hu]
  obtain ⟨hkey, hsets, -⟩ := h
  obtain ⟨⟩ := t
  subst hkey hsets
  unfold keyed
  rw [hcolumns]
  rfl

/-- A key of one column is a flag, which one more declaration sets. -/
theorem flagged_append (ds : List KeyDeclaration) (d : KeyDeclaration) (i : Nat) (c : Column) :
    flagged (ds ++ [d]) i c =
      { flagged ds i c with
        primaryKey := (flagged ds i c).primaryKey || decide (d = .primaryKey [i])
        unique := (flagged ds i c).unique || decide (d = .unique [i]) } := by
  simp [flagged, eq_comm]

/-- What a table accepts that has the keys of `ds`. -/
def Accepts (ds : List KeyDeclaration) : KeyDeclaration → Prop
  | .primaryKey l => key ds = [] ∧ ∀ u ∈ uniques ds, sameMembers u l = false
  | .unique l =>
    sameMembers (key ds) l = false ∧ (∀ i, l = [i] → i ∉ key ds) ∧
      ∀ u ∈ uniques ds, sameMembers u l = false

theorem sameMembers_singleton : sameMembers l [i] = true ↔ l = [i] := by
  rw [sameMembers_iff, List.perm_singleton]
  constructor
  · intro h
    exact h.2
  · rintro rfl
    exact ⟨List.cons_ne_nil _ _, rfl⟩

theorem forall_uniques_singleton :
    (∀ u ∈ uniques ds, sameMembers u [i] = false) ↔ .unique [i] ∉ ds := by
  rw [← mem_uniques]
  constructor
  · intro h hmem
    have hsame := sameMembers_singleton.2 (rfl : [i] = [i])
    rw [h _ hmem] at hsame
    cases hsame
  · intro h u hu
    rw [Bool.eq_false_iff, ne_eq, sameMembers_singleton]
    rintro rfl
    exact h hu

theorem hasPrimaryKey_keyed : (t.keyed ds).hasPrimaryKey = false ↔ key ds = [] := by
  rw [hasPrimaryKey_eq_false]
  constructor
  · intro h
    exact h.1
  · intro h
    refine ⟨h, fun c hc => ?_⟩
    obtain ⟨i, hi⟩ := List.mem_iff_getElem?.1 hc
    rw [getElem?_keyed] at hi
    obtain ⟨c', -, rfl⟩ := Option.map_eq_some_iff.1 hi
    -- A flag would be that of a key that is not empty.
    have hnot : .primaryKey [i] ∉ ds := by
      intro hmem
      have hi := mem_key_of_single hmem
      rw [h] at hi
      cases hi
    exact decide_eq_false hnot

theorem hasUniqueSet_keyed (hl : l.length ≠ 1) :
    (t.keyed ds).hasUniqueSet l = false ↔ ∀ u ∈ uniques ds, sameMembers u l = false := by
  rw [hasUniqueSet, List.any_eq_false]
  constructor
  · intro h u hu
    by_cases hlength : u.length = 1
    · rw [Bool.eq_false_iff]
      intro hsame
      have hperm := (sameMembers_iff.1 hsame).2
      have heq := hperm.length_eq
      omega
    · have hmem : u ∈ (t.keyed ds).uniqueSets := List.mem_filter.2 ⟨hu, by simpa using hlength⟩
      exact Bool.eq_false_iff.2 (h u hmem)
  · intro h u hu
    have hmem := (List.mem_filter.1 hu).1
    rw [h u hmem]
    exact Bool.false_ne_true

/-- One more declaration, where it is known what becomes of the columns. -/
theorem keyed_append {columns : List Column} (h : (t.keyed (ds ++ [d])).columns = columns) :
    t.keyed (ds ++ [d]) =
      { t.keyed ds with
        columns := columns
        primaryKey := (t.keyed ds).primaryKey ++ key [d]
        uniqueSets := (t.keyed ds).uniqueSets ++ (uniques [d]).filter (·.length ≠ 1) } := by
  subst h
  simp only [keyed, key, primaryKeys_append, uniques_append, List.flatten_append,
    List.filter_append]

theorem columns_append_primaryKey :
    (t.keyed (ds ++ [.primaryKey [i]])).columns =
      (t.keyed ds).columns.modify i ({ · with primaryKey := true }) := by
  apply List.ext_getElem?
  intro j
  rw [List.getElem?_modify, getElem?_keyed, getElem?_keyed]
  cases t.columns[j]? with
  | none => rfl
  | some c => by_cases hij : i = j <;> simp [flagged_append, hij]

theorem columns_append_unique :
    (t.keyed (ds ++ [.unique [i]])).columns =
      (t.keyed ds).columns.modify i ({ · with unique := true }) := by
  apply List.ext_getElem?
  intro j
  rw [List.getElem?_modify, getElem?_keyed, getElem?_keyed]
  cases t.columns[j]? with
  | none => rfl
  | some c => by_cases hij : i = j <;> simp [flagged_append, hij]

theorem columns_append_list (hl : d.indices.length ≠ 1) :
    (t.keyed (ds ++ [d])).columns = (t.keyed ds).columns := by
  have hp (j : Nat) : d ≠ .primaryKey [j] := by
    rintro rfl
    exact hl rfl
  have hu (j : Nat) : d ≠ .unique [j] := by
    rintro rfl
    exact hl rfl
  apply List.ext_getElem?
  intro j
  rw [getElem?_keyed, getElem?_keyed]
  cases t.columns[j]? with
  | none => rfl
  | some c => simp [flagged_append, hp, hu]

theorem setPrimaryKey_keyed_iff (hl : ∀ i ∈ l, i < t.columns.length) :
    (t.keyed ds).setPrimaryKey l = .ok u ↔
      Accepts ds (.primaryKey l) ∧ u = t.keyed (ds ++ [.primaryKey l]) := by
  by_cases h1 : l.length = 1
  · obtain ⟨i, rfl⟩ := List.length_eq_one_iff.1 h1
    obtain ⟨c, hc⟩ := exists_getElem?_keyed ds (hl i (List.mem_singleton_self i))
    have hflag : (∀ c, (t.keyed ds).columns[i]? = some c → c.unique = false) ↔
        .unique [i] ∉ ds := by
      rw [hc]
      simp [flagged]
    rw [setPrimaryKey_single_iff, hasPrimaryKey_keyed, hflag, ← forall_uniques_singleton,
      keyed_append columns_append_primaryKey, ← and_assoc]
    refine and_congr_right fun h => ?_
    have hkey : (t.keyed ds).primaryKey = [] := h.1
    simp [updateColumn, hkey, key, primaryKeys, uniques]
  · rw [setPrimaryKey_list_iff h1, hasPrimaryKey_keyed, hasUniqueSet_keyed h1,
      keyed_append (columns_append_list (d := .primaryKey l) h1), ← and_assoc]
    refine and_congr_right fun h => ?_
    have hkey : (t.keyed ds).primaryKey = [] := h.1
    simp [hkey, key, primaryKeys, uniques]

theorem accepts_unique_single_iff (c : Column) : Accepts ds (.unique [i]) ↔
    i ∉ key ds ∧ (flagged ds i c).primaryKey = false ∧ (flagged ds i c).unique = false := by
  simp only [Accepts, forall_uniques_singleton, flagged, decide_eq_false_iff_not]
  constructor
  · rintro ⟨-, hkey, hunique⟩
    have hi := hkey i rfl
    exact ⟨hi, fun hmem => hi (mem_key_of_single hmem), hunique⟩
  · rintro ⟨hi, -, hunique⟩
    refine ⟨?_, ?_, hunique⟩
    · rw [Bool.eq_false_iff, ne_eq, sameMembers_singleton]
      intro hkey
      have hmem : i ∈ key ds := by
        rw [hkey]
        exact List.mem_singleton_self i
      exact hi hmem
    · rintro j hj
      cases hj
      exact hi

theorem accepts_unique_list_iff (hl : l.length ≠ 1) : Accepts ds (.unique l) ↔
    sameMembers (key ds) l = false ∧ (t.keyed ds).hasUniqueSet l = false := by
  have hkey : ∀ i, l = [i] → i ∉ key ds := by
    rintro i rfl
    exact absurd rfl hl
  rw [hasUniqueSet_keyed hl]
  constructor
  · rintro ⟨hsame, -, hunique⟩
    exact ⟨hsame, hunique⟩
  · rintro ⟨hsame, hunique⟩
    exact ⟨hsame, hkey, hunique⟩

theorem addUnique_keyed_iff (hl : ∀ i ∈ l, i < t.columns.length) :
    (t.keyed ds).addUnique l = .ok u ↔
      Accepts ds (.unique l) ∧ u = t.keyed (ds ++ [.unique l]) := by
  have hkey : (t.keyed ds).primaryKey = key ds := rfl
  by_cases h1 : l.length = 1
  · obtain ⟨i, rfl⟩ := List.length_eq_one_iff.1 h1
    obtain ⟨c, hcolumn⟩ := exists_getElem?_keyed ds (hl i (List.mem_singleton_self i))
    rw [addUnique_single_iff hcolumn, hkey, accepts_unique_single_iff c,
      keyed_append columns_append_unique]
    simp [updateColumn, hkey, key, primaryKeys, uniques, and_assoc]
  · rw [addUnique_list_iff h1, hkey, accepts_unique_list_iff (t := t) h1,
      keyed_append (columns_append_list (d := .unique l) h1), and_assoc]
    simp [hkey, key, primaryKeys, uniques, h1]

/-- A table that has the keys of `ds` and accepts one more has that too. -/
theorem addKey_keyed_iff (hd : ∀ i ∈ d.indices, i < t.columns.length) :
    (t.keyed ds).addKey d = .ok u ↔ Accepts ds d ∧ u = t.keyed (ds ++ [d]) := by
  cases d with
  | primaryKey l => exact setPrimaryKey_keyed_iff hd
  | unique l => exact addUnique_keyed_iff hd

/-! ### All declarations accepted -/

/-- What has to hold of declared keys in whichever order they are declared. -/
structure Compatible (ds : List KeyDeclaration) : Prop where
  onePrimaryKey : (primaryKeys ds).length ≤ 1
  differ : (uniques ds).Pairwise fun u v => ¬ u.Perm v
  notPrimaryKey : ∀ u ∈ uniques ds, ∀ k ∈ primaryKeys ds, ¬ u.Perm k

/-- No unique column is declared behind a primary key of several columns that it is one of. -/
def InOrder (ds : List KeyDeclaration) : Prop :=
  ds.Pairwise fun d e => ∀ k i, d = .primaryKey k → 1 < k.length → e = .unique [i] → i ∉ k

theorem Compatible.perm {es : List KeyDeclaration} (h : Compatible ds) (hp : ds.Perm es) :
    Compatible es := by
  have hkeys : (primaryKeys ds).Perm (primaryKeys es) := hp.filterMap _
  have huniques : (uniques ds).Perm (uniques es) := hp.filterMap _
  constructor
  · rw [← hkeys.length_eq]
    exact h.onePrimaryKey
  · exact (huniques.pairwise_iff fun hne he => hne he.symm).1 h.differ
  · intro u hu k hk
    exact h.notPrimaryKey u (huniques.mem_iff.2 hu) k (hkeys.mem_iff.2 hk)

theorem sameMembers_eq_false {k : List Nat} (hk : k ≠ []) :
    sameMembers k l = false ↔ ¬ k.Perm l := by
  rw [Bool.eq_false_iff, ne_eq, sameMembers_iff, and_iff_right hk]

theorem key_eq_nil_iff (hds : ∀ d ∈ ds, d.indices ≠ []) : key ds = [] ↔ primaryKeys ds = [] := by
  constructor
  · intro h
    apply List.eq_nil_iff_forall_not_mem.2
    intro k hk
    have hnil := List.flatten_eq_nil_iff.1 h k hk
    exact hds _ (mem_primaryKeys.1 hk) hnil
  · intro h
    rw [key, h]
    rfl

theorem inOrder_append_iff : InOrder (ds ++ [d]) ↔
    InOrder ds ∧ ∀ k ∈ primaryKeys ds, 1 < k.length → ∀ i, d = .unique [i] → i ∉ k := by
  rw [InOrder, List.pairwise_append]
  constructor
  · rintro ⟨horder, -, hlast⟩
    refine ⟨horder, fun k hk hlength i hd => ?_⟩
    exact hlast _ (mem_primaryKeys.1 hk) d (List.mem_singleton_self d) k i rfl hlength hd
  · rintro ⟨horder, hlast⟩
    refine ⟨horder, List.pairwise_singleton _ _, ?_⟩
    rintro e he d' hd' k i rfl hlength rfl
    obtain rfl := List.mem_singleton.1 hd'
    exact hlast k (mem_primaryKeys.2 he) hlength i rfl

/-- A primary key goes together with declarations that a table has accepted where it is accepted
itself. -/
theorem compatible_append_primaryKey (hds : ∀ d ∈ ds, d.indices ≠ []) (hc : Compatible ds) :
    Compatible (ds ++ [.primaryKey l]) ↔ Accepts ds (.primaryKey l) := by
  have hkeys : primaryKeys (ds ++ [.primaryKey l]) = primaryKeys ds ++ [l] := primaryKeys_append
  have huniques : uniques (ds ++ [.primaryKey l]) = uniques ds :=
    uniques_append.trans (List.append_nil _)
  have hne {u : List Nat} (hu : u ∈ uniques ds) : u ≠ [] := hds _ (mem_uniques.1 hu)
  rw [Accepts, key_eq_nil_iff hds]
  constructor
  · intro h
    have hlength := h.onePrimaryKey
    rw [hkeys, List.length_append, List.length_singleton] at hlength
    refine ⟨List.eq_nil_of_length_eq_zero (by omega), fun u hu => ?_⟩
    rw [sameMembers_eq_false (hne hu)]
    apply h.notPrimaryKey u (huniques ▸ hu)
    rw [hkeys]
    exact List.mem_append_right _ (List.mem_singleton_self l)
  · rintro ⟨hnone, hunique⟩
    rw [hnone, List.nil_append] at hkeys
    constructor
    · rw [hkeys]
      exact Nat.le_refl 1
    · rw [huniques]
      exact hc.differ
    · rw [hkeys, huniques]
      intro u hu k hk
      obtain rfl := List.mem_singleton.1 hk
      exact (sameMembers_eq_false (hne hu)).1 (hunique u hu)

/-- A unique constraint goes together with declarations that a table has accepted where it is a
permutation of none of them. -/
theorem compatible_append_unique_iff (hds : ∀ d ∈ ds, d.indices ≠ []) (hc : Compatible ds) :
    Compatible (ds ++ [.unique l]) ↔
      (∀ k ∈ primaryKeys ds, ¬ l.Perm k) ∧ ∀ u ∈ uniques ds, sameMembers u l = false := by
  have hkeys : primaryKeys (ds ++ [.unique l]) = primaryKeys ds :=
    primaryKeys_append.trans (List.append_nil _)
  have huniques : uniques (ds ++ [.unique l]) = uniques ds ++ [l] := uniques_append
  have hne {u : List Nat} (hu : u ∈ uniques ds) : u ≠ [] := hds _ (mem_uniques.1 hu)
  constructor
  · intro h
    have hlast : l ∈ uniques (ds ++ [.unique l]) := by simp [huniques]
    have hdiffer := h.differ
    rw [huniques, List.pairwise_append] at hdiffer
    refine ⟨fun k hk => h.notPrimaryKey l hlast k (hkeys ▸ hk), fun u hu => ?_⟩
    exact (sameMembers_eq_false (hne hu)).2 (hdiffer.2.2 u hu l (List.mem_singleton_self l))
  · rintro ⟨hkey, hunique⟩
    constructor
    · rw [hkeys]
      exact hc.onePrimaryKey
    · rw [huniques, List.pairwise_append]
      refine ⟨hc.differ, List.pairwise_singleton _ _, fun u hu v hv => ?_⟩
      obtain rfl := List.mem_singleton.1 hv
      exact (sameMembers_eq_false (hne hu)).1 (hunique u hu)
    · rw [huniques, hkeys]
      intro u hu
      rcases List.mem_append.1 hu with hu | hu
      · exact hc.notPrimaryKey u hu
      · obtain rfl := List.mem_singleton.1 hu
        exact hkey

theorem Compatible.primaryKeys_eq (h : Compatible ds) :
    primaryKeys ds = [] ∧ key ds = [] ∨ primaryKeys ds = [key ds] := by
  have hone := h.onePrimaryKey
  unfold key
  generalize primaryKeys ds = keys at hone ⊢
  rcases keys with _ | ⟨k, _ | ⟨k', rest⟩⟩
  · exact .inl ⟨rfl, rfl⟩
  · exact .inr (by rw [List.flatten_singleton])
  · rw [List.length_cons, List.length_cons] at hone
    omega

/-- The list of one column is a permutation of a key of this column alone. -/
theorem notMem_of_not_perm {k : List Nat} (hp : ¬ l.Perm k) :
    (1 < k.length → ∀ i, l = [i] → i ∉ k) ↔ ∀ i, l = [i] → i ∉ k := by
  constructor
  · intro h i hi hmem
    have hlength : ¬ k.length = 1 := by
      intro h1
      obtain ⟨j, rfl⟩ := List.length_eq_one_iff.1 h1
      obtain rfl := List.mem_singleton.1 hmem
      exact hp (List.Perm.of_eq hi)
    have hpos := List.length_pos_of_mem hmem
    exact h (by omega) i hi hmem
  · intro h _
    exact h

/-- A table accepts it there, unless it is one column of a primary key of several. -/
theorem compatible_append_unique (hds : ∀ d ∈ ds, d.indices ≠ []) (hc : Compatible ds) :
    (Compatible (ds ++ [.unique l]) ∧
      ∀ k ∈ primaryKeys ds, 1 < k.length → ∀ i, .unique l = unique [i] → i ∉ k) ↔
      Accepts ds (.unique l) := by
  rw [compatible_append_unique_iff hds hc, Accepts]
  rcases hc.primaryKeys_eq with ⟨hk, hkey⟩ | hk
  · simp [hk, hkey, sameMembers]
  · have hmem : key ds ∈ primaryKeys ds := by
      rw [hk]
      exact List.mem_singleton_self (key ds)
    have hnil : key ds ≠ [] := hds _ (mem_primaryKeys.1 hmem)
    rw [hk, sameMembers_eq_false hnil, List.perm_comm, List.forall_mem_singleton,
      List.forall_mem_singleton]
    simp only [KeyDeclaration.unique.injEq]
    constructor
    · rintro ⟨⟨hp, hunique⟩, horder⟩
      exact ⟨hp, (notMem_of_not_perm hp).1 horder, hunique⟩
    · rintro ⟨hp, horder, hunique⟩
      exact ⟨⟨hp, hunique⟩, (notMem_of_not_perm hp).2 horder⟩

theorem Compatible.of_append {es : List KeyDeclaration} (h : Compatible (ds ++ es)) :
    Compatible ds := by
  obtain ⟨hone, hdiffer, hkey⟩ := h
  rw [primaryKeys_append, List.length_append] at hone
  rw [uniques_append] at hdiffer hkey
  rw [primaryKeys_append] at hkey
  refine ⟨by omega, (List.pairwise_append.1 hdiffer).1, fun u hu k hk => ?_⟩
  exact hkey u (List.mem_append_left _ hu) k (List.mem_append_left _ hk)

/-- What a table accepts after `ds` is what may be declared behind them. -/
theorem compatible_inOrder_append_iff (hds : ∀ d ∈ ds, d.indices ≠ []) :
    Compatible (ds ++ [d]) ∧ InOrder (ds ++ [d]) ↔
      (Compatible ds ∧ InOrder ds) ∧ Accepts ds d := by
  rw [inOrder_append_iff]
  cases d with
  | primaryKey l =>
    constructor
    · rintro ⟨h, horder, -⟩
      have hc := h.of_append
      exact ⟨⟨hc, horder⟩, (compatible_append_primaryKey hds hc).1 h⟩
    · rintro ⟨⟨hc, horder⟩, haccepts⟩
      refine ⟨(compatible_append_primaryKey hds hc).2 haccepts, horder, ?_⟩
      intro k _ _ i hd
      cases hd
  | unique l =>
    constructor
    · rintro ⟨h, horder, hlast⟩
      have hc := h.of_append
      exact ⟨⟨hc, horder⟩, (compatible_append_unique hds hc).1 ⟨h, hlast⟩⟩
    · rintro ⟨⟨hc, horder⟩, haccepts⟩
      obtain ⟨h, hlast⟩ := (compatible_append_unique hds hc).2 haccepts
      exact ⟨h, horder, hlast⟩

theorem addKeys_append (t : Table) (ds : List KeyDeclaration) (d : KeyDeclaration) :
    t.addKeys (ds ++ [d]) = t.addKeys ds >>= fun v => v.addKey d := by
  simp [addKeys, List.foldlM_append]

/-- Declarations are all accepted where they go together and come in order. -/
theorem addKeys_eq_ok (ht : t.Keyless)
    (hds : ∀ d ∈ ds, d.indices ≠ [] ∧ ∀ i ∈ d.indices, i < t.columns.length) :
    t.addKeys ds = .ok u ↔ (Compatible ds ∧ InOrder ds) ∧ u = t.keyed ds := by
  induction ds using List.reverseRecOn generalizing u with
  | nil =>
    have hcompatible : Compatible [] ∧ InOrder [] :=
      ⟨⟨Nat.zero_le 1, List.Pairwise.nil, fun u hu => by cases hu⟩, List.Pairwise.nil⟩
    rw [and_iff_right hcompatible, keyed_nil ht]
    constructor
    · intro h
      cases h
      rfl
    · rintro rfl
      rfl
  | append_singleton ds d ih =>
    have hinit := fun e he => hds e (List.mem_append_left _ he)
    have hlast := hds d (List.mem_append_right _ (List.mem_singleton_self d))
    rw [compatible_inOrder_append_iff fun e he => (hinit e he).1, addKeys_append, and_assoc,
      ← addKey_keyed_iff hlast.2]
    cases hv : t.addKeys ds with
    | error e =>
      have hnot : ¬ (Compatible ds ∧ InOrder ds) := by
        intro h
        rw [(ih hinit).2 ⟨h, rfl⟩] at hv
        cases hv
      constructor
      · intro h
        cases h
      · rintro ⟨h, -⟩
        exact absurd h hnot
    | ok v =>
      obtain ⟨h, rfl⟩ := (ih hinit).1 hv
      exact (and_iff_right h).symm

/-- Keys that are declared one after the other are all accepted where they go together, which does
not depend on their order, and where no column of a primary key of several is declared unique
behind it. The table then has these keys and no others. -/
theorem keys_accepted_iff (t : Table) (ds : List KeyDeclaration) (ht : t.Keyless)
    (hds : ∀ d ∈ ds, d.indices ≠ [] ∧ ∀ i ∈ d.indices, i < t.columns.length) :
    ((∃ u, t.addKeys ds = .ok u) ↔ Compatible ds ∧ InOrder ds) ∧
      (∀ es, es.Perm ds → (Compatible es ↔ Compatible ds)) ∧
      ∀ u, t.addKeys ds = .ok u →
        (primaryKeys ds = [] ∧ u.primaryKey = [] ∨ primaryKeys ds = [u.primaryKey]) ∧
        u = { t with
          primaryKey := u.primaryKey
          uniqueSets := (uniques ds).filter (1 < ·.length)
          columns := t.columns.mapIdx fun i c =>
            { c with
              primaryKey := decide (.primaryKey [i] ∈ ds)
              unique := decide (.unique [i] ∈ ds) } } := by
  refine ⟨?_, fun es hperm => ⟨fun h => h.perm hperm, fun h => h.perm hperm.symm⟩, ?_⟩
  · constructor
    · rintro ⟨u, hu⟩
      exact ((addKeys_eq_ok ht hds).1 hu).1
    · intro h
      exact ⟨_, (addKeys_eq_ok ht hds).2 ⟨h, rfl⟩⟩
  · intro u hu
    obtain ⟨⟨hcompatible, -⟩, rfl⟩ := (addKeys_eq_ok ht hds).1 hu
    have hsets : (uniques ds).filter (·.length ≠ 1) = (uniques ds).filter (1 < ·.length) := by
      apply List.filter_congr
      intro l hl
      have hpos : 0 < l.length := List.length_pos_iff.2 (hds _ (mem_uniques.1 hl)).1
      exact decide_eq_decide.2 (by omega)
    refine ⟨hcompatible.primaryKeys_eq, ?_⟩
    rw [← hsets]
    rfl

/-- Two columns, of which the first is unique by itself and the two are the key together. -/
theorem keys_accepted_unique_first :
    let t := ((named 0 "t").addColumn "a" "INT").addColumn "b" "INT"
    (∃ u, t.addKeys [.unique [0], .primaryKey [0, 1]] = .ok u) ∧
      ¬ ∃ u, t.addKeys [.primaryKey [0, 1], .unique [0]] = .ok u := by
  intro t
  have ht : t.Keyless := ⟨rfl, rfl, by decide⟩
  have hds : ∀ d ∈ [KeyDeclaration.unique [0], .primaryKey [0, 1]], d.indices ≠ [] ∧
      ∀ i ∈ d.indices, i < t.columns.length := by decide
  have hes : ∀ d ∈ [KeyDeclaration.primaryKey [0, 1], .unique [0]], d.indices ≠ [] ∧
      ∀ i ∈ d.indices, i < t.columns.length := by decide
  constructor
  · refine (keys_accepted_iff t _ ht hds).1.2 ⟨⟨by decide, by decide, by decide⟩, ?_⟩
    simp [InOrder]
  · intro h
    have horder := ((keys_accepted_iff t _ ht hes).1.1 h).2
    simp [InOrder] at horder

end Table
end SqliteSchema
