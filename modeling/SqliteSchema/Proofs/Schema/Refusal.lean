import SqliteSchema.Proofs.Schema.Declaration
import SqliteSchema.Proofs.Update

/-!
Keys that are declared one after the other, of which some may be refused. The table is unique by
what it has accepted. A call reads and writes the table one field at a time and may be refused
halfway; it is given in this form too, to see that it leaves no trace then.
-/
namespace SqliteSchema.Table

open KeyDeclaration Update

variable {t : Table} {ds : List KeyDeclaration} {d : KeyDeclaration} {l : List Nat}

def assignPrimaryKey (indices : List Nat) : Update KeyConflict Table Unit := do
  if (← get).hasPrimaryKey then throw .primaryKeyExists
  match indices with
  | [index] =>
    if let some c := ((← get).columns[index]?).filter (·.unique) then
      throw (.alreadyUnique c.sqlName)
    modify (·.updateColumn index ({ · with primaryKey := true }))
  | _ => if (← get).hasUniqueSet indices then throw .matchesUnique
  modify ({ · with primaryKey := indices })

def assignUnique (indices : List Nat) : Update KeyConflict Table Unit := do
  if sameMembers (← get).primaryKey indices then throw .matchesPrimaryKey
  match indices with
  | [index] =>
    let inPrimaryKey := (← get).primaryKey.contains index
    if let some c := (← get).columns[index]? then
      if c.primaryKey then throw .matchesPrimaryKey
      if inPrimaryKey then throw (.inPrimaryKey c.sqlName)
      if c.unique then throw (.alreadyUnique c.sqlName)
      modify (·.updateColumn index ({ · with unique := true }))
  | _ =>
    if (← get).hasUniqueSet indices then throw .matchesUnique
    modify fun t => { t with uniqueSets := t.uniqueSets ++ [indices] }

def assign : KeyDeclaration → Update KeyConflict Table Unit
  | .primaryKey l => assignPrimaryKey l
  | .unique l => assignUnique l

/-- Each declaration is tried on what the one before has left behind. The accepted ones and the
table. -/
def attempt : List KeyDeclaration → Table → List KeyDeclaration × Table
  | [], t => ([], t)
  | d :: ds, t =>
    match assign d t with
    | .ok () u => (d :: (attempt ds u).1, (attempt ds u).2)
    | .error _ u => attempt ds u

theorem assignPrimaryKey_eq (t : Table) (indices : List Nat) :
    assignPrimaryKey indices t = outcome t (t.setPrimaryKey indices) := by
  unfold assignPrimaryKey setPrimaryKey
  rw [get_bind]
  cases t.hasPrimaryKey with
  | true => rfl
  | false =>
    simp only [Bool.false_eq_true, if_false]
    rcases indices with _ | ⟨i, _ | ⟨j, rest⟩⟩
    · dsimp only
      rw [get_bind]
      cases t.hasUniqueSet [] <;> rfl
    · dsimp only
      rw [get_bind]
      cases (t.columns[i]?).filter (·.unique) <;> rfl
    · dsimp only
      rw [get_bind]
      cases t.hasUniqueSet (i :: j :: rest) <;> rfl

theorem assignUnique_eq (t : Table) (indices : List Nat) :
    assignUnique indices t = outcome t (t.addUnique indices) := by
  unfold assignUnique addUnique
  rw [get_bind]
  cases sameMembers t.primaryKey indices with
  | true => rfl
  | false =>
    simp only [Bool.false_eq_true, if_false]
    rcases indices with _ | ⟨i, _ | ⟨j, rest⟩⟩
    · dsimp only
      rw [get_bind]
      cases t.hasUniqueSet [] <;> rfl
    · dsimp only
      unfold addUniqueColumn
      rw [get_bind, get_bind]
      cases t.columns[i]? with
      | none => rfl
      | some c =>
        cases hp : c.primaryKey with
        | true => simp only [hp]; rfl
        | false =>
          cases t.primaryKey.contains i with
          | true => simp only [hp]; rfl
          | false => cases hu : c.unique <;> simp only [hp, hu] <;> rfl
    · dsimp only
      rw [get_bind]
      cases t.hasUniqueSet (i :: j :: rest) <;> rfl

theorem assign_eq (d : KeyDeclaration) (t : Table) : assign d t = outcome t (t.addKey d) := by
  cases d with
  | primaryKey l => exact assignPrimaryKey_eq t l
  | unique l => exact assignUnique_eq t l

/-- Only the last of the declared primary keys has columns. An empty one is accepted too and does
not stand in the way of the next. -/
def OnlyLast (ds : List KeyDeclaration) : Prop := (primaryKeys ds).Pairwise fun k _ => k = []

theorem flatten_eq_iff {keys : List (List Nat)} (h : keys.Pairwise fun k _ => k = [])
    (hl : l ≠ []) : keys.flatten = l ↔ l ∈ keys := by
  induction h with
  | nil =>
    constructor
    · intro h
      exact absurd h.symm hl
    · intro h
      cases h
  | @cons k keys hk hkeys ih =>
    cases keys with
    | nil => rw [List.flatten_singleton, List.mem_singleton, eq_comm]
    | cons k' keys =>
      obtain rfl : k = [] := hk k' List.mem_cons_self
      have hmem : l ∈ [] :: k' :: keys ↔ l ∈ k' :: keys := List.mem_cons.trans (or_iff_right hl)
      rw [List.flatten_cons, List.nil_append, ih, hmem]

theorem OnlyLast.key_eq_iff (h : OnlyLast ds) (hl : l ≠ []) :
    key ds = l ↔ .primaryKey l ∈ ds := by
  rw [key, flatten_eq_iff h hl, mem_primaryKeys]

theorem OnlyLast.append (h : OnlyLast ds) (hd : Accepts ds d) : OnlyLast (ds ++ [d]) := by
  rw [OnlyLast, primaryKeys_append]
  cases d with
  | unique l =>
    rw [show primaryKeys [KeyDeclaration.unique l] = [] from rfl, List.append_nil]
    exact h
  | primaryKey l =>
    refine List.pairwise_append.2 ⟨h, List.pairwise_singleton _ _, fun k hk _ _ => ?_⟩
    exact List.flatten_eq_nil_iff.1 hd.1 k hk

/-- The table has the keys that were accepted, and what it accepts next depends on nothing else. -/
theorem attempt_keyed (prior : List KeyDeclaration) (hprior : OnlyLast prior)
    (hds : ∀ d ∈ ds, ∀ i ∈ d.indices, i < t.columns.length) :
    ∃ accepted, attempt ds (t.keyed prior) = (accepted, t.keyed (prior ++ accepted)) ∧
      OnlyLast (prior ++ accepted) := by
  induction ds generalizing prior with
  | nil => exact ⟨[], by rw [List.append_nil]; rfl, by rwa [List.append_nil]⟩
  | cons d ds ih =>
    obtain ⟨hd, hds⟩ := List.forall_mem_cons.1 hds
    rw [attempt, assign_eq]
    cases h : (t.keyed prior).addKey d with
    | error e => exact ih prior hprior hds
    | ok u =>
      obtain ⟨haccepts, rfl⟩ := (addKey_keyed_iff hd).1 h
      obtain ⟨accepted, hrest, hlast⟩ := ih (prior ++ [d]) (hprior.append haccepts) hds
      rw [List.append_assoc] at hrest hlast
      exact ⟨d :: accepted, by simp only [outcome, hrest]; rfl, hlast⟩

theorem isUniqueBy_keyed (hds : OnlyLast ds) (hl : ∀ i ∈ l, i < t.columns.length) :
    (t.keyed ds).isUniqueBy l = true ↔ l ≠ [] ∧ ∃ d ∈ ds, d.indices.Perm l := by
  rw [isUniqueBy_iff]
  refine and_congr_right fun hne => ?_
  constructor
  · rintro (⟨i, rfl, hcolumn⟩ | hkey | ⟨u, hu, hperm⟩)
    · obtain ⟨c, hc, hflag⟩ := isKeyColumn_iff.1 hcolumn
      rw [getElem?_keyed] at hc
      obtain ⟨c', -, rfl⟩ := Option.map_eq_some_iff.1 hc
      rcases hflag with hunique | hprimary
      · exact ⟨_, of_decide_eq_true hunique, .refl _⟩
      · exact ⟨_, of_decide_eq_true hprimary, .refl _⟩
    · have hkeyne : key ds ≠ [] := by
        intro h
        rw [show (t.keyed ds).primaryKey = key ds from rfl, h] at hkey
        exact hne (List.nil_perm.1 hkey)
      exact ⟨_, (hds.key_eq_iff hkeyne).1 rfl, hkey⟩
    · exact ⟨_, mem_uniques.1 (List.mem_filter.1 hu).1, hperm⟩
  · rintro ⟨k | u, hd, hperm⟩
    · have hk : k ≠ [] := by
        rintro rfl
        exact hne (List.nil_perm.1 hperm)
      have hkey : (t.keyed ds).primaryKey = k := (hds.key_eq_iff hk).2 hd
      rw [hkey]
      exact .inr (.inl hperm)
    · by_cases hlength : u.length = 1
      · obtain ⟨i, rfl⟩ := List.length_eq_one_iff.1 hlength
        obtain rfl := List.singleton_perm.1 hperm
        obtain ⟨c, hc⟩ := exists_getElem?_keyed ds (hl i (List.mem_singleton_self i))
        exact .inl ⟨i, rfl, isKeyColumn_iff.2 ⟨_, hc, .inl (decide_eq_true hd)⟩⟩
      · refine .inr (.inr ⟨u, List.mem_filter.2 ⟨mem_uniques.2 hd, ?_⟩, hperm⟩)
        exact decide_eq_true hlength

/-- Whatever is declared on a table without keys, in range, and whatever of it is refused: the table
is unique by the columns of the accepted declarations and by no others. A refused declaration
leaves the table as it was. -/
theorem isUniqueBy_attempt_iff (t : Table) (ds : List KeyDeclaration) (ht : t.Keyless)
    (hds : ∀ d ∈ ds, ∀ i ∈ d.indices, i < t.columns.length) :
    (∀ l : List Nat, (∀ i ∈ l, i < t.columns.length) →
      ((attempt ds t).2.isUniqueBy l = true ↔
        l ≠ [] ∧ ∃ d ∈ (attempt ds t).1, d.indices.Perm l)) ∧
      ∀ (d : KeyDeclaration) (u : Table),
        match assign d u with
        | .ok () v => u.addKey d = .ok v
        | .error e v => u.addKey d = .error e ∧ v = u := by
  constructor
  · intro l hl
    obtain ⟨accepted, h, hlast⟩ := attempt_keyed [] List.Pairwise.nil hds
    rw [keyed_nil ht, List.nil_append] at h
    rw [h]
    exact isUniqueBy_keyed hlast hl
  · intro d u
    rw [assign_eq]
    cases u.addKey d with
    | ok v => rfl
    | error e => exact ⟨rfl, rfl⟩

/-- A primary key without columns is accepted and lost; one that repeats a column is not one of the
column. -/
theorem isUniqueBy_attempt_repeated :
    let t := ((named 0 "t").addColumn "a" "INT").addColumn "b" "INT"
    let ds : List KeyDeclaration :=
      [.primaryKey [], .primaryKey [0, 0], .unique [0], .unique [1], .primaryKey [1]]
    (attempt ds t).1 = [.primaryKey [], .primaryKey [0, 0], .unique [1]] ∧
      (attempt ds t).2.isUniqueBy [0] = false ∧ (attempt ds t).2.isUniqueBy [1] = true := by
  intro t ds
  have h := (isUniqueBy_attempt_iff t ds ⟨rfl, rfl, by decide⟩ (by decide)).1
  have haccepted : (attempt ds t).1 = [.primaryKey [], .primaryKey [0, 0], .unique [1]] := by
    decide
  refine ⟨haccepted, ?_, ?_⟩
  · rw [Bool.eq_false_iff, ne_eq, h [0] (by decide), haccepted]
    decide
  · rw [h [1] (by decide), haccepted]
    decide

end SqliteSchema.Table
