import SqliteSchema.Proofs.Schema.Mirror

/-!
What the constraints of a column do to its table. Each of them marks the column or adds a foreign
key, and one of them at most makes the column a key. So they come to the same in any order, up to
the order of the foreign keys, unless two of them name a collation.
-/
namespace SqliteSchema

/-- What a constraint of a column says. -/
inductive Effect
  | nothing
  | notNull
  | primaryKey (autoIncrement : Bool)
  | unique
  | collate (name : String)
  | reference (key : ForeignKey)
  deriving DecidableEq, Repr

namespace Effect

/-- The table whose column with this index gets the constraint. -/
def apply (index : Nat) (t : Table) : Effect → Except KeyConflict Table
  | nothing => .ok t
  | notNull => .ok (t.updateColumn index ({ · with notNull := true }))
  | primaryKey autoIncrement => do
    let t ← t.setPrimaryKey [index]
    if autoIncrement then return t.updateColumn index ({ · with autoIncrement := true })
    else return t
  | unique => t.addUnique [index]
  | collate name => .ok (t.updateColumn index ({ · with collation := some name }))
  | reference key => .ok { t with foreignKeys := t.foreignKeys ++ [key] }

def applyAll (index : Nat) (t : Table) (es : List Effect) : Except KeyConflict Table :=
  es.foldlM (apply index) t

/-- What the column becomes. -/
def mark (c : Column) : Effect → Column
  | notNull => { c with notNull := true }
  | primaryKey autoIncrement =>
    { c with primaryKey := true, autoIncrement := c.autoIncrement || autoIncrement }
  | unique => { c with unique := true }
  | collate name => { c with collation := some name }
  | _ => c

def isPrimary : Effect → Bool
  | primaryKey _ => true
  | _ => false

/-- The column becomes a key. -/
def isKey : Effect → Bool
  | primaryKey _ | unique => true
  | _ => false

def isCollation : Effect → Bool
  | collate _ => true
  | _ => false

def key? : Effect → Option ForeignKey
  | reference key => some key
  | _ => none

/-- The table accepts the constraint on its column `c`. -/
def Admitted (index : Nat) (t : Table) (c : Column) : Effect → Prop
  | primaryKey _ => t.hasPrimaryKey = false ∧ c.unique = false
  | unique => index ∉ t.primaryKey ∧ c.primaryKey = false ∧ c.unique = false
  | _ => True

end Effect

/-- The table with all that these constraints of a column say. -/
def Table.marked (t : Table) (index : Nat) (es : List Effect) : Table :=
  { t with
    columns := t.columns.modify index (es.foldl Effect.mark ·)
    primaryKey := if es.any Effect.isPrimary then [index] else t.primaryKey
    foreignKeys := t.foreignKeys ++ es.filterMap Effect.key? }

/-! ### What is left alone -/

/-- The column without what its constraints say. -/
def Column.outline (c : Column) : Column :=
  { c with
    notNull := false
    primaryKey := false
    autoIncrement := false
    unique := false
    collation := none }

/-- The table without its keys and without what the constraints of its columns say. -/
def Table.outline (t : Table) : Table :=
  { t with columns := t.columns.map Column.outline, primaryKey := [], foreignKeys := [] }

namespace Effect

variable {index : Nat} {t t' : Table} {c : Column} {e e' : Effect} {es es' : List Effect}

theorem outline_mark (e : Effect) (c : Column) : (e.mark c).outline = c.outline := by
  cases e <;> rfl

theorem outline_marked (t : Table) (index : Nat) (es : List Effect) :
    (t.marked index es).outline = t.outline := by
  have hall (c : Column) : (es.foldl mark c).outline = c.outline := by
    induction es generalizing c with
    | nil => rfl
    | cons e es ih => rw [List.foldl_cons, ih, outline_mark]
  change { t with columns := (t.columns.modify index _).map _, primaryKey := [], foreignKeys := [] }
    = t.outline
  rw [Table.map_modify_of_eq hall]
  rfl

/-! ### One constraint -/

theorem marked_singleton (t : Table) (index : Nat) (e : Effect) : t.marked index [e] =
    { t.updateColumn index e.mark with
      primaryKey := if e.isPrimary then [index] else t.primaryKey
      foreignKeys := t.foreignKeys ++ e.key?.toList } := by
  cases e <;> rfl

theorem apply_primaryKey {autoIncrement : Bool} :
    (primaryKey autoIncrement).apply index t = .ok t' ↔ ∃ u, t.setPrimaryKey [index] = .ok u ∧
      t' = if autoIncrement then u.updateColumn index ({ · with autoIncrement := true })
        else u := by
  unfold apply
  cases t.setPrimaryKey [index] with
  | error conflict => simp [bind, Except.bind]
  | ok u => cases autoIncrement <;> simp [bind, Except.bind, pure, Except.pure, eq_comm]

theorem apply_eq_ok (hc : t.columns[index]? = some c) :
    e.apply index t = .ok t' ↔ e.Admitted index t c ∧ t' = t.marked index [e] := by
  have hsame : t.columns.modify index (fun c => c) = t.columns := List.modify_id index t.columns
  have hok {u : Table} : (Except.ok u : Except KeyConflict Table) = .ok t' ↔ t' = u := by
    rw [Except.ok.injEq, eq_comm]
  rw [marked_singleton]
  cases e with
  | nothing => simp [apply, Admitted, mark, isPrimary, key?, Table.updateColumn, hok, hsame]
  | notNull => simp [apply, Admitted, mark, isPrimary, key?, Table.updateColumn, hok]
  | primaryKey autoIncrement =>
    cases autoIncrement <;> simp [apply_primaryKey, Table.setPrimaryKey_single_iff, hc, Admitted,
      mark, isPrimary, key?, Table.updateColumn, and_assoc, List.modify_modify_eq,
      Function.comp_def]
  | unique =>
    simp [apply, Admitted, mark, isPrimary, key?, Table.updateColumn,
      Table.addUnique_single_iff hc, and_assoc]
  | collate name => simp [apply, Admitted, mark, isPrimary, key?, Table.updateColumn, hok]
  | reference key => simp [apply, Admitted, mark, isPrimary, key?, Table.updateColumn, hok, hsame]

/-- What a constraint says does not change the outline. -/
theorem outline_of_apply (hindex : index < t.columns.length) (h : e.apply index t = .ok t') :
    t'.outline = t.outline ∧ t'.columns.length = t.columns.length := by
  obtain ⟨-, rfl⟩ := (apply_eq_ok (List.getElem?_eq_getElem hindex)).1 h
  exact ⟨outline_marked t index [e], List.length_modify _ _ _⟩

theorem getElem?_marked (hc : t.columns[index]? = some c) :
    (t.marked index [e]).columns[index]? = some (e.mark c) := by
  simp [Table.marked, hc]

theorem hasPrimaryKey_marked (t : Table) (index : Nat) (e : Effect) :
    (t.marked index [e]).hasPrimaryKey = (e.isPrimary || t.hasPrimaryKey) := by
  rw [marked_singleton, Table.hasPrimaryKey, Table.hasPrimaryKey]
  cases hp : e.isPrimary with
  | true => rfl
  | false =>
    have hflag (c : Column) : (e.mark c).primaryKey = c.primaryKey := by
      cases e with
      | primaryKey autoIncrement => cases hp
      | _ => rfl
    have hany : (t.columns.modify index e.mark).any (·.primaryKey) =
        t.columns.any (·.primaryKey) := by
      simpa only [List.any_map, Function.id_comp] using
        congrArg (·.any id) (Table.map_modify_of_eq (l := t.columns) (i := index) hflag)
    exact congrArg (!t.primaryKey.isEmpty || ·) hany

/-- What was accepted stays acceptable, but for a second key. -/
theorem admitted_marked :
    e'.Admitted index (t.marked index [e]) (e.mark c) ↔
      e'.Admitted index t c ∧ ¬ (e.isKey = true ∧ e'.isKey = true) := by
  have hprimary := hasPrimaryKey_marked t index e
  cases e' with
  | primaryKey autoIncrement =>
    rw [Admitted, Admitted, hprimary]
    cases e <;> simp [isPrimary, isKey, mark]
  | unique =>
    cases e <;> simp [Admitted, isPrimary, isKey, mark, marked_singleton, Table.updateColumn]
  | _ => simp [Admitted, isKey]

/-! ### All constraints of a column -/

theorem marked_nil (t : Table) (index : Nat) : t.marked index [] = t := by
  have hcolumns : t.columns.modify index (fun c => c) = t.columns := List.modify_id index t.columns
  simp [Table.marked, hcolumns]

theorem marked_marked (t : Table) (index : Nat) (e : Effect) (es : List Effect) :
    (t.marked index [e]).marked index es = t.marked index (e :: es) := by
  simp only [Table.marked, Table.mk.injEq, true_and, and_true]
  refine ⟨List.modify_modify_eq _ _ _ _, ?_, ?_⟩
  · cases hp : e.isPrimary <;> simp [hp]
  · rw [List.append_assoc, ← List.filterMap_append, List.singleton_append]

theorem applyAll_cons : applyAll index t (e :: es) = .ok t' ↔
    ∃ u, e.apply index t = .ok u ∧ applyAll index u es = .ok t' := by
  unfold applyAll
  rw [List.foldlM_cons]
  cases e.apply index t with
  | error conflict => simp [bind, Except.bind]
  | ok u => simp [bind, Except.bind]

/-- Constraints are accepted together if each of them is accepted alone and there is no second
key. -/
theorem applyAll_eq_ok (hc : t.columns[index]? = some c) :
    applyAll index t es = .ok t' ↔
      (∀ e ∈ es, e.Admitted index t c) ∧ es.countP isKey ≤ 1 ∧ t' = t.marked index es := by
  induction es generalizing t c with
  | nil =>
    simp [applyAll, marked_nil, pure, Except.pure, eq_comm]
  | cons e es ih =>
    have hkeys : (∀ e' ∈ es, ¬ (e.isKey = true ∧ e'.isKey = true)) ∧ es.countP isKey ≤ 1 ↔
        (e :: es).countP isKey ≤ 1 := by
      rw [List.countP_cons]
      cases he : e.isKey with
      | false => simp
      | true =>
        have hnone : (∀ e' ∈ es, ¬ (true = true ∧ e'.isKey = true)) ↔ es.countP isKey = 0 := by
          simp [List.countP_eq_zero]
        rw [hnone, if_pos rfl]
        omega
    simp only [applyAll_cons, apply_eq_ok hc, and_assoc, exists_and_left, exists_eq_left]
    rw [ih (getElem?_marked hc), marked_marked, ← hkeys]
    simp only [admitted_marked, List.forall_mem_cons, forall_and, and_assoc]

/-- There is one collation at most. -/
theorem eq_of_isCollation (hcollation : es.countP isCollation ≤ 1) (he : e ∈ es) (he' : e' ∈ es)
    (hc : e.isCollation = true) (hc' : e'.isCollation = true) : e = e' := by
  rw [List.countP_eq_length_filter] at hcollation
  have hmem := List.mem_filter.2 ⟨he, hc⟩
  have hmem' := List.mem_filter.2 ⟨he', hc'⟩
  rcases hes : es.filter isCollation with _ | ⟨d, _ | ⟨d', ds⟩⟩
  · simp [hes] at hmem
  · rw [hes, List.mem_singleton] at hmem hmem'
    rw [hmem, hmem']
  · simp [hes] at hcollation

/-- The order of the constraints does not matter to the column. -/
theorem foldl_mark_perm (h : es'.Perm es) (hcollation : es.countP isCollation ≤ 1) (c : Column) :
    es'.foldl mark c = es.foldl mark c := by
  refine (h.symm.foldl_eq' (fun e he e' he' c => ?_) c).symm
  by_cases hboth : e.isCollation = true ∧ e'.isCollation = true
  · rw [eq_of_isCollation hcollation he he' hboth.1 hboth.2]
  · cases e with
    | collate name =>
      cases e' with
      | collate => exact absurd ⟨rfl, rfl⟩ hboth
      | _ => rfl
    | primaryKey autoIncrement =>
      cases e' with
      | primaryKey => simp only [mark, Bool.or_right_comm]
      | _ => rfl
    | _ => cases e' <;> rfl

/-- In another order the constraints of a column are accepted as well, and only the order of the
foreign keys is another one. -/
theorem applyAll_perm (hc : t.columns[index]? = some c) (h : es'.Perm es)
    (hcollation : es.countP isCollation ≤ 1) (ht : applyAll index t es = .ok t') :
    ∃ u, applyAll index t es' = .ok u ∧ t'.Rekeyed List.Perm u := by
  obtain ⟨hadmitted, hkeys, rfl⟩ := (applyAll_eq_ok hc).1 ht
  refine ⟨t.marked index es', (applyAll_eq_ok hc).2
    ⟨fun e he => hadmitted e (h.subset he), h.countP_eq isKey ▸ hkeys, rfl⟩, ?_⟩
  have hcolumn : (es'.foldl mark ·) = (es.foldl mark ·) :=
    funext (foldl_mark_perm h hcollation)
  have hforeign := (h.symm.filterMap key?).append_left t.foreignKeys
  have hmarked : t.marked index es' = { t.marked index es with
      foreignKeys := t.foreignKeys ++ es'.filterMap key? } := by
    unfold Table.marked
    rw [hcolumn, h.any_eq]
  rw [hmarked]
  exact .intro _ hforeign

end Effect

end SqliteSchema
