import SqliteSchema.Proofs.Schema.Reference
import SqliteSchema.Proofs.Schema.ReadColumn

/-!
Printed table constraints are read back, on a table that has the columns of the printed one but
perhaps not all of its keys yet.
-/
namespace SqliteSchema

namespace Table

variable {t u : Table} {i : Nat}

theorem sameName_self (name : String) : sameName name name = true := by
  rw [sameName, beq_self_eq_true]

/-- Only the names of columns are looked at. -/
theorem columnIndex?_congr (h : u.columns.map (·.sqlName) = t.columns.map (·.sqlName))
    (name : String) : u.columnIndex? name = t.columnIndex? name := by
  have hmap (t : Table) :
      t.columnIndex? name = (t.columns.map (·.sqlName)).findIdx? (sameName · name) := by
    rw [List.findIdx?_map]
    rfl
  rw [hmap, hmap, h]

/-- The name of a column is the name of no other column. -/
theorem columnIndex?_columnName (hw : t.WellFormed) (hi : i < t.columns.length) :
    t.columnIndex? (Definition.columnName t i) = some i := by
  have hname : Definition.columnName t i = t.columns[i].sqlName := by
    rw [Definition.columnName, List.getElem?_eq_getElem hi]
    rfl
  refine List.findIdx?_eq_some_iff_getElem.2 ⟨hi, ?_, fun j hj => ?_⟩
  · rw [hname]
    exact sameName_self _
  · have hdistinct := List.pairwise_iff_getElem.1 hw.sqlNames j i
      (by rw [List.length_map]; omega) (by rw [List.length_map]; omega) hj
    rw [List.getElem_map, List.getElem_map] at hdistinct
    rw [hname, Column.isNamed, hdistinct]
    decide

end Table

namespace Definition

open SqliteSchema.Parser Piece Token

variable {earlier : Registry} {t u u' : Table} {indices : List Nat} {i : Nat} {b : Token}
  {as bs : List Token} {ns : List Note} {indexed : Bool}

/-! ### Lists of columns -/

/-- The columns of `u` are found under the names that they have in `t`. -/
def Finds (u t : Table) : Prop :=
  ∀ i, i < t.columns.length → u.columnIndex? (columnName t i) = some i

theorem isKeyword_of_mem_itemEnds (hb : b ∈ itemEnds) (k : Keyword) : b.isKeyword k = false := by
  simp only [itemEnds, List.mem_cons, List.not_mem_nil, or_false] at hb
  rcases hb with rfl | rfl <;> exact isKeyword_ofMark (by decide)

theorem eatAnyKeyword_itemEnd (hb : b ∈ itemEnds) (ks : List Keyword) :
    Reads (eatAnyKeyword ks) ⟨b :: bs, ns⟩ (· = none) ⟨b :: bs, ns⟩ := by
  refine .eatAnyKeyword_not (List.find?_eq_none.2 fun k _ => ?_)
  rw [isKeyword_of_mem_itemEnds hb]
  decide

/-- One more column is read up to a comma or the closing parenthesis. -/
theorem reads_extendList {listed : List Nat} (hu : u.columnIndex? (columnName t i) = some i)
    (hi : i ∉ listed) (has : StartsIn itemEnds as) :
    Reads (extendList u indexed listed) ⟨ofName (columnName t i) :: as, ns⟩ (· = listed ++ [i])
      ⟨as, ns⟩ := by
  obtain ⟨b, bs, rfl, hb⟩ := has
  have hindex : Reads (listedColumn u listed) ⟨ofName (columnName t i) :: b :: bs, ns⟩ (· = i)
      ⟨b :: bs, ns⟩ := by
    apply Reads.name.bind
    intro token hname
    simp only [hname, hu]
    rw [if_neg (by simpa using hi)]
    exact .pure rfl
  apply hindex.seq
  cases indexed with
  | false => exact .pure rfl
  | true =>
    have hcollation : Reads (columnCollation u.columns[i]?) ⟨b :: bs, ns⟩ (fun _ => True)
        ⟨b :: bs, ns⟩ :=
      (Reads.eatKeyword_not (isKeyword_of_mem_itemEnds hb _)).seq (.pure trivial)
    have hoptions : Reads (indexOptions u.columns[i]?) ⟨b :: bs, ns⟩ (fun _ => True)
        ⟨b :: bs, ns⟩ :=
      hcollation.bind fun _ _ => (eatAnyKeyword_itemEnd hb _).seq (.pure trivial)
    exact hoptions.bind fun _ _ => .pure rfl

/-- Behind an item there is a comma or the closing parenthesis. -/
theorem startsIn_commas {α : Type} (f : α → List Piece) (l : List α) :
    StartsIn itemEnds (tokens (l.flatMap fun x => comma ++ f x) ++ ofMark ')' :: as) := by
  refine .append ?_ ⟨ofMark ')', as, rfl, by simp [itemEnds]⟩
  cases l with
  | nil => exact .inl rfl
  | cons x l => exact .inr ⟨ofMark ',', _, rfl, by simp [itemEnds]⟩

/-- The columns behind the first one of a list. -/
theorem reads_listedNames (hu : Finds u t) {is : List Nat} (listed : List Nat)
    (hnd : (listed ++ is).Nodup) (hlt : ∀ i ∈ is, i < t.columns.length) :
    Reads (loop (fun listed => do
        if ← eat "," then return some (← extendList u indexed listed) else return none) listed)
      ⟨tokens (is.flatMap fun i => comma ++ [.name (columnName t i)]) ++ ofMark ')' :: as, ns⟩
      (· = listed ++ is) ⟨ofMark ')' :: as, ns⟩ := by
  have hcomma : (ofMark ',').is "," = true := by decide
  have hclose : (ofMark ')').is "," = false := by decide
  induction is generalizing listed with
  | nil =>
    refine .loop_stop ((Reads.eat_not hclose).seq (.pure rfl)) ?_
    rw [List.append_nil]
  | cons i is ih =>
    have hi : i ∉ listed := fun h =>
      (List.nodup_append.1 hnd).2.2 i h i List.mem_cons_self rfl
    have happend : listed ++ i :: is = listed ++ [i] ++ is := by
      rw [List.append_assoc, List.singleton_append]
    rw [happend] at hnd ⊢
    let rest := tokens (is.flatMap fun i => comma ++ [.name (columnName t i)]) ++ ofMark ')' :: as
    have hextend : Reads (extendList u indexed listed) ⟨ofName (columnName t i) :: rest, ns⟩
        (· = listed ++ [i]) ⟨rest, ns⟩ :=
      reads_extendList (hu i (hlt i List.mem_cons_self)) hi (startsIn_commas _ is)
    refine .loop_next (P := (· = listed ++ [i]))
      ((Reads.eat hcomma).seq (hextend.seq (.pure ⟨_, rfl, rfl⟩))) ?_ ?_
    · exact Nat.lt_succ_of_lt (Nat.lt_succ_self _)
    · rintro _ rfl
      exact ih _ hnd fun j hj => hlt j (List.mem_cons_of_mem _ hj)

/-- Names in parentheses are read back as the columns that they name. -/
theorem reads_columnList (hu : Finds u t) (hne : indices ≠ []) (hl : t.ListsColumns indices) :
    Reads (columnList u indexed) ⟨tokens (t.columnGroup indices) ++ as, ns⟩ (· = indices)
      ⟨as, ns⟩ := by
  have hopen : (ofMark '(').is "(" = true := by decide
  have hclose : (ofMark ')').is ")" = true := by decide
  obtain ⟨i, is, rfl⟩ := List.exists_cons_of_ne_nil hne
  have htokens : tokens (t.columnGroup (i :: is)) ++ as = ofMark '(' :: ofName (columnName t i) ::
      (tokens (is.flatMap fun i => comma ++ [.name (columnName t i)]) ++ ofMark ')' :: as) := by
    simp [Table.columnGroup, commas, List.flatMap_map]
  rw [htokens]
  apply (Reads.expect hopen).bind
  intro _ _
  refine (reads_extendList (hu i (hl.lt_length i List.mem_cons_self)) List.not_mem_nil
    (startsIn_commas _ is)).seq ?_
  refine (reads_listedNames hu [i] hl.nodup fun j hj =>
    hl.lt_length j (List.mem_cons_of_mem _ hj)).seq ?_
  exact (Reads.expect hclose).bind fun _ _ => .pure rfl

/-! ### Foreign keys -/

theorem reads_referentialAction (action : ReferentialAction) :
    Reads referentialAction ⟨action.keywords.map ofKeyword ++ as, ns⟩ (· = action) ⟨as, ns⟩ := by
  have hany {k : Keyword} {ks : List Keyword} {as : List Token} (h : k ∈ ks) :
      Reads (expectAnyKeyword ks) ⟨ofKeyword k :: as, ns⟩ (· = k) ⟨as, ns⟩ :=
    .expectAnyKeyword (find?_ofKeyword h)
  cases action with
  | noAction =>
    apply (hany (k := .NO) (by decide)).seq
    exact (Reads.expectKeyword isKeyword_self).bind fun _ _ => .pure rfl
  | restrict => exact (hany (k := .RESTRICT) (by decide)).seq (.pure rfl)
  | setNull =>
    apply (hany (k := .SET) (by decide)).seq
    exact (hany (k := .NULL) (by decide)).seq (.pure rfl)
  | setDefault =>
    apply (hany (k := .SET) (by decide)).seq
    exact (hany (k := .DEFAULT) (by decide)).seq (.pure rfl)
  | cascade => exact (hany (k := .CASCADE) (by decide)).seq (.pure rfl)

theorem reads_onDelete (actions : ReferentialActions) (action : ReferentialAction) :
    Reads (onClause actions) ⟨ofKeyword .DELETE :: (action.keywords.map ofKeyword ++ as), ns⟩
      (· = { actions with onDelete := action }) ⟨as, ns⟩ := by
  refine (Reads.expectAnyKeyword (find?_ofKeyword (k := .DELETE) (by decide))).seq ?_
  exact (reads_referentialAction action).seq (.pure rfl)

theorem reads_onUpdate (actions : ReferentialActions) (action : ReferentialAction) :
    Reads (onClause actions) ⟨ofKeyword .UPDATE :: (action.keywords.map ofKeyword ++ as), ns⟩
      (· = { actions with onUpdate := action }) ⟨as, ns⟩ := by
  refine (Reads.expectAnyKeyword (find?_ofKeyword (k := .UPDATE) (by decide))).seq ?_
  exact (reads_referentialAction action).seq (.pure rfl)

/-- Both actions are read, and then the item ends. -/
theorem reads_referenceClauses (hb : b ∈ itemEnds) (onDelete onUpdate : ReferentialAction) :
    Reads (loop referenceClause {})
      ⟨(.ON :: .DELETE :: onDelete.keywords).map ofKeyword ++
        ((.ON :: .UPDATE :: onUpdate.keywords).map ofKeyword ++ b :: bs), ns⟩
      (· = ⟨onDelete, onUpdate⟩) ⟨b :: bs, ns⟩ := by
  have hno (k : Keyword) : b.isKeyword k = false := isKeyword_of_mem_itemEnds hb k
  have hdeferrable : Reads (Parser.look startsDeferrable) ⟨b :: bs, ns⟩ (· = false)
      ⟨b :: bs, ns⟩ := by
    refine .look fun ts hts => ?_
    obtain ⟨d, ds, rfl, rfl, -⟩ := List.map_eq_cons_iff.1 hts
    have hd (k : Keyword) : d.isKeyword k = false := hno k
    simp [startsDeferrable, hd]
  have hstop (actions : ReferentialActions) : Reads (referenceClause actions) ⟨b :: bs, ns⟩
      (· = none) ⟨b :: bs, ns⟩ := by
    apply (Reads.eatKeyword_not (hno .ON)).seq
    refine (Reads.accept_not (fun _ => rfl) (hno .MATCH)).seq ?_
    exact hdeferrable.seq (.pure rfl)
  have hdelete {as : List Token} : Reads (referenceClause {})
      ⟨(.ON :: .DELETE :: onDelete.keywords).map ofKeyword ++ as, ns⟩
      (∃ actions, · = some actions ∧ actions = { onDelete := onDelete }) ⟨as, ns⟩ :=
    (Reads.eatKeyword isKeyword_self).seq ((reads_onDelete {} onDelete).seq (.pure ⟨_, rfl, rfl⟩))
  have hupdate {as : List Token} (actions : ReferentialActions) : Reads (referenceClause actions)
      ⟨(.ON :: .UPDATE :: onUpdate.keywords).map ofKeyword ++ as, ns⟩
      (∃ a, · = some a ∧ a = { actions with onUpdate := onUpdate }) ⟨as, ns⟩ :=
    (Reads.eatKeyword isKeyword_self).seq
      ((reads_onUpdate actions onUpdate).seq (.pure ⟨_, rfl, rfl⟩))
  refine .loop_next hdelete (by simp; omega) ?_
  rintro _ rfl
  refine .loop_next (hupdate _) (by simp; omega) ?_
  rintro _ rfl
  exact .loop_stop (hstop _) rfl

/-- A foreign key on columns of a table that is found under its name. -/
theorem reads_references {k : ForeignKey} {foreign found : Table} (hb : b ∈ itemEnds)
    (hf : (earlier.add u).find? foreign.sqlName = some found) (hi : found.id = k.foreignTable)
    (hn : Finds found foreign) (hne : k.foreignColumns ≠ [])
    (hl : foreign.ListsColumns k.foreignColumns)
    (hlen : k.foreignColumns.length = k.columns.length)
    (hu : found.isUniqueBy k.foreignColumns = true) :
    Reads (references earlier u k.columns)
      ⟨ofName foreign.sqlName :: (tokens (foreign.columnGroup k.foreignColumns) ++
        ((.ON :: .DELETE :: k.onDelete.keywords).map ofKeyword ++
          ((.ON :: .UPDATE :: k.onUpdate.keywords).map ofKeyword ++ b :: bs))), ns⟩
      (· = { u with foreignKeys := u.foreignKeys ++ [k] }) ⟨b :: bs, ns⟩ := by
  apply Reads.name.bind
  intro token hname
  have hkey : referencedKey found k.columns.length (some k.foreignColumns) =
      .ok k.foreignColumns := by
    simp [referencedKey, referencedColumns, hlen, hu, bind, Except.bind, pure, Except.pure]
  have hlisted {as : List Token} : Reads (listedColumns found)
      ⟨tokens (foreign.columnGroup k.foreignColumns) ++ as, ns⟩ (· = some k.foreignColumns)
      ⟨as, ns⟩ := by
    refine .seq (x := true) (Reads.look_head fun _ => rfl) ?_
    exact (reads_columnList hn hne hl).seq (.pure rfl)
  simp only [hname, hf]
  refine hlisted.seq ((reads_referenceClauses hb k.onDelete k.onUpdate).seq ?_)
  refine (Reads.ofExcept (by rw [hkey]; rfl)).seq (.pure ?_)
  rw [hi]

end Definition

end SqliteSchema
