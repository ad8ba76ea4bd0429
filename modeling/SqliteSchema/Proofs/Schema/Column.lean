import SqliteSchema.Proofs.Schema.Clauses

/-!
Where the columns of a schema are read. A statement makes one table, and an item of its body makes
one column or none, so that each column of a new table has its item.
-/
namespace SqliteSchema.Definition

open SqliteSchema.Parser

variable {source : List Char} {registry earlier : Registry} {t t' : Table} {index : Nat}
  {s u : ParseState}

/-- Behind `n` statements and stray semicolons, up to the constraints of the column that has `k`
items before it in the body. -/
def upToConstraints (source : List Char) (registry : Registry) (n k : Nat) :
    Parser (Unfinished × Table) := do
  let x ← upToItem source registry n k
  let _ ← expect (separator k)
  return (x, ← columnOpening x.body)

/-! ### Numbers of columns -/

theorem length_of_columnOpening (body : Body) : Ensures (columnOpening body) fun table =>
    table.columns.length = body.table.columns.length + 1 :=
  .after fun _ => .ite (fun _ => .fail) fun _ => .ite (fun _ => .fail) fun _ =>
    .after fun _ => .after fun _ => .after fun _ => .pure List.length_append

theorem Clauses.length_eq {cs : List (List Token)} (h : Clauses earlier index t s cs t' u)
    (hindex : index < t.columns.length) : t'.columns.length = t.columns.length := by
  induction h with
  | nil => rfl
  | @cons t t' t'' s s' s'' c cs hclause hrest hmore ih =>
    obtain ⟨e, -, happly⟩ := (does_clause earlier index t s t' s').1 hclause
    have hlength := (Effect.outline_of_apply hindex happly).2
    rw [ih (hlength ▸ hindex), hlength]

theorem length_of_tableConstraint (earlier : Registry) (t : Table) (token : Token) :
    Ensures (tableConstraint earlier t token) fun t' => t'.columns.length = t.columns.length := by
  unfold tableConstraint
  split
  · exact .after fun _ => .after fun indices => .after fun _ =>
      (ensures_acceptKey indices token _).imp fun t' h => (effect_of_setPrimaryKey h).2.1
  · exact (ensures_columnList t true).bind fun indices hl => .after fun _ =>
      (ensures_acceptKey indices token _).imp fun t' h => (effect_of_addUnique hl.2 h).2.1
  · exact .after fun _ => .pure rfl
  · refine .after fun _ => .after fun _ => .after fun _ => ?_
    rw [references_eq]
    exact .after fun _ => .pure rfl
  · exact .fail

/-- An item that adds to the columns is a column, and it adds this column only. -/
theorem column_of_bodyItem {body body' : Body} (h : bodyItem earlier body s = .ok body' u)
    (hlength : body'.table.columns.length ≠ body.table.columns.length) :
    body'.table.columns.length = body.table.columns.length + 1 ∧
      ∃ table v, columnOpening body s = .ok table v := by
  obtain ⟨first, v, hfirst, hmore⟩ := bind_eq_ok h
  obtain rfl := (current_eq_ok hfirst).1
  split at hmore
  · obtain ⟨_, w, -, hmore⟩ := bind_eq_ok hmore
    obtain ⟨token, x, -, hmore⟩ := bind_eq_ok hmore
    obtain ⟨t, y, hconstraint, hend⟩ := bind_eq_ok hmore
    cases hend
    exact absurd (length_of_tableConstraint earlier body.table token x t _ hconstraint) hlength
  · next hcolumn =>
    split at hmore
    · cases hmore
    · next hconstrained =>
      obtain ⟨t, y, hdefinition, hend⟩ := bind_eq_ok hmore
      cases hend
      rw [columnDefinition_eq] at hdefinition
      obtain ⟨table, w, hhead, hconstraints⟩ := bind_eq_ok hdefinition
      have hopening : columnOpening body v = .ok table w := by
        rw [columnOpening, bind_apply, hfirst]
        dsimp only
        rw [if_neg hcolumn, if_neg hconstrained]
        exact hhead
      obtain ⟨cs, hclauses⟩ := columnConstraints_eq_ok.1 hconstraints
      have htable := length_of_columnOpening body v table w hopening
      refine ⟨?_, table, w, hopening⟩
      rw [← htable]
      exact hclauses.length_eq (htable ▸ Nat.lt_succ_self _)

/-! ### Places of columns -/

/-- Each column of a body has an item, in front of which the body has the columns before it. -/
theorem exists_item {body body' : Body} {j : Nat}
    (h : (expect "(" >>= fun _ => bodyItem earlier body >>= loop (bodyRound earlier)) s =
      .ok body' u)
    (hj : body.table.columns.length ≤ j) (hj' : j < body'.table.columns.length) :
    ∃ k body'' v mark w table x, items earlier body k s = .ok body'' v ∧
      expect (separator k) v = .ok mark w ∧ columnOpening body'' w = .ok table x ∧
      body''.table.columns.length = j := by
  obtain ⟨mark, v, hmark, hmore⟩ := bind_eq_ok h
  obtain ⟨first, w, hfirst, hloop⟩ := bind_eq_ok hmore
  by_cases hj₁ : j < first.table.columns.length
  · obtain ⟨hlength, table, x, hopening⟩ := column_of_bodyItem hfirst (by omega)
    exact ⟨0, body, s, mark, v, table, x, rfl, hmark, hopening, by omega⟩
  · obtain ⟨n, c, d, y, z, hrounds, hround, -, hc, hd⟩ :=
      exists_round (fun _ _ _ _ => length_lt_of_bodyRound) (·.table.columns.length) hloop
        (Nat.le_of_not_lt hj₁) hj'
    obtain ⟨comma, y', hcomma, hitem⟩ := bind_eq_ok hround
    split at hitem
    · cases hitem
    · next hclosing =>
      obtain ⟨d', z', hitem, hend⟩ := bind_eq_ok hitem
      cases hend
      obtain ⟨hlength, table, x, hopening⟩ := column_of_bodyItem hitem (by omega)
      obtain ⟨hrest, hmarks, hstate⟩ := require_eq_ok hcomma
      have hcomma' : expect (separator (n + 1)) y = .ok comma y' := by
        unfold expect require
        rw [hrest, hstate]
        exact if_pos ((Bool.or_eq_true_iff.1 hmarks).resolve_right hclosing)
      refine ⟨n + 1, c, y, comma, y', table, x, ?_, hcomma', hopening, by omega⟩
      rw [items, bind_apply, hmark]
      dsimp only
      rw [bind_apply, hfirst]
      exact hrounds

theorem opening_eq_ok {x : Unfinished} (h : opening earlier s = .ok x u) :
    x.earlier = earlier ∧ x.body.table.columns = [] := by
  have hensures : Ensures (opening earlier) fun x =>
      x.earlier = earlier ∧ x.body.table.columns = [] := by
    refine .after fun _ => .after fun _ => .after fun _ => .after fun _ =>
      ensures_tableName.bind fun t ht => .after fun _ => .pure ⟨rfl, ?_⟩
    obtain ⟨name, -, rfl⟩ := ht
    rfl
  exact hensures s x u h

/-- A table has the columns of its body. -/
theorem body_of_createTable (h : createTable source earlier s = .ok t u) :
    ∃ x v body w, opening earlier s = .ok x v ∧
      (expect "(" >>= fun _ => bodyItem x.earlier x.body >>= loop (bodyRound x.earlier)) v =
        .ok body w ∧ t.columns = body.table.columns := by
  have hcut : createTable source earlier = opening earlier >>= fun x =>
      (expect "(" >>= fun _ => bodyItem x.earlier x.body >>= loop (bodyRound x.earlier)) >>=
        fun body => do
          let table ← tableOptions >>= fun options => ofExcept (applyOptions body.table options)
          let semicolon ← expect ";"
          return { table with createTableText := slice source x.create semicolon } := by
    simp only [createTable, opening, tableBody, bind_assoc, pure_bind]
    rfl
  rw [hcut] at h
  obtain ⟨x, v, hopening, h⟩ := bind_eq_ok h
  obtain ⟨body, w, hbody, h⟩ := bind_eq_ok h
  obtain ⟨table, y, htable, h⟩ := bind_eq_ok h
  obtain ⟨semicolon, z, -, hend⟩ := bind_eq_ok h
  cases hend
  obtain ⟨options, y', -, hoptions⟩ := bind_eq_ok htable
  obtain ⟨rfl, -⟩ := applyOptions_eq_ok (Ensures.ofExcept _ _ _ hoptions)
  exact ⟨x, v, body, w, hopening, hbody, rfl⟩

theorem prefix_of_schema {r : Registry} (h : schema source registry s = .ok r u) :
    registry.tables <+: r.tables := by
  have hdeclares := declares_schema source registry s r u h
  clear h
  induction hdeclares with
  | refl => exact List.prefix_refl _
  | tail _ hdeclares ih =>
    cases hdeclares with
    | table => exact ih.trans (List.prefix_append _ _)

/-- Each column of a new table is read somewhere, behind the tables and the columns before it. -/
theorem exists_column {r : Registry} {i j : Nat} (h : schema source registry s = .ok r u)
    (hi : registry.tables.length ≤ i) (ht : r.tables[i]? = some t) (hj : j < t.columns.length) :
    ∃ n k x table v, upToConstraints source registry n k s = .ok (x, table) v ∧
      x.earlier.tables.length = i ∧ x.body.table.columns.length = j := by
  obtain ⟨hi', -⟩ := List.getElem?_eq_some_iff.1 ht
  -- The round in which the registry gets its table `i` is a statement.
  obtain ⟨n, c, d, v, w, hrounds, hround, hmore, hc, hd⟩ :=
    exists_round (fun _ _ _ _ => length_lt_of_schemaRound) (·.tables.length) h hi hi'
  obtain ⟨done, v', hdone, hstatement⟩ := bind_eq_ok hround
  cases hdone
  split at hstatement
  · cases hstatement
  obtain ⟨stray, v', hstray, hnext⟩ := bind_eq_ok hstatement
  cases stray with
  | true =>
    cases hnext
    omega
  | false =>
    obtain rfl := eat_eq_false hstray
    obtain ⟨t', w', hcreate, hend⟩ := bind_eq_ok hnext
    cases hend
    have hlength : c.tables.length = i := by
      simp only [Registry.add, List.length_append, List.length_singleton] at hd
      omega
    obtain rfl : t' = t := by
      have hnew : (c.add t').tables[i]? = some t' := by simp [Registry.add, ← hlength]
      obtain ⟨later, hlater⟩ := prefix_of_schema hmore
      rw [← hlater, List.getElem?_append_left hd, hnew] at ht
      exact Option.some.inj ht
    obtain ⟨x, y, body, z, hopening, hbody, hcolumns⟩ := body_of_createTable hcreate
    obtain ⟨rfl, hnone⟩ := opening_eq_ok hopening
    obtain ⟨k, body', y', mark, y'', table, z', hitems, hmark, hcolumn, hj⟩ :=
      exists_item hbody (by simp [hnone]) (hcolumns ▸ hj)
    refine ⟨n, k, { x with body := body' }, table, z', ?_, hlength, hj⟩
    have hitem : upToItem source registry n k s = .ok { x with body := body' } y' := by
      rw [upToItem, bind_apply, hrounds]
      dsimp only
      rw [bind_apply, hopening]
      dsimp only
      rw [bind_apply, hitems]
      rfl
    rw [upToConstraints, bind_apply, hitem]
    dsimp only
    rw [bind_apply, hmark]
    dsimp only
    rw [bind_apply, hcolumn]
    rfl

end SqliteSchema.Definition
