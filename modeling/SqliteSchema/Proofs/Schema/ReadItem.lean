import SqliteSchema.Proofs.Schema.ReadKey

/-!
Printed table bodies are read back item by item: a run over the items leads from one state of the
table to the next one.
-/
namespace SqliteSchema.Definition

open SqliteSchema.Parser Piece Token

variable {earlier : Registry} {body body' body'' : Body} {t u u' : Table} {c : Column}
  {indices : List Nat} {xs ys : List (List Piece)} {notes notes' : List Note} {constrained : Bool}

/-- The pieces are read as one item, which takes the body from one state to another. -/
def ReadsItem (earlier : Registry) (body : Body) (item : List Piece) (notes : List Note)
    (body' : Body) : Prop :=
  ∀ b ∈ itemEnds, ∀ bs ns,
    Reads (bodyItem earlier body) ⟨tokens item ++ b :: bs, ns⟩ (· = body') ⟨b :: bs, ns ++ notes⟩

theorem readsItem_column (hn : checkColumnName t c.sqlName = .ok ()) (ht : c.table = t.id)
    (ho : c.outputName = Name.output c.sqlName) (ha : c.affinity = .ofDeclaredType c.sqlType)
    (hd : IsDeclaredType c.sqlType)
    (hc : c.autoIncrement = true →
      t.hasPrimaryKey = false ∧ sameName c.sqlType "INTEGER" = true) :
    ReadsItem earlier ⟨t, false⟩ c.pieces c.notes ⟨t.declare c.declared, false⟩ := by
  intro b hb bs ns
  have hdefinition : Reads (columnDefinition earlier t) ⟨tokens c.pieces ++ b :: bs, ns⟩
      (· = t.declare c.declared) ⟨b :: bs, ns ++ c.notes⟩ :=
    reads_columnDefinition hn ht ho ha hd hc hb
  rw [Column.pieces, List.singleton_append, tokens_name, List.cons_append] at hdefinition ⊢
  apply Reads.current.bind
  intro first hfirst
  have hname : startsConstraint first = false := by
    have hstart : startsConstraint first = startsConstraint (ofName c.sqlName) := by
      rw [← hfirst]
      rfl
    rw [hstart]
    simp [startsConstraint]
  rw [hname]
  exact hdefinition.seq (.pure rfl)

/-- A keyword opens a constraint, and then there are no more columns. -/
theorem readsItem_constraint {k : Keyword} {item : List Piece}
    (hk : k ∈ [.PRIMARY, .UNIQUE, .FOREIGN])
    (h : ∀ b ∈ itemEnds, ∀ bs ns token, token.keyword = some k →
      Reads (tableConstraint earlier u token) ⟨tokens item ++ b :: bs, ns⟩ (· = u')
        ⟨b :: bs, ns⟩) :
    ReadsItem earlier ⟨u, constrained⟩ (.keyword k :: item) [] ⟨u', true⟩ := by
  intro b hb bs ns
  have hall : ∀ k ∈ [Keyword.PRIMARY, .UNIQUE, .FOREIGN],
      startsConstraint (ofKeyword k) = true ∧ (ofKeyword k).isKeyword .CONSTRAINT = false := by
    decide +kernel
  obtain ⟨hopens, hname⟩ := hall k hk
  rw [tokens_keyword, List.cons_append, List.append_nil]
  apply Reads.current.bind
  intro first hfirst
  have hstart : startsConstraint first = true := by
    rw [← hopens, ← hfirst]
    rfl
  rw [hstart, if_pos rfl]
  refine (reads_constraintName hname).bind fun _ _ => Reads.keyword.bind fun token ht => ?_
  exact (h b hb bs ns token ht).seq (.pure rfl)

theorem reads_acceptKey {token : Token} {result : Except KeyConflict Table} {v : View}
    (h : result = .ok u') : Reads (acceptKey u indices token result) v (· = u') v :=
  .ofExcept (by rw [h]; rfl)

theorem readsItem_unique (hu : Finds u t) (hne : indices ≠ []) (hl : t.ListsColumns indices)
    (hk : u.addUnique indices = .ok u') :
    ReadsItem earlier ⟨u, constrained⟩ (t.uniquePieces indices) [] ⟨u', true⟩ := by
  apply readsItem_constraint (k := .UNIQUE) (by decide)
  intro b hb bs ns token ht
  simp only [tableConstraint, ht]
  apply (reads_columnList hu hne hl).seq
  apply (reads_conflictClause (isKeyword_of_mem_itemEnds hb _)).bind
  intro _ _
  exact reads_acceptKey hk

theorem readsItem_primaryKey (hu : Finds u t) (hne : indices ≠ []) (hl : t.ListsColumns indices)
    (hk : u.setPrimaryKey indices = .ok u') :
    ReadsItem earlier ⟨u, constrained⟩
      ([.keyword .PRIMARY] ++ keywords [.KEY] ++ [.gap ' '] ++ t.columnGroup indices) []
      ⟨u', true⟩ := by
  rw [List.append_assoc, List.append_assoc, List.singleton_append]
  apply readsItem_constraint (k := .PRIMARY) (by decide)
  intro b hb bs ns token ht
  simp only [tableConstraint, ht]
  rw [tokens_append, tokens_keywords, List.singleton_append, tokens_gap]
  apply (Reads.expectKeyword isKeyword_self).bind
  intro _ _
  apply (reads_columnList hu hne hl).seq
  apply (reads_conflictClause (isKeyword_of_mem_itemEnds hb _)).bind
  intro _ _
  exact reads_acceptKey hk

/-- A foreign key to a table that is found and is unique by the columns as far as it is read. -/
theorem readsItem_foreignKey {r : Registry} {k : ForeignKey} {foreign found : Table}
    (hu : Finds u t) (hc : k.columns ≠ []) (hcl : t.ListsColumns k.columns)
    (hr : r.table? k.foreignTable = some foreign)
    (hf : (earlier.add u).find? foreign.sqlName = some found) (hi : found.id = k.foreignTable)
    (hn : Finds found foreign) (hl : foreign.ListsColumns k.foreignColumns)
    (hlen : k.foreignColumns.length = k.columns.length)
    (hq : found.isUniqueBy k.foreignColumns = true) :
    ReadsItem earlier ⟨u, constrained⟩ (t.foreignKeyPieces r k) []
      ⟨{ u with foreignKeys := u.foreignKeys ++ [k] }, true⟩ := by
  have hne : k.foreignColumns ≠ [] := by
    intro h
    rw [h, List.length_nil] at hlen
    exact hc (List.length_eq_zero_iff.1 hlen.symm)
  simp only [Table.foreignKeyPieces, hr, Option.elim_some, List.append_assoc,
    List.cons_append, List.nil_append]
  apply readsItem_constraint (k := .FOREIGN) (by decide)
  intro b hb bs ns token ht
  simp only [tableConstraint, ht, List.append_assoc, List.cons_append, List.nil_append,
    tokens_append, tokens_keywords, tokens_gap, tokens_name, List.map_cons, List.map_nil]
  apply (Reads.expectKeyword isKeyword_self).bind
  intro _ _
  apply (reads_columnList hu hc hcl).seq
  apply (Reads.expectKeyword isKeyword_self).bind
  intro _ _
  exact reads_references hb hf hi hn hne hl hlen hq

/-! ### Runs over items -/

/-- The items are read one after another. -/
inductive ReadsItems (earlier : Registry) : Body → List (List Piece) → List Note → Body → Prop
  | nil (body : Body) : ReadsItems earlier body [] [] body
  | cons {body body' body'' : Body} {item : List Piece} {items : List (List Piece)}
      {notes notes' : List Note} (h : ReadsItem earlier body item notes body')
      (hs : ReadsItems earlier body' items notes' body'') :
      ReadsItems earlier body (item :: items) (notes ++ notes') body''

theorem ReadsItems.append (h : ReadsItems earlier body xs notes body')
    (h' : ReadsItems earlier body' ys notes' body'') :
    ReadsItems earlier body (xs ++ ys) (notes ++ notes') body'' := by
  induction h with
  | nil => exact h'
  | cons hx _ ih =>
    rw [List.append_assoc]
    exact .cons hx (ih h')

/-- A run whose states are known. -/
theorem readsItems_of_steps {α : Type} {f : Nat → Body} {item : α → List Piece}
    {notes : α → List Note} {l : List α}
    (h : ∀ n x, l[n]? = some x → ReadsItem earlier (f n) (item x) (notes x) (f (n + 1))) :
    ReadsItems earlier (f 0) (l.map item) (l.flatMap notes) (f l.length) := by
  induction l generalizing f with
  | nil => exact .nil (f 0)
  | cons x l ih => exact .cons (h 0 x rfl) (ih (f := fun n => f (n + 1)) fun n => h (n + 1))

/-- Constraints do not ask whether another one was read before. -/
theorem readsItems_constraints {α : Type} {f : Nat → Table} {item : α → List Piece} {l : List α}
    (h : ∀ n x, l[n]? = some x → ∀ constrained,
      ReadsItem earlier ⟨f n, constrained⟩ (item x) [] ⟨f (n + 1), true⟩) (constrained : Bool) :
    ∃ constrained',
      ReadsItems earlier ⟨f 0, constrained⟩ (l.map item) [] ⟨f l.length, constrained'⟩ := by
  have hrun := readsItems_of_steps (f := fun n => ⟨f n, constrained || decide (0 < n)⟩)
    fun n x hx => by simpa using h n x hx (constrained || decide (0 < n))
  rw [List.flatMap_eq_nil_iff.2 fun _ _ => rfl] at hrun
  exact ⟨_, by simpa using hrun⟩

theorem ReadsItem.reads {item : List Piece} {as : List Token} {ns : List Note}
    (h : ReadsItem earlier body item notes body') (has : StartsIn itemEnds as) :
    Reads (bodyItem earlier body) ⟨tokens item ++ as, ns⟩ (· = body') ⟨as, ns ++ notes⟩ := by
  obtain ⟨b, bs, rfl, hb⟩ := has
  exact h b hb bs ns

/-- The items behind the first one, up to the closing parenthesis. -/
theorem ReadsItems.reads {as : List Token} {ns : List Note}
    (h : ReadsItems earlier body xs notes body') :
    Reads (loop (fun body => do
        let separator ← require "',' or ')'" fun t => t.is "," || t.is ")"
        if separator.is ")" then return none else return some (← bodyItem earlier body)) body)
      ⟨tokens (xs.flatMap (comma ++ ·)) ++ ofMark ')' :: as, ns⟩ (· = body')
      ⟨as, ns ++ notes⟩ := by
  have hseparator {c : Char} {b : Bool} {as : List Token} {ns : List Note}
      (hc : ((ofMark c).is "," || (ofMark c).is ")") = true) (hb : (ofMark c).is ")" = b) :
      Reads (require "',' or ')'" fun t => t.is "," || t.is ")") ⟨ofMark c :: as, ns⟩
        (·.is ")" = b) ⟨as, ns⟩ :=
    (Reads.require (fun _ => rfl) hc).imp fun t ht => by rw [← hb, ← ht]; rfl
  induction h generalizing ns with
  | nil body =>
    rw [List.append_nil]
    refine .loop_stop ((hseparator (b := true) (by decide) (by decide)).bind fun t ht => ?_) rfl
    rw [ht]
    exact .pure rfl
  | @cons body body' body'' item items notes notes' hx hs ih =>
    have htokens : tokens ((item :: items).flatMap (comma ++ ·)) ++ ofMark ')' :: as =
        ofMark ',' ::
          (tokens item ++ (tokens (items.flatMap (comma ++ ·)) ++ ofMark ')' :: as)) := by
      simp [comma]
    rw [htokens, ← List.append_assoc ns]
    apply Reads.loop_next (P := (· = body'))
    · apply (hseparator (b := false) (by decide) (by decide)).bind
      intro t ht
      rw [ht]
      exact (hx.reads (startsIn_commas _ items)).seq (.pure ⟨body', rfl, rfl⟩)
    · simp only [List.length_cons, List.length_append]
      omega
    · rintro _ rfl
      exact ih

/-- A body whose items are read is read up to the closing parenthesis. -/
theorem reads_tableBody {as : List Token} {ns : List Note} (hne : xs ≠ [])
    (h : ReadsItems earlier ⟨t, false⟩ xs notes body) :
    Reads (tableBody earlier t) ⟨tokens (commas xs) ++ ofMark ')' :: as, ns⟩ (· = body.table)
      ⟨as, ns ++ notes⟩ := by
  cases h with
  | nil => exact absurd rfl hne
  | @cons _ body' _ item items notes notes' hx hs =>
    rw [commas, tokens_append, List.append_assoc, ← List.append_assoc ns]
    apply (hx.reads (startsIn_commas _ items)).seq
    exact hs.reads.seq (.pure rfl)

end SqliteSchema.Definition
