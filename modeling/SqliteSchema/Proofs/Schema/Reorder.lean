import SqliteSchema.Proofs.Schema.Column

/-!
Schemas with the constraints of a column in another order. What is read behind the column hangs on
its table, but not on the order of foreign keys, so that the schema comes to the same tables.
-/
namespace SqliteSchema

theorem Token.forall₂_same_iff {ts ts' : List Token} :
    List.Forall₂ Same ts ts' ↔ ts.map atStart = ts'.map atStart := by
  rw [← List.forall₂_eq_eq_eq, List.forall₂_map_left_iff, List.forall₂_map_right_iff]
  exact ⟨fun h => h.imp fun _ _ => same_iff.1, fun h => h.imp fun _ _ => same_iff.2⟩

/-- Tables that differ in their texts and the order of their foreign keys at most. -/
inductive Table.Reordered : Table → Table → Prop
  | intro (t : Table) (text : String) {keys : List ForeignKey} (h : t.foreignKeys.Perm keys) :
    Reordered t { t with createTableText := text, foreignKeys := keys }

theorem Table.Reordered.sameShape {t t' : Table} (h : t.Reordered t') : t.SameShape t' := by
  cases h with
  | @intro text keys h => exact .intro t text keys

theorem Table.Reordered.trans {t t' t'' : Table} (h : t.Reordered t') (h' : t'.SameButText t'') :
    t.Reordered t'' := by
  cases h with
  | intro text hkeys =>
    cases h' with
    | intro text' => exact .intro t text' hkeys

theorem Table.SameButText.trans {t t' t'' : Table} (h : t.SameButText t')
    (h' : t'.SameButText t'') : t.SameButText t'' := by
  cases h with
  | intro text =>
    cases h' with
    | intro text' => exact .intro t text'

theorem forall₂_sameButText_trans {ts ts' ts'' : List Table}
    (h : List.Forall₂ Table.SameButText ts ts') (h' : List.Forall₂ Table.SameButText ts' ts'') :
    List.Forall₂ Table.SameButText ts ts'' := by
  induction h generalizing ts'' with
  | nil => exact h'
  | cons ht _ ih =>
    cases h' with
    | cons ht' h' => exact .cons (ht.trans ht') (ih h')

/-- Registries that differ in the texts of their tables and, for the table `n`, in the order of the
foreign keys at most. -/
inductive Registry.Reordered (n : Nat) : Registry → Registry → Prop
  | intro {before before' behind behind' : List Table} {t t' : Table} (hn : before.length = n)
    (hbefore : List.Forall₂ Table.SameButText before before') (ht : t.Reordered t')
    (hbehind : List.Forall₂ Table.SameButText behind behind') :
    Reordered n ⟨before ++ t :: behind⟩ ⟨before' ++ t' :: behind'⟩

namespace Registry.Reordered

variable {n : Nat} {r r' r'' : Registry} {t t' : Table}

theorem add (h : r.Reordered n r') (ht : t.SameButText t') :
    (r.add t).Reordered n (r'.add t') := by
  cases h with
  | intro hn hbefore hkeys hbehind =>
    unfold Registry.add
    rw [List.append_assoc, List.append_assoc]
    exact .intro hn hbefore hkeys (List.rel_append hbehind (.cons ht .nil))

theorem sameShapes (h : r.Reordered n r') : r.SameShapes r' := by
  cases h with
  | intro hn hbefore hkeys hbehind =>
    exact List.rel_append (hbefore.imp fun _ _ ht => ht.sameShape)
      (.cons hkeys.sameShape (hbehind.imp fun _ _ ht => ht.sameShape))

theorem trans (h : r.Reordered n r') (h' : r'.SameTables r'') : r.Reordered n r'' := by
  cases h with
  | intro hn hbefore hkeys hbehind =>
    obtain ⟨tables⟩ := r''
    obtain ⟨before, others, rfl, hbefore', hothers⟩ := List.exists_append_of_forall₂ h'
    cases hothers with
    | cons ht hbehind' =>
      exact .intro hn (forall₂_sameButText_trans hbefore hbefore') (hkeys.trans ht)
        (forall₂_sameButText_trans hbehind hbehind')

end Registry.Reordered

namespace Definition

open SqliteSchema.Parser

/-- Orders of foreign keys. -/
instance : Extensible List.Perm := ⟨fun key h => h.append_right [key]⟩

/-- The rest of a column and of the schema, from its constraints on. -/
def behindOpening (source : List Char) (x : Unfinished) (table : Table) : Parser Registry := do
  let table ← columnConstraints x.earlier x.body.table.columns.length table
  behindItem source x { x.body with table := table }

theorem resumes_column (source : List Char) (x : Unfinished) :
    Resumes (bodyItem x.earlier x.body >>= behindItem source x) (columnOpening x.body)
      (behindOpening source x) := by
  refine ((resumes_columnOpening x.earlier x.body).left (behindItem source x)).congr fun table => ?_
  simp only [behindOpening, bind_assoc, pure_bind]

/-- A schema is taken up in front of the constraints of a column. -/
theorem resumes_constraints (source : List Char) (registry : Registry) (n k : Nat) :
    Resumes (schema source registry) (upToConstraints source registry n k) fun x =>
      behindOpening source x.1 x.2 := by
  have hitem := (resumes_item source registry n k).bind fun x =>
    (resumes_column source x).bind fun table => .done (b := (x, table))
      (l := fun x : Unfinished × Table => behindOpening source x.1 x.2) rfl
  simpa only [upToConstraints, bind_assoc, pure_bind] using hitem

theorem points_behindItem {ts : List Token} (source : List Char) (x : Unfinished) (body : Body) :
    PointsInto ts (behindItem source x body) := by
  have hany (table : Table) : table.Named fun _ => True := ⟨trivial, fun _ _ => trivial⟩
  exact (points_moreItems (fun _ _ => trivial) _ (hany _)).bind fun _ _ =>
    points_tableOptions.bind fun _ ho => (points_applyOptions (hany _) ho).bind fun _ _ =>
    Points.expect.seq fun _ => points_schema _ _

/-- Behind a column the order of foreign keys does not matter. -/
theorem mirrors_behindItem_perm (source : List Char) (x : Unfinished) {table table' : Table}
    (h : table.Rekeyed List.Perm table') (body : Body) :
    Mirrors .text (Registry.Reordered x.earlier.tables.length)
      (behindItem source x { body with table := table })
      (behindItem source x { body with table := table' }) := by
  refine mirrors_behindItem (K := List.Perm) source source
    (fun _ _ hr => hr.sameShapes) (fun _ _ _ _ hr ht => hr.add ht) (.refl _)
    (fun t t' text text' ht => ?_) ⟨h, rfl⟩
  cases ht with
  | intro hkeys =>
    have hearlier := Registry.SameTables.refl x.earlier
    exact .intro rfl hearlier (.intro { t with createTableText := text } text' hkeys) .nil

/-- A column is read with its clauses in another order, and the rest of the schema behind it. -/
theorem reordered_of_column {source : List Char} {x : Unfinished} {table table' : Table}
    {r : Registry} {s s' s'' t : ParseState} {cs cs' : List (List Token)}
    (hopening : columnOpening x.body s = .ok table s')
    (hclauses : Clauses x.earlier x.body.table.columns.length table s' cs table' s'')
    (hbehind : behindItem source x { x.body with table := table' } s'' = .ok r t)
    (hnone : ∀ c ∈ cs, ∀ t ∈ c, t.isParameter = false)
    (hother : ∀ c ∈ cs, refersTo table c = false) (hcollation : cs.countP collates ≤ 1)
    (hperm : cs'.Perm cs) :
    ∃ head r' t', s.rest = head ++ (cs.flatten ++ s''.rest) ∧
      (bodyItem x.earlier x.body >>= behindItem source x)
        { s with rest := head ++ (cs'.flatten ++ s''.rest) } = .ok r' t' ∧
      r.Reordered x.earlier.tables.length r' ∧ t'.notes.Perm t.notes := by
  have hindex : x.body.table.columns.length < table.columns.length := by
    rw [length_of_columnOpening x.body s table s' hopening]
    exact Nat.lt_succ_self _
  obtain ⟨u, ws, hkeys, hws, hclauses'⟩ := hclauses.perm hindex hnone hother hcollation hperm
  obtain ⟨vs, hvs, hreported⟩ := (points_behindItem source x _).reported
    (List.Subset.refl s''.rest) hbehind
  have hsame (vs : List Warning) : List.Forall₂ Comparison.text.SameWarning vs vs :=
    List.forall₂_same.2 fun _ _ => ⟨rfl, fun _ => rfl, fun _ _ => rfl⟩
  have hrest : List.Forall₂ Comparison.text.Like s''.rest
      ({ s'' with warnings := ws } : ParseState).rest :=
    List.forall₂_same.2 fun _ _ => .refl _
  obtain ⟨r', t', hbehind', hr, ht⟩ := (mirrors_behindItem_perm source x hkeys x.body).of_ok
    (hreported ws) hrest rfl (hsame ws)
  have hlocal := local_columnOpening (B := True) hclauses.ends.2 hclauses'.ends.2 x.body
  obtain ⟨head, hhead⟩ := Agree.suffix hlocal.keeps hopening
  have hopening' : columnOpening x.body { s with rest := head ++ (cs'.flatten ++ s''.rest) } =
      .ok table { s' with rest := cs'.flatten ++ s''.rest } := by
    obtain ⟨rest, ps, warnings⟩ := s
    obtain rfl : head ++ s'.rest = rest := hhead
    exact hlocal.moves head [] (fun _ => trivial) hopening
  refine ⟨head, r', t', ?_, ?_, hr, ?_⟩
  · rw [← hclauses.rest, hhead]
  · have hconstraints := columnConstraints_eq_ok.2 ⟨cs', hclauses'⟩
    rw [resumes_column source x _ _ _ hopening', behindOpening, bind_apply, hconstraints]
    exact hbehind'
  · have hnotes : t'.notes = (ws ++ vs).map fun w => (w.code, w.message) :=
      (Comparison.sameWarnings_text_iff.1 ht).symm
    rw [hnotes, ParseState.notes, hvs]
    exact (hws.append_right vs).map _

/-- A column starts with its name. -/
theorem name_of_columnOpening {body : Body} {table : Table} {s t : ParseState}
    (h : columnOpening body s = .ok table t) :
    ∃ name ts, s.rest = name :: (ts ++ t.rest) ∧ name.is "." = false := by
  have hlocal : LocalReading [] [] False (columnOpening body) :=
    local_columnOpening ⟨misses_nil, misses_nil⟩ ⟨misses_nil, misses_nil⟩ body
  obtain ⟨⟨head, hhead⟩, hlength⟩ := (hlocal.reads _ s (Nat.le_refl _)).2 _ _ h
  obtain ⟨first, u, hfirst, hmore⟩ := bind_eq_ok h
  obtain ⟨rfl, -⟩ := current_eq_ok hfirst
  split at hmore
  · cases hmore
  split at hmore
  · cases hmore
  obtain ⟨name, v, hname, -⟩ := bind_eq_ok hmore
  obtain ⟨hrest, hidentifier, -⟩ := require_eq_ok hname
  have hpoint : name.is "." = false := by
    refine Bool.eq_false_iff.2 fun hpoint => ?_
    have hnone : name.isIdentifier = false := by
      apply Token.isIdentifier_eq_false <;> rw [Token.value_of_is hpoint] <;> decide +kernel
    cases hnone.symm.trans hidentifier
  cases head with
  | nil =>
    rw [← hhead] at hlength
    exact absurd hlength (Nat.lt_irrefl _)
  | cons w ts =>
    obtain ⟨rfl, -⟩ := List.cons.inj (hhead.trans hrest)
    exact ⟨w, ts, hhead.symm, hpoint⟩

/-- A schema is read with other tokens behind the first one of an item, if its tables are. -/
theorem schema_of_item {source source' : List Char} {registry r : Registry} {n k : Nat}
    {x : Unfinished} {tokens tokens' front ts ts' : List Token} {mark name : Token}
    {u t : ParseState}
    (hitem : upToItem source registry n k { rest := tokens } = .ok x u)
    (hfront : tokens = front ++ u.rest) (hu : u.rest = mark :: name :: ts)
    (hpoint : name.is "." = false)
    (hrun : (expect (separator k) >>= fun _ => bodyItem x.earlier x.body >>= behindItem source x)
      { u with rest := mark :: name :: ts' } = .ok r t)
    (hsame : List.Forall₂ Token.Same (front ++ mark :: name :: ts') tokens') :
    ∃ r' t', schema source' registry { rest := tokens' } = .ok r' t' ∧ r.SameTables r' ∧
      t'.notes = t.notes := by
  obtain ⟨front', more, rfl, hfront', hmore⟩ := List.exists_append_of_forall₂
    (hsame.imp fun _ _ => Comparison.like_text_iff.2)
  have hnear : Near .text u.rest more := by
    obtain ⟨mark', others, hmark', hothers, rfl⟩ := List.forall₂_cons_left_iff.1 hmore
    obtain ⟨name', others, hname', -, rfl⟩ := List.forall₂_cons_left_iff.1 hothers
    rw [hu]
    exact .two hmark' hname' hpoint
  have hrest : ({ rest := front' ++ more } : ParseState).rest = front' ++ more := rfl
  obtain ⟨x', u', hitem', hx, rfl, hparameters, hwarnings⟩ :=
    (mirrors_upToItem source source' registry n k).moved hitem hfront hrest hfront' hnear rfl .nil
  have hbody : x.body.Rekeyed Eq x'.body := hx.body ▸ ⟨.refl _, rfl⟩
  obtain ⟨r', t', hgo, hr, ht⟩ := (Mirrors.expect.bind fun _ _ _ =>
    (mirrors_bodyItem hx.earlier.sameShapes hbody).bind fun _ _ hb =>
    mirrors_behindItem_same source source' hx.earlier hb.eq).of_ok hrun hmore hparameters hwarnings
  obtain ⟨mark', v', hmark', hgo⟩ := bind_eq_ok hgo
  refine ⟨r', t', (resumes_item source' registry n k _ x' v' ?_).trans hgo, hr,
    (Comparison.sameWarnings_text_iff.1 ht).symm⟩
  rw [bind_apply, hitem']
  dsimp only
  rw [bind_apply, hmark']
  rfl

/-- A schema is read with the clauses of a column in another order. -/
theorem reordered_of_schema {source : List Char} {registry r : Registry} {tokens : List Token}
    {n k : Nat} {x : Unfinished} {table : Table} {s t : ParseState}
    (h : schema source registry { rest := tokens } = .ok r t)
    (hx : upToConstraints source registry n k { rest := tokens } = .ok (x, table) s) :
    ∃ front, tokens = front ++ s.rest ∧ ∀ {cs cs' : List (List Token)} {table' : Table}
      {s' : ParseState} (source' : List Char) {tokens' : List Token},
      Clauses x.earlier x.body.table.columns.length table s cs table' s' →
      (∀ c ∈ cs, ∀ t ∈ c, t.isParameter = false) → (∀ c ∈ cs, refersTo table c = false) →
      cs.countP collates ≤ 1 → cs'.Perm cs →
      List.Forall₂ Token.Same (front ++ (cs'.flatten ++ s'.rest)) tokens' →
      ∃ r' t', schema source' registry { rest := tokens' } = .ok r' t' ∧
        r.Reordered x.earlier.tables.length r' ∧ t'.notes.Perm t.notes := by
  have hall : behindOpening source x table s = .ok r t :=
    (resumes_constraints source registry n k _ _ _ hx).symm.trans h
  obtain ⟨x, u, hitem, hmore⟩ := bind_eq_ok hx
  obtain ⟨mark, v, hmark, hmore⟩ := bind_eq_ok hmore
  obtain ⟨table, s, hopening, hend⟩ := bind_eq_ok hmore
  cases hend
  obtain ⟨hu, hseparator, hv⟩ := require_eq_ok hmark
  obtain ⟨front, hfront⟩ := (mirrors_upToItem source source registry n k).suffix _ _ _ hitem
  obtain ⟨name, ts, hname, hpoint⟩ := name_of_columnOpening hopening
  rw [hname] at hu
  refine ⟨front ++ mark :: name :: ts, ?_, fun {cs cs' table' s'} source' tokens' hclauses hnone
    hother hcollation hperm htokens => ?_⟩
  · rw [List.append_assoc, List.cons_append, List.cons_append, ← hu]
    exact hfront.symm
  have hbehind : behindItem source x { x.body with table := table' } s' = .ok r t := by
    rw [behindOpening, bind_apply, columnConstraints_eq_ok.2 ⟨cs, hclauses⟩] at hall
    exact hall
  -- First the clauses change places among the same tokens, then all tokens may move.
  obtain ⟨head, r₁, t₁, hhead, hrun, hr, ht⟩ :=
    reordered_of_column hopening hclauses hbehind hnone hother hcollation hperm
  obtain rfl : name :: ts = head := by
    rw [hname, hclauses.rest] at hhead
    exact List.append_cancel_right hhead
  have hrun' : (expect (separator k) >>= fun _ => bodyItem x.earlier x.body >>= behindItem source x)
      { u with rest := mark :: name :: (ts ++ (cs'.flatten ++ s'.rest)) } = .ok r₁ t₁ := by
    have hmark' : expect (separator k)
        { u with rest := mark :: name :: (ts ++ (cs'.flatten ++ s'.rest)) } = .ok mark
        { v with rest := name :: ts ++ (cs'.flatten ++ s'.rest) } := by
      rw [hv]
      exact if_pos hseparator
    rw [bind_apply, hmark']
    exact hrun
  rw [List.append_assoc] at htokens
  obtain ⟨r', t', hschema, hr', ht'⟩ :=
    schema_of_item hitem hfront.symm hu hpoint hrun' htokens
  exact ⟨r', t', hschema, hr.trans hr', ht' ▸ ht⟩

end Definition

/-- The constraints of a column commute. Each column of a new table is read somewhere, and there its
constraints are clauses. A text with these clauses in another order is accepted as well, and it
declares the same tables and reports the same, unless clauses contain bind parameters, refer to
their own table or name two collations. -/
theorem extend_reordered {registry r : Registry} {text : String} {ws : List Warning}
    {tokens : List Token} (h : registry.extend text = .ok (r, ws))
    (htokens : Token.tokenize text = .ok tokens) :
    (∀ i j t, registry.tables.length ≤ i → r.tables[i]? = some t → j < t.columns.length →
      ∃ n k x table s,
        Definition.upToConstraints text.toList registry n k { rest := tokens } =
          .ok (x, table) s ∧ x.earlier.tables.length = i ∧ x.body.table.columns.length = j) ∧
    ∀ n k x table s,
      Definition.upToConstraints text.toList registry n k { rest := tokens } = .ok (x, table) s →
      ∃ front, tokens = front ++ s.rest ∧
        (∃ cs table' s', Definition.Clauses x.earlier x.body.table.columns.length table s cs
          table' s') ∧
        ∀ (cs cs' : List (List Token)) (table' : Table) (s' : ParseState) (text' : String)
          (tokens' : List Token),
          Definition.Clauses x.earlier x.body.table.columns.length table s cs table' s' →
          (∀ c ∈ cs, ∀ t ∈ c, t.isParameter = false) →
          (∀ c ∈ cs, Definition.refersTo table c = false) →
          cs.countP Definition.collates ≤ 1 → cs'.Perm cs → Token.tokenize text' = .ok tokens' →
          List.Forall₂ Token.Same (front ++ (cs'.flatten ++ s'.rest)) tokens' →
          ∃ r' ws', registry.extend text' = .ok (r', ws') ∧
            r.Reordered x.earlier.tables.length r' ∧
            (ws'.map fun w => (w.code, w.message)).Perm (ws.map fun w => (w.code, w.message)) := by
  obtain ⟨_, t, htext, hschema, rfl⟩ := Registry.extend_eq_ok h
  cases htokens.symm.trans htext
  refine ⟨fun i j t hi ht hj => Definition.exists_column hschema hi ht hj,
    fun n k x table s hx => ?_⟩
  obtain ⟨front, hfront, hreordered⟩ := Definition.reordered_of_schema hschema hx
  refine ⟨front, hfront, ?_, fun cs cs' table' s' text' tokens' hclauses hnone hother hcollation
    hperm htext' hsame => ?_⟩
  · have hall := Definition.resumes_constraints text.toList registry n k _ _ _ hx
    obtain ⟨table', s', hconstraints, -⟩ := Parser.bind_eq_ok (hall.symm.trans hschema)
    obtain ⟨cs, hclauses⟩ := Definition.columnConstraints_eq_ok.1 hconstraints
    exact ⟨cs, table', s', hclauses⟩
  · obtain ⟨r', t', hschema', hr, ht⟩ := hreordered text'.toList hclauses hnone hother hcollation
      hperm hsame
    refine ⟨r', t'.warnings, ?_, hr, ht⟩
    rw [Registry.extend_of_tokenize htext', Parser.run, hschema']

/-- Two foreign keys, one of which ends in front of a `NOT` that it might go on with, and a
collation with a name. The clauses are turned round. -/
theorem extend_reordered_references :
    let text := "CREATE TABLE u(k PRIMARY KEY);CREATE TABLE t(a TEXT REFERENCES u MATCH FULL " ++
      "NOT NULL CONSTRAINT c COLLATE d REFERENCES u ON DELETE CASCADE);"
    let text' := "CREATE TABLE u(k PRIMARY KEY);CREATE TABLE t(a TEXT REFERENCES u ON DELETE " ++
      "CASCADE CONSTRAINT c COLLATE d NOT NULL REFERENCES u MATCH FULL);"
    let registry : Registry := {}
    ∃ r ws tokens tokens' front x table s cs table' s', registry.extend text = .ok (r, ws) ∧
      Token.tokenize text = .ok tokens ∧ Token.tokenize text' = .ok tokens' ∧
      (∃ t, r.tables[1]? = some t ∧ 0 < t.columns.length ∧ ∃ n k x table s,
        Definition.upToConstraints text.toList registry n k { rest := tokens } =
          .ok (x, table) s ∧ x.earlier.tables.length = 1 ∧ x.body.table.columns.length = 0) ∧
      Definition.upToConstraints text.toList registry 1 0 { rest := tokens } =
        .ok (x, table) s ∧
      tokens = front ++ s.rest ∧
      Definition.Clauses x.earlier x.body.table.columns.length table s cs table' s' ∧
      (∀ c ∈ cs, ∀ t ∈ c, t.isParameter = false) ∧
      (∀ c ∈ cs, Definition.refersTo table c = false) ∧ cs.countP Definition.collates ≤ 1 ∧
      List.Forall₂ Token.Same (front ++ (cs.reverse.flatten ++ s'.rest)) tokens' ∧
      ∃ r' ws', registry.extend text' = .ok (r', ws') ∧ r.Reordered 1 r' ∧
        (ws'.map fun w => (w.code, w.message)).Perm (ws.map fun w => (w.code, w.message)) := by
  intro text text' registry
  let word (value : String) (column : Nat) : Token := ⟨value, .other, ⟨column, 0, column⟩⟩
  let front := [word "CREATE" 0, word "TABLE" 7, word "u" 13, word "(" 14, word "k" 15,
    word "PRIMARY" 17, word "KEY" 25, word ")" 28, word ";" 29, word "CREATE" 30, word "TABLE" 37,
    word "t" 43, word "(" 44, word "a" 45, word "TEXT" 47]
  let reference := [word "REFERENCES" 52, word "u" 63, word "MATCH" 65, word "FULL" 71]
  let notNull := [word "NOT" 76, word "NULL" 80]
  let collation := [word "CONSTRAINT" 85, word "c" 96, word "COLLATE" 98, word "d" 106]
  let cascade := [word "REFERENCES" 108, word "u" 119, word "ON" 121, word "DELETE" 124,
    word "CASCADE" 131]
  let rest := [word ")" 138, word ";" 139]
  let cs := [reference, notNull, collation, cascade]
  let tokens := front ++ (reference ++ (notNull ++ (collation ++ (cascade ++ rest))))
  let u : Table := { Table.named 0 "u" with
    columns := [{ Column.declare 0 "k" "" with primaryKey := true }]
    primaryKey := [0]
    createTableText := "CREATE TABLE u(k PRIMARY KEY);" }
  let key : ForeignKey := ⟨[0], 0, [0], .noAction, .noAction⟩
  let marked (keys : List ForeignKey) (notNull : Bool) (collation : Option String) : Table :=
    { Table.named 1 "t" with
      columns := [{ Column.declare 1 "a" "TEXT" with notNull := notNull, collation := collation }]
      foreignKeys := keys }
  let keys := [key, { key with onDelete := .cascade }]
  let w : Warning := ⟨.matchNotEnforced, "MATCH FULL is parsed but not enforced", some ⟨65, 0, 65⟩⟩
  let w' : Warning := ⟨.unknownCollation, "Unknown collation 'd'", some ⟨106, 0, 106⟩⟩
  let x : Definition.Unfinished := ⟨⟨[u]⟩, word "CREATE" 30, { table := Table.named 1 "t" }⟩
  let t := { marked keys true (some "d") with
    createTableText := String.ofList (text.toList.drop 30) }
  have htokens : Token.tokenize text = .ok tokens := by decide +kernel
  have hplain : (Token.tokenize text').map (·.map Token.atStart) =
      .ok ((front ++ (cs.reverse.flatten ++ rest)).map Token.atStart) := by
    decide +kernel
  obtain ⟨tokens', htokens', hsame⟩ : ∃ tokens', Token.tokenize text' = .ok tokens' ∧
      List.Forall₂ Token.Same (front ++ (cs.reverse.flatten ++ rest)) tokens' := by
    cases htokens' : Token.tokenize text' with
    | error e =>
      rw [htokens'] at hplain
      cases hplain
    | ok tokens' =>
      rw [htokens'] at hplain
      exact ⟨tokens', rfl, Token.forall₂_same_iff.2 (Except.ok.inj hplain).symm⟩
  have h : registry.extend text = .ok (⟨[u, t]⟩, [w, w']) := by
    rw [Registry.extend_of_tokenize htokens]
    decide +kernel
  have hx : Definition.upToConstraints text.toList registry 1 0 { rest := tokens } =
      .ok (x, marked [] false none)
        ⟨reference ++ (notNull ++ (collation ++ (cascade ++ rest))), {}, []⟩ :=
    Parser.eq_ok_of_success? (by decide +kernel)
  have hclauses : Definition.Clauses ⟨[u]⟩ 0 (marked [] false none)
      ⟨reference ++ (notNull ++ (collation ++ (cascade ++ rest))), {}, []⟩ cs
      (marked keys true (some "d")) ⟨rest, {}, [w, w']⟩ := by
    have hreference : Definition.clause ⟨[u]⟩ 0 (marked [] false none)
        ⟨reference ++ (notNull ++ (collation ++ (cascade ++ rest))), {}, []⟩ =
        .ok (marked [key] false none) ⟨notNull ++ (collation ++ (cascade ++ rest)), {}, [w]⟩ :=
      Parser.eq_ok_of_success? (by decide +kernel)
    have hnotNull : Definition.clause ⟨[u]⟩ 0 (marked [key] false none)
        ⟨notNull ++ (collation ++ (cascade ++ rest)), {}, [w]⟩ =
        .ok (marked [key] true none) ⟨collation ++ (cascade ++ rest), {}, [w]⟩ :=
      Parser.eq_ok_of_success? (by decide +kernel)
    have hcollation : Definition.clause ⟨[u]⟩ 0 (marked [key] true none)
        ⟨collation ++ (cascade ++ rest), {}, [w]⟩ =
        .ok (marked [key] true (some "d")) ⟨cascade ++ rest, {}, [w, w']⟩ :=
      Parser.eq_ok_of_success? (by decide +kernel)
    have hcascade : Definition.clause ⟨[u]⟩ 0 (marked [key] true (some "d"))
        ⟨cascade ++ rest, {}, [w, w']⟩ = .ok (marked keys true (some "d")) ⟨rest, {}, [w, w']⟩ :=
      Parser.eq_ok_of_success? (by decide +kernel)
    exact .cons hreference rfl (.cons hnotNull rfl (.cons hcollation rfl (.cons hcascade rfl
      (.nil (by decide +kernel)))))
  have hnone : ∀ c ∈ cs, ∀ t ∈ c, t.isParameter = false := by decide +kernel
  have hother : ∀ c ∈ cs, Definition.refersTo (marked [] false none) c = false := by
    decide +kernel
  have hcollation : cs.countP Definition.collates ≤ 1 := by decide +kernel
  obtain ⟨hplaces, hcolumns⟩ := extend_reordered h htokens
  have hplace := hplaces 1 0 t (Nat.zero_le 1) rfl Nat.one_pos
  obtain ⟨front', hfront, -, hreordered⟩ := hcolumns 1 0 x _ _ hx
  obtain rfl : front = front' := List.append_cancel_right hfront
  exact ⟨_, _, tokens, tokens', _, x, _, _, cs, _, _, h, htokens, htokens',
    ⟨t, rfl, Nat.one_pos, hplace⟩, hx, rfl, hclauses, hnone, hother, hcollation, hsame,
    hreordered cs cs.reverse _ _ text' tokens' hclauses hnone hother hcollation cs.reverse_perm
      htokens' hsame⟩

end SqliteSchema
