import SqliteSchema.Proofs.Parser.Resume
import SqliteSchema.Proofs.Schema.Continued

/-!
Places in the bodies of tables. A schema is read up to a column definition or a table constraint,
and it is taken up there again: first the rest of the body and of the statement, then the statements
behind it.
-/
namespace SqliteSchema.Definition

open SqliteSchema.Parser

variable {source source' : List Char} {registry earlier earlier' : Registry} {s t : ParseState}

/-- A statement whose body is being read: the tables before it, its first token and the body so
far. -/
structure Unfinished where
  earlier : Registry
  create : Token
  body : Body
  deriving DecidableEq, Repr

/-- A statement up to its body. -/
def opening (earlier : Registry) : Parser Unfinished := do
  let create ← statementKeyword .CREATE "CREATE TABLE"
  let temporary ← eatAnyKeyword [.TEMP, .TEMPORARY]
  let _ ← statementKeyword .TABLE "TABLE"
  ifNotExists
  let table ← tableName earlier
  refuseAs
  return ⟨earlier, create, { table := { table with isTemporary := temporary.isSome } }⟩

/-- The first `k` items of a body, each with the token in front of it. -/
def items (earlier : Registry) (body : Body) : Nat → Parser Body
  | 0 => return body
  | k + 1 => do
    let _ ← expect "("
    let first ← bodyItem earlier body
    rounds (bodyRound earlier) k first

/-- Behind `n` statements and stray semicolons, up to the token in front of the item of a body that
has `k` others before it. -/
def upToItem (source : List Char) (registry : Registry) (n k : Nat) : Parser Unfinished := do
  let earlier ← rounds (schemaRound source) n registry
  let x ← opening earlier
  return { x with body := ← items x.earlier x.body k }

/-- The token in front of an item that has `k` others before it. -/
def separator : Nat → String
  | 0 => "("
  | _ + 1 => ","

instance (k : Nat) : Letterless (separator k) := by
  cases k with
  | zero => exact inferInstanceAs (Letterless "(")
  | succ => exact inferInstanceAs (Letterless ",")

/-- A column definition up to its constraints. -/
def columnOpening (body : Body) : Parser Table := do
  let first ← current "a column definition or table constraint"
  if startsConstraint first then fail (.unexpected "a column definition" first)
  else if body.constrained then fail (.unexpected "a table constraint" first)
  else columnHead body.table

/-- Behind an item: the rest of its statement and the statements that follow. -/
def behindItem (source : List Char) (x : Unfinished) (body : Body) : Parser Registry := do
  let body ← loop (bodyRound x.earlier) body
  let options ← tableOptions
  let table ← ofExcept (applyOptions body.table options)
  let semicolon ← expect ";"
  schema source (x.earlier.add { table with createTableText := slice source x.create semicolon })

/-! ### Going on -/

theorem length_lt_of_schemaRound {r : Registry}
    (h : schemaRound source registry s = .ok (some r) t) : t.rest.length < s.rest.length := by
  obtain ⟨done, u, hu, hmore⟩ := bind_eq_ok h
  cases hu
  split at hmore
  · cases hmore
  obtain ⟨stray, v, hstray, hend⟩ := bind_eq_ok hmore
  cases stray with
  | true =>
    cases hend
    obtain ⟨_, hrest, -, -⟩ := eat_eq_true hstray
    rw [hrest, List.length_cons]
    exact Nat.lt_succ_self _
  | false =>
    obtain ⟨table, u, hcreate, hend⟩ := bind_eq_ok hend
    cases hend
    obtain rfl := eat_eq_false hstray
    exact length_lt_of_createTable hcreate

theorem length_lt_of_bodyRound {body body' : Body}
    (h : bodyRound earlier body s = .ok (some body') t) : t.rest.length < s.rest.length := by
  obtain ⟨separator, u, hseparator, hmore⟩ := bind_eq_ok h
  obtain ⟨hrest, -, -⟩ := require_eq_ok hseparator
  split at hmore
  · cases hmore
  obtain ⟨body'', v, hitem, hend⟩ := bind_eq_ok hmore
  cases hend
  have hrekeyed : body.Rekeyed Eq body := ⟨.refl _, rfl⟩
  rw [hrest, List.length_cons]
  exact Nat.lt_succ_of_le
    ((mirrors_bodyItem (.refl earlier) hrekeyed).suffix u _ _ hitem).length_le

theorem length_lt_of_clauseRound {index : Nat} {table table' : Table}
    (h : clauseRound earlier index table s = .ok (some table') t) :
    t.rest.length < s.rest.length := by
  obtain ⟨more, u, hu, hmore⟩ := bind_eq_ok h
  cases hu
  split at hmore
  · obtain ⟨_, v, hname, hmore⟩ := bind_eq_ok hmore
    obtain ⟨token, w, htoken, hmore⟩ := bind_eq_ok hmore
    obtain ⟨hrest, -, -⟩ := require_eq_ok htoken
    obtain ⟨table'', x, hconstraint, hend⟩ := bind_eq_ok hmore
    cases hend
    have hfirst := (mirrors_constraintName.suffix _ _ v hname).length_le
    have hbehind := ((mirrors_columnConstraint (.refl earlier) (.refl table) index
      (.refl token)).suffix w _ _ hconstraint).length_le
    rw [hrest, List.length_cons] at hfirst
    omega
  · cases hmore

/-- Where a statement starts, a schema goes on with it. -/
theorem schema_of_opening {x : Unfinished} (h : opening earlier s = .ok x t) :
    schema source earlier s = (opening earlier >>= fun x =>
      expect "(" >>= fun _ => bodyItem x.earlier x.body >>= behindItem source x) s := by
  have hcreate : (createTable source earlier >>= fun table => schema source (earlier.add table)) =
      opening earlier >>= fun x =>
        expect "(" >>= fun _ => bodyItem x.earlier x.body >>= behindItem source x := by
    simp only [createTable, opening, tableBody, bind_assoc, pure_bind]
    rfl
  rw [← hcreate]
  obtain ⟨create, u, hkeyword, -⟩ := bind_eq_ok h
  obtain ⟨hrest, hcreate, -⟩ := statementKeyword_eq_ok hkeyword
  have hsemicolon := Token.is_semicolon_of_isKeyword hcreate
  rw [bind_apply]
  cases htable : createTable source earlier s with
  | error e v => exact schema_of_error hrest hsemicolon htable
  | ok table v =>
    exact schema_of_createTable hrest hsemicolon htable (length_lt_of_createTable htable)

theorem resumes_bodyRound (earlier : Registry) (body : Body) :
    Resumes (bodyRound earlier body) (expect ",") fun _ =>
      bodyItem earlier body >>= fun body => pure (some body) := by
  intro s w t h
  obtain ⟨hrest, hcomma, ht⟩ := require_eq_ok h
  have hclosing : w.is ")" = false := Token.is_of_is hcomma
  have hseparator : require "',' or ')'" (fun t => t.is "," || t.is ")") s = .ok w t := by
    unfold require
    rw [hrest, ht]
    exact if_pos (Bool.or_eq_true_iff.2 (.inl hcomma))
  rw [bodyRound, bind_apply, hseparator]
  dsimp only
  rw [hclosing]
  rfl

/-- A schema is taken up behind the token in front of an item. -/
theorem resumes_item (source : List Char) (registry : Registry) (n k : Nat) :
    Resumes (schema source registry) (do
      let x ← upToItem source registry n k
      let _ ← expect (separator k)
      return x) fun x => bodyItem x.earlier x.body >>= behindItem source x := by
  have hstatements : Resumes (schema source registry) (rounds (schemaRound source) n registry)
      (schema source) := .rounds (fun _ _ _ _ => length_lt_of_schemaRound) n registry
  have hopening (earlier : Registry) : Resumes (schema source earlier) (opening earlier) fun x =>
      expect "(" >>= fun _ => bodyItem x.earlier x.body >>= behindItem source x := by
    intro s x t h
    rw [schema_of_opening h]
    exact Resumes.refl _ _ s x t h
  have hround (earlier : Registry) (body : Body) : Resumes (loop (bodyRound earlier) body)
      (expect ",") fun _ => bodyItem earlier body >>= loop (bodyRound earlier) :=
    .round (fun _ _ _ => length_lt_of_bodyRound) (resumes_bodyRound earlier body)
  simp only [upToItem, bind_assoc, pure_bind]
  refine hstatements.bind fun earlier => (hopening earlier).bind fun x => ?_
  cases k with
  | zero => exact (Resumes.refl _ _).bind fun _ => .done rfl
  | succ k =>
    simp only [items, bind_assoc]
    refine (Resumes.refl _ _).bind fun _ => (Resumes.refl _ _).bind fun first =>
      ((Resumes.rounds (fun _ _ _ _ => length_lt_of_bodyRound) k first).left _).bind fun body =>
      ((hround x.earlier body).left _).bind fun _ => .done ?_
    rw [bind_assoc]
    rfl

/-- A column definition is taken up in front of its constraints. -/
theorem resumes_columnOpening (earlier : Registry) (body : Body) :
    Resumes (bodyItem earlier body) (columnOpening body) fun table =>
      columnConstraints earlier body.table.columns.length table >>= fun table =>
        pure { body with table := table } := by
  unfold bodyItem columnOpening
  refine (Resumes.refl (current _) _).bind fun first => ?_
  refine Resumes.ite_not (Resumes.ite_not ?_)
  simp only [columnDefinition_eq, bind_assoc]
  exact Resumes.refl _ _

/-! ### The same places -/

/-- Unfinished statements that are the same up to the texts of the tables before them. -/
structure Unfinished.Same (x x' : Unfinished) : Prop where
  earlier : x.earlier.SameTables x'.earlier
  body : x.body = x'.body

theorem mirrors_opening (h : earlier.SameTables earlier') :
    Mirrors .text Unfinished.Same (opening earlier) (opening earlier') :=
  (mirrors_statementKeyword _ _).bind fun _ _ _ => Mirrors.eatAnyKeyword.seq fun _ =>
    (mirrors_statementKeyword _ _).bind fun _ _ _ => mirrors_ifNotExists.seq fun _ =>
    (mirrors_tableName h.sameShapes).seq fun _ => mirrors_refuseAs.seq fun _ => .pure ⟨h, rfl⟩

theorem mirrors_items (h : earlier.SameShapes earlier') (body : Body) (k : Nat) :
    Mirrors .text Eq (items earlier body k) (items earlier' body k) := by
  refine .imp (V := Body.Rekeyed Eq) ?_ fun _ _ hbody => hbody.eq
  cases k with
  | zero => exact .pure ⟨.refl _, rfl⟩
  | succ k =>
    exact Mirrors.expect.bind fun _ _ _ => (mirrors_bodyItem h ⟨.refl _, rfl⟩).bind
      fun _ _ hfirst => .rounds (fun _ _ hbody => mirrors_bodyRound h hbody) k hfirst

theorem mirrors_upToItem (source source' : List Char) (registry : Registry) (n k : Nat) :
    Mirrors .text Unfinished.Same (upToItem source registry n k)
      (upToItem source' registry n k) := by
  refine .bind (V := Registry.SameTables) (.rounds (fun r r' hr => ?_) n (.refl registry))
    fun _ _ hearlier => (mirrors_opening hearlier).bind fun x x' hx => ?_
  · exact mirrors_schemaRound source source' (fun _ _ h => Registry.SameTables.sameShapes h)
      (fun _ _ _ _ h ht => Registry.SameTables.add h ht) hr
  · rw [← hx.body]
    exact (mirrors_items hx.earlier.sameShapes x.body k).seq fun _ => .pure ⟨hx.earlier, rfl⟩

theorem mirrors_columnOpening {K : List ForeignKey → List ForeignKey → Prop} {body body' : Body}
    (h : body.Rekeyed K body') :
    Mirrors .text (Table.Rekeyed K) (columnOpening body) (columnOpening body') := by
  refine Mirrors.current.bind fun t t' ht => ?_
  cases Comparison.like_text_iff.1 ht with
  | intro v k p q =>
  rw [h.constrained]
  exact .ite (mirrors_fail ⟨rfl, rfl⟩) (.ite (mirrors_fail ⟨rfl, rfl⟩) (mirrors_columnHead h.table))

/-- What stays the same of the registry behind an item whose foreign keys are not the same. -/
theorem mirrors_behindItem (source source' : List Char)
    {K : List ForeignKey → List ForeignKey → Prop} [Extensible K] {V : Registry → Registry → Prop}
    (hshapes : ∀ r r', V r r' → r.SameShapes r')
    (hadd : ∀ r r' t t', V r r' → Table.SameButText t t' → V (r.add t) (r'.add t'))
    {x x' : Unfinished} (hx : x.earlier.SameShapes x'.earlier)
    (hV : ∀ table table' text text', Table.Rekeyed K table table' →
      V (x.earlier.add { table with createTableText := text })
        (x'.earlier.add { table' with createTableText := text' }))
    {body body' : Body} (hbody : body.Rekeyed K body') :
    Mirrors .text V (behindItem source x body) (behindItem source' x' body') :=
  .bind (.loop (fun _ _ hbody => mirrors_bodyRound hx hbody) hbody) fun _ _ hbody =>
    mirrors_tableOptions.bind fun _ _ ho =>
    (Mirrors.ofExcept (sameResult_applyOptions hbody.table ho)).bind fun _ _ ht =>
    Mirrors.expect.bind fun _ _ _ =>
    mirrors_schema_of source source' hshapes hadd (hV _ _ _ _ ht)

theorem mirrors_behindItem_same (source source' : List Char) {x x' : Unfinished}
    (hx : x.earlier.SameTables x'.earlier) {body body' : Body} (hbody : body = body') :
    Mirrors .text Registry.SameTables (behindItem source x body) (behindItem source' x' body') := by
  subst hbody
  refine mirrors_behindItem (K := Eq) source source'
    (fun _ _ h => Registry.SameTables.sameShapes h)
    (fun _ _ _ _ h ht => Registry.SameTables.add h ht) hx.sameShapes
    (fun table table' text text' ht => hx.add ?_) ⟨.refl _, rfl⟩
  rw [← ht.eq]
  exact .intro { table with createTableText := text } text'

end SqliteSchema.Definition
