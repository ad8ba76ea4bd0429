import SqliteSchema.Proofs.Schema.ReadStatement

/-!
Every printable schema is read back from its text, with the texts of its statements in it and with
the warnings that its collations call for.
-/
namespace SqliteSchema

open SqliteSchema.Parser Piece

namespace Definition

variable {r : Registry}

theorem eat_apply_not {symbol : String} {s : ParseState} {token : Token} {rest : List Token}
    (hs : s.rest = token :: rest) (h : token.is symbol = false) : eat symbol s = .ok false s := by
  have haccept : accept (·.is symbol) s = .ok none s := by
    unfold accept
    simp only [hs, h, Bool.false_eq_true, if_false]
  rw [eat, bind_apply, haccept]
  rfl

/-- A registry to which a statement adds its table. -/
theorem schema_of_createTable {source : List Char} {registry : Registry} {table : Table}
    {s s' : ParseState} {token : Token} {rest : List Token} (hs : s.rest = token :: rest)
    (ht : token.is ";" = false) (hc : createTable source registry s = .ok table s')
    (hl : s'.rest.length < s.rest.length) :
    schema source registry s = schema source (registry.add table) s' := by
  have hmore : look List.isEmpty s = .ok false s := by
    unfold look
    rw [hs]
    rfl
  have hround : (do
      if ← look List.isEmpty then return none
      else if ← eat ";" then return some registry
      else return some (registry.add (← createTable source registry)) :
        Parser (Option Registry)) s = .ok (some (registry.add table)) s' := by
    rw [bind_apply, hmore]
    dsimp only
    rw [if_neg (by decide), bind_apply, eat_apply_not hs ht]
    dsimp only
    rw [if_neg (by decide), bind_apply, hc]
    rfl
  rw [schema, loop, hround]
  simp only [hl, if_true]
  rfl

theorem lines_append (xs ys : List Table) : r.lines (xs ++ ys) = r.lines xs ++ r.lines ys :=
  List.flatMap_append

theorem lines_cons (t : Table) (ts : List Table) :
    r.lines (t :: ts) = t.statement r ++ .gap '\n' :: r.lines ts := by
  rw [Registry.lines, List.flatMap_cons, List.append_assoc]
  rfl

/-- The statements of the tables behind the first `n` ones. -/
theorem schema_lines (hr : r.WellFormed) (hf : r.Referenced) (hp : ∀ t ∈ r.tables, t.Printable)
    {tables : List Table} {n : Nat} (hn : r.tables.drop n = tables) {s : ParseState} {p : Position}
    (hpos : p.absolute = (chars (r.lines (r.tables.take n))).length)
    (hs : s.rest = place p (r.lines tables)) :
    ∃ s', schema (chars (r.lines r.tables)) (r.retold n) s = .ok (r.retold r.tables.length) s' ∧
      (view s').notes = (view s).notes ++ tables.flatMap (·.notes) := by
  induction tables generalizing n s p with
  | nil =>
    have hempty : look List.isEmpty s = .ok true s := by
      unfold look
      rw [hs]
      rfl
    have hall : r.retold n = r.retold r.tables.length := by
      rw [Registry.retold, List.take_of_length_le (List.drop_eq_nil_iff.1 hn), Registry.retold,
        List.take_length]
    refine ⟨s, ?_, (List.append_nil _).symm⟩
    rw [schema, loop, bind_apply, hempty, hall]
    rfl
  | cons t tables ih =>
    have ht : r.tables[n]? = some t := by
      rw [← List.head?_drop, hn]
      rfl
    have hid := hr.ids n t ht
    subst hid
    have htables : r.tables = r.tables.take t.id ++ t :: tables := by
      rw [← hn, List.take_append_drop]
    have hnext : r.tables.drop (t.id + 1) = tables := by
      rw [← List.tail_drop, hn, List.tail_cons]
    have htake : r.lines (r.tables.take (t.id + 1)) =
        r.lines (r.tables.take t.id) ++ (t.statement r ++ [.gap '\n']) := by
      rw [Table.take_add_one ht, lines_append, lines_cons]
      rfl
    have hsource : chars (r.lines r.tables) = chars (r.lines (r.tables.take t.id)) ++
        chars (t.statement r) ++ chars (.gap '\n' :: r.lines tables) := by
      rw [← chars_append, ← chars_append, List.append_assoc, ← lines_cons, ← lines_append,
        ← htables]
    rw [lines_cons] at hs
    obtain ⟨s₁, hcreate, hrest₁, hnotes₁⟩ :=
      createTable_statement hr hf ht (hp t (List.mem_of_getElem? ht)) hpos hs
    rw [← hsource] at hcreate
    have hlength : s₁.rest.length < s.rest.length := by
      have hpos : 0 < (place p (t.statement r)).length := Nat.succ_pos _
      rw [hrest₁, hs, place_append, List.length_append]
      omega
    have hpos₁ : ((p.after (chars (t.statement r))).after ['\n']).absolute =
        (chars (r.lines (r.tables.take (t.id + 1)))).length := by
      have hline : (chars [.gap '\n']).length = ['\n'].length := rfl
      rw [htake, chars_append, chars_append, List.length_append, List.length_append, ← hpos, hline,
        Position.absolute_after, Position.absolute_after, Nat.add_assoc]
    have hword (p : Position) :
        (⟨String.ofList (keyword .CREATE).text, .other, p⟩ : Token).is ";" = false := by
      change (⟨String.ofList (keyword .CREATE).text, .other, .start⟩ : Token).is ";" = false
      decide +kernel
    have hadd : (r.retold t.id).add (t.retold r) = r.retold (t.id + 1) := by
      rw [Registry.retold, Registry.retold, Table.take_add_one ht, List.map_append]
      rfl
    obtain ⟨s₂, hschema, hnotes₂⟩ := ih hnext hpos₁ hrest₁
    refine ⟨s₂, ?_, ?_⟩
    · rw [schema_of_createTable hs (hword p) hcreate hlength, hadd]
      exact hschema
    · rw [hnotes₂, hnotes₁, List.append_assoc]
      rfl

end Definition

namespace Registry

/-- A schema that is printed is read back, and every table with its statement as its text. -/
theorem ofText_print {r : Registry} (hr : r.WellFormed) (hf : r.Referenced)
    (hp : ∀ t ∈ r.tables, t.Printable) :
    ∃ ws, ofText r.print = .ok (⟨r.tables.map (·.retold r)⟩, ws) ∧
      ws.map (fun w => (w.code, w.message)) = r.tables.flatMap (·.notes) := by
  have htokens : Token.tokenize r.print = .ok (place .start (r.lines r.tables)) := by
    rw [Token.tokenize, print, String.toList_ofList]
    exact stream_chars (separate_lines hp hp) .start
  have hsource : r.print.toList = chars (r.lines r.tables) := String.toList_ofList
  obtain ⟨s, hschema, hnotes⟩ := Definition.schema_lines hr hf hp (n := 0) List.drop_zero
    (s := { rest := place .start (r.lines r.tables) }) rfl rfl
  have hall : r.retold r.tables.length = ⟨r.tables.map (·.retold r)⟩ := by
    rw [retold, List.take_length]
  rw [hall] at hschema
  refine ⟨s.warnings, ?_, hnotes⟩
  rw [ofText, extend, htokens, hsource]
  dsimp only
  rw [Parser.run]
  have hstart : Definition.schema (chars (r.lines r.tables)) {}
      { rest := place .start (r.lines r.tables) } = .ok ⟨r.tables.map (·.retold r)⟩ s := hschema
  rw [hstart]

example :
    print ⟨[{ Table.named 0 "a" with
      columns := [{ Column.declare 0 "x" "INT" with unique := true }, .declare 0 "y z" ""]
      primaryKey := [1, 0] }]⟩ =
    "CREATE TABLE [a] ([x] INT, [y z], UNIQUE ([x]), PRIMARY KEY ([y z], [x]));\n" := by
  decide +kernel

/-- Two tables with keys of all kinds. -/
theorem ofText_print_keys :
    ∃ (r : Registry) (ws : List Warning),
      (r.WellFormed ∧ r.Referenced ∧ ∀ t ∈ r.tables, t.Printable) ∧
      ofText r.print = .ok (⟨r.tables.map (·.retold r)⟩, ws) ∧
      ws.map (fun w => (w.code, w.message)) = r.tables.flatMap (·.notes) := by
  let a : Table := { Table.named 0 "a" with
    columns := [
      { Column.declare 0 "x" "INTEGER" with primaryKey := true, autoIncrement := true },
      { Column.declare 0 "y z" "CHAR(10)" with unique := true, collation := some "RTRIM" }]
    createTableText :=
      "CREATE TABLE a(x INTEGER PRIMARY KEY AUTOINCREMENT, [y z] CHAR(10) COLLATE RTRIM UNIQUE);"
    primaryKey := [0] }
  let b : Table := { Table.named 1 "b" with
    columns := [
      .declare 1 "u" "",
      { Column.declare 1 "v" "TEXT" with notNull := true },
      .declare 1 "w" "DECIMAL(10,2)"]
    createTableText :=
      "CREATE TABLE b(u REFERENCES a, v TEXT NOT NULL, w DECIMAL(10,2), PRIMARY KEY(v,u), " ++
        "UNIQUE(w,u)) WITHOUT ROWID;"
    primaryKey := [1, 0]
    uniqueSets := [[2, 0]]
    foreignKeys := [⟨[0], 0, [0], .noAction, .noAction⟩]
    withoutRowid := true }
  have hfirst : extend {} a.createTableText = .ok (⟨[a]⟩, []) := by decide +kernel
  have hsecond : extend ⟨[a]⟩ b.createTableText = .ok (⟨[a, b]⟩, []) := by decide +kernel
  have hrun := (declares_of_extend hfirst).trans (declares_of_extend hsecond)
  have hr : Registry.WellFormed ⟨[a, b]⟩ := (wellFormed_empty.run hrun).1
  have hf : Registry.Referenced ⟨[a, b]⟩ := referenced_empty.run hrun
  have htype {w size : String} (hw : IsTypeWord w) (hs : IsTypeSize size) :
      IsDeclaredType (w ++ size) := by
    have h := IsDeclaredType.some (List.cons_ne_nil w []) (by simpa using hw) hs
    rwa [String.intercalate_singleton] at h
  have ha : a.Printable := by
    refine ⟨List.cons_ne_nil _ _, ⟨?_, ?_⟩, rfl, by decide +kernel, by decide +kernel, by decide,
      by decide, by simp [a, Column.declare]; decide, fun c hc => ?_⟩
    · exact fun h => absurd h Bool.false_ne_true
    · exact fun h => absurd h Bool.false_ne_true
    simp only [a, List.mem_cons, List.not_mem_nil, or_false] at hc
    rcases hc with rfl | rfl
    · exact htype (w := "INTEGER") (by decide +kernel) .none
    · exact htype (w := "CHAR") (by decide +kernel) (.one (n := "10") (by decide))
  have hb : b.Printable := by
    refine ⟨List.cons_ne_nil _ _, ⟨fun _ => List.cons_ne_nil _ _, ?_⟩, rfl, by decide +kernel,
      by decide +kernel, by decide, by decide, by simp [b, Column.declare], fun c hc => ?_⟩
    · exact fun h => absurd h Bool.false_ne_true
    simp only [b, List.mem_cons, List.not_mem_nil, or_false] at hc
    rcases hc with rfl | rfl | rfl
    · exact .none
    · exact htype (w := "TEXT") (by decide +kernel) .none
    · exact htype (w := "DECIMAL") (by decide +kernel)
        (.two (n := "10") (m := "2") (by decide) (by decide))
  have hp : ∀ t ∈ [a, b], t.Printable := by
    simpa using ⟨ha, hb⟩
  obtain ⟨ws, h⟩ := ofText_print hr hf hp
  exact ⟨_, ws, ⟨hr, hf, hp⟩, h⟩

end Registry

end SqliteSchema
