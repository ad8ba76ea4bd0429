import SqliteSchema.Proofs.Expr.Collect
import SqliteSchema.Query.Select

/-!
The bind parameters of a query. They are numbered in the order of the text, whichever clause they
stand in; those in a group that the parser passes over get no number, and the parameters behind
the group are numbered as if it held none.
-/
namespace SqliteSchema.Query

open SqliteSchema.Parser

variable {P : List Token → Prop}

theorem collects_givenName? : Collects P givenName? := by
  refine Collects.eatKeyword.bind fun _ => .ite (Collects.expectIdentifier.bind fun _ => .pure _) <|
    Collects.bind (.accept fun t ht => ?_) fun _ => .pure _
  exact Token.isParameter_of_isIdentifier (Bool.and_eq_true_iff.1 ht).1

theorem collects_allColumnsOf : Collects (fun ts => startsAllColumnsOf ts = true) allColumnsOf := by
  have hstarts {t u v : Token} {ts : List Token}
      (h : startsAllColumnsOf (t :: u :: v :: ts) = true) :
      t.isIdentifier = true ∧ u.is "." = true ∧ v.is "*" = true := by
    simpa [startsAllColumnsOf, and_assoc] using h
  refine .advanceThen (fun t ts h => ?_) fun t => .advanceThen (fun u ts h => ?_) fun u =>
    .advanceThen (fun v ts h => ?_) fun v => .pure _
  · obtain _ | ⟨u, _ | ⟨v, ts⟩⟩ := ts
    · cases h
    · cases h
    · exact Token.isParameter_of_isIdentifier (hstarts h).1
  · obtain _ | ⟨v, ts⟩ := ts
    · cases h
    · exact Token.isParameter_of_is (hstarts h).2.1 (by decide)
  · exact Token.isParameter_of_is (hstarts h).2.2 (by decide)

theorem collects_namedColumn (registry : Registry) : Collects P (namedColumn registry) := by
  refine .current fun first => (Expr.collects_parse _ _ _).bind fun e => ?_
  split
  · exact collects_givenName?.bind fun _ => .pure _
  · exact .fail _

theorem collects_selectItem (registry : Registry) : Collects P (selectItem registry) :=
  .current fun _ => (Collects.eat (by decide)).bind fun _ => .ite (.pure _) <|
    .lookIf (collects_allColumnsOf.mono fun _ h => h.2) (collects_namedColumn registry)

theorem collects_indexHint : Collects P indexHint := by
  refine Collects.eatKeyword.bind fun _ => .ite
    (Collects.expectKeyword.bind fun _ => Collects.expectIdentifier.bind fun _ => .pure _) <|
    .lookIf (.advanceThen (fun t ts h => ?_) fun t => .advanceThen (fun u ts h => ?_) fun u =>
      .pure _) (.pure _)
  · exact Token.isParameter_of_isKeyword (Bool.and_eq_true_iff.1 h.2).1
  · exact Token.isParameter_of_isKeyword (Bool.and_eq_true_iff.1 h.2).2

theorem collects_refuseJoin : Collects P refuseJoin := by
  refine .look fun next => ?_
  split
  · exact .ite (.fail _) (.pure _)
  · exact .pure _

theorem collects_knownTable (registry : Registry) : Collects P (knownTable registry) := by
  refine Collects.expectIdentifier.bind fun name => .look fun _ => .ite (.fail _) ?_
  split
  · exact .pure _
  · exact .fail _

theorem collects_extendFrom (registry : Registry) (sources : List Source) :
    Collects P (extendFrom registry sources) :=
  Collects.bind (.current fun _ => .ite (.fail _) (.pure _)) fun _ =>
    (collects_knownTable registry).bind fun _ => collects_givenName?.bind fun _ =>
    .ite (.fail _) <| collects_indexHint.bind fun _ => collects_refuseJoin.bind fun _ => .pure _

theorem collects_fromClause (registry : Registry) : Collects P (fromClause registry) := by
  refine Collects.eatKeyword.bind fun _ => .ite
    ((collects_extendFrom registry _).bind fun _ => .loop (fun sources => ?_) _) (.pure _)
  exact (Collects.eat (by decide)).bind fun _ => .ite
    ((collects_extendFrom registry _).bind fun _ => .pure _) (.pure _)

theorem collects_whereClause (context : Context) : Collects P (whereClause context) :=
  Collects.eatKeyword.bind fun _ => .ite
    ((Expr.collects_parse context _ .all).bind fun _ => .pure _) (.pure _)

theorem collects_orderClause (context : Context) : Collects P (orderClause context) :=
  Collects.eatKeyword.bind fun _ => .ite
    (Collects.expectKeyword.bind fun _ => Expr.collects_orderingTerms context)
    (.pure _)

theorem collects_offset (context : Context) : Collects P (offset context) :=
  have hexpr : ∀ P, Collects P (do let _ ← Expr.parse context .all) := fun P =>
    (Expr.collects_parse context P .all).bind fun _ => .pure _
  Collects.eatKeyword.bind fun _ => .ite (hexpr _) <|
    (Collects.eat (by decide)).bind fun _ => .ite (hexpr _) (.pure _)

theorem collects_limitClause (context : Context) : Collects P (limitClause context) :=
  Collects.eatKeyword.bind fun _ => .ite
    ((Expr.collects_parse context _ .all).bind fun _ => collects_offset context) (.pure _)

theorem collects_openSelect : Collects P openSelect := by
  refine .current fun first => ?_
  split
  · next hfirst =>
    have hadvance : Collects (fun ts => P ts ∧ ts.head? = some first) (advance "SELECT") :=
      Collects.advance.mono fun _ hts =>
        plain_of_head (Token.isParameter_of_isKeyword hfirst) hts.2
    exact hadvance.bind fun _ => .pure _
  · exact .fail _

theorem collects_distinctness : Collects P distinctness :=
  Collects.eatKeyword.bind fun _ => .ite (.pure _) (Collects.eatKeyword.bind fun _ => .pure _)

theorem collects_finish : Collects P finish := by
  refine (Collects.eat (by decide)).bind fun _ => .look fun next => ?_
  split
  · exact .fail _
  · exact .pure _

variable {registry : Registry} {s t : ParseState}

/-- A query has no token behind it. -/
theorem rest_of_finish (h : finish s = .ok () t) : t.rest = [] := by
  obtain ⟨_, u, -, h⟩ := bind_eq_ok h
  obtain ⟨next, v, hpeek, h⟩ := bind_eq_ok h
  cases hpeek
  cases hnext : u.rest with
  | nil =>
    simp only [hnext, List.head?_nil] at h
    cases h
    exact hnext
  | cons w rest =>
    simp only [hnext, List.head?_cons] at h
    cases h

theorem parameters_of_process {q q' : Query} (h : q.process = .ok q') :
    q'.parameters = q.parameters := by
  obtain ⟨-, rfl⟩ | ⟨ps, -, -, rfl⟩ := process_eq_ok h
  · rfl
  · rfl

theorem collects_boundParameters : Collects P boundParameters := by
  intro s parameters t _ h
  cases h
  exact .refl s

theorem collects_select (registry : Registry) : Collects P (select registry) :=
  collects_openSelect.bind fun _ => collects_distinctness.bind fun _ =>
    (Collects.separated fun _ => collects_selectItem registry).bind fun _ =>
    (collects_fromClause registry).bind fun _ => (collects_whereClause _).bind fun _ =>
    (collects_orderClause _).bind fun _ => (collects_limitClause _).bind fun _ =>
    collects_finish.bind fun _ => collects_boundParameters.bind fun _ => .ofExcept _

/-- A query reads all tokens, and its parameters are those that its parser has registered. -/
theorem select_eq_ok {q : Query} (h : select registry s = .ok q t) :
    t.rest = [] ∧ q.parameters = t.parameters := by
  -- Only what stands behind the seven clauses matters.
  iterate 7 obtain ⟨_, _, -, h⟩ := bind_eq_ok h
  obtain ⟨_, u, hfinish, h⟩ := bind_eq_ok h
  obtain ⟨_, _, hparameters, h⟩ := bind_eq_ok h
  cases hparameters
  generalize hprocess : process _ = r at h
  cases r with
  | error e => cases h
  | ok q' =>
    cases h
    exact ⟨rest_of_finish hfinish, parameters_of_process hprocess⟩

/-- The bind parameters of an accepted query are numbered in the order of its tokens, and none of
them is lost, except for those in groups that are passed over. -/
theorem parameters_of_ofText {text : String} {q : Query} {ws : List Warning}
    (h : ofText registry text = .ok (q, ws)) :
    ∃ read : List Stretch, Token.tokenize text = .ok (read.flatMap Stretch.tokens) ∧
      Parameters.registerAll {} (read.flatMap Stretch.shown) = .ok q.parameters ∧
      (read.flatMap Stretch.hidden = [] →
        Parameters.registerAll {} ((read.flatMap Stretch.tokens).filter (·.isParameter)) =
          .ok q.parameters) := by
  unfold ofText at h
  split at h
  · cases h
  · next tokens htokens =>
    unfold Parser.run at h
    split at h
    · next s hs =>
      cases h
      obtain ⟨hrest, hparameters⟩ := select_eq_ok hs
      obtain ⟨read, hread, hregister⟩ :=
        collects_select (P := fun _ => True) registry _ _ _ trivial hs
      rw [hrest, List.append_nil] at hread
      rw [← hparameters] at hregister
      have htokens' : tokens = read.flatMap Stretch.tokens := hread
      subst htokens'
      refine ⟨read, htokens, hregister, fun hhidden => ?_⟩
      rw [Stretch.filter_flatMap_tokens hhidden]
      exact hregister
    · cases h

/-- Parameters in every clause, and two groups that are passed over. -/
theorem parameters_of_ofText_clauses :
    let table := { Table.named 0 "t" with columns := [.declare 0 "a" "INTEGER"] }
    let text :=
      "SELECT a FROM t WHERE a IN (?3, :b) AND a = (SELECT :c) AND f(?) AND EXISTS (?) " ++
      "ORDER BY a COLLATE NOCASE, :b LIMIT @d OFFSET ?"
    ∃ q ws, ofText ⟨[table]⟩ text = .ok (q, ws) ∧
      q.parameters.entries.map (fun p => (p.number, p.outputName)) =
        [(3, "param3"), (4, "b"), (5, "param5"), (6, "d"), (7, "param7")] ∧
      ∃ read : List Stretch, Token.tokenize text = .ok (read.flatMap Stretch.tokens) ∧
        Parameters.registerAll {} (read.flatMap Stretch.shown) = .ok q.parameters ∧
        (read.flatMap Stretch.hidden = [] →
          Parameters.registerAll {} ((read.flatMap Stretch.tokens).filter (·.isParameter)) =
            .ok q.parameters) := by
  intro table text
  have hread : (ofText ⟨[table]⟩ text).map (fun x => x.1.parameters.entries.map
      fun p => (p.number, p.outputName)) =
      .ok [(3, "param3"), (4, "b"), (5, "param5"), (6, "d"), (7, "param7")] := by
    decide +kernel
  cases h : ofText ⟨[table]⟩ text with
  | error e =>
    rw [h] at hread
    cases hread
  | ok x =>
    obtain ⟨q, ws⟩ := x
    rw [h] at hread
    exact ⟨q, ws, rfl, Except.ok.inj hread, parameters_of_ofText h⟩

/-- A parameter that is passed over is lost, and the one behind it gets a lower number than its
place in the text. -/
theorem exists_lost_parameter :
    ¬ ∀ registry text q ws tokens, ofText registry text = .ok (q, ws) →
      Token.tokenize text = .ok tokens →
      Parameters.registerAll {} (tokens.filter (·.isParameter)) = .ok q.parameters := by
  intro hall
  let table := { Table.named 0 "t" with columns := [.declare 0 "a" "INTEGER"] }
  let text := "SELECT a FROM t WHERE EXISTS (SELECT 1 FROM t WHERE a = ?) AND a = ?"
  have hread : (ofText ⟨[table]⟩ text).map (fun x => x.1.parameters) =
      .ok ⟨[⟨1, "param1", none⟩], 1⟩ := by
    decide +kernel
  have hregister : (Token.tokenize text).map (fun tokens =>
      Parameters.registerAll {} (tokens.filter (·.isParameter))) =
      .ok (.ok ⟨[⟨1, "param1", none⟩, ⟨2, "param2", none⟩], 2⟩) := by
    decide +kernel
  cases hq : ofText ⟨[table]⟩ text with
  | error e =>
    rw [hq] at hread
    cases hread
  | ok x =>
  obtain ⟨q, ws⟩ := x
  cases htokens : Token.tokenize text with
  | error e =>
    rw [htokens] at hregister
    cases hregister
  | ok tokens =>
  have hclaim := hall _ text q ws tokens hq htokens
  rw [hq] at hread
  rw [htokens] at hregister
  have hparameters : q.parameters = ⟨[⟨1, "param1", none⟩], 1⟩ := Except.ok.inj hread
  have htwo : q.parameters = ⟨[⟨1, "param1", none⟩, ⟨2, "param2", none⟩], 2⟩ :=
    Except.ok.inj (hclaim.symm.trans (Except.ok.inj hregister))
  have hhighest : (1 : Nat) = 2 := congrArg Parameters.highest (hparameters.symm.trans htwo)
  cases hhighest

end SqliteSchema.Query
