import SqliteSchema.Expr.Unfold
import SqliteSchema.Proofs.Parser.Reads
import SqliteSchema.Proofs.Query.Parameters
import SqliteSchema.Proofs.Query.Points
import SqliteSchema.Proofs.Query.Print

/-!
Printed queries are read back. A column of a select list is read as an expression, so what follows
it must not go on with one; an alias without `AS` is told from the next clause by its brackets.
-/
namespace SqliteSchema

open SqliteSchema.Parser Token

namespace Token

variable {s symbol : String}

/-- A token is taken for what it is taken for elsewhere. -/
theorem eq_of_atStart {β : Type} {f : Token → β} {t a : Token} (hf : ∀ t, f t = f t.atStart)
    (ht : t.atStart = a) : f t = f a := by
  rw [hf, ht]

theorem keyword_ofName : (ofName s).keyword = none := by
  cases hk : (ofName s).keyword with
  | none => rfl
  | some k => exact absurd (isKeyword_iff_keyword.2 hk) (by simp)

/-- No name is a mark. -/
theorem is_ofName (h : symbol.toList.head? ≠ some '[') : (ofName s).is symbol = false := by
  rw [Bool.eq_false_iff]
  intro he
  refine h ?_
  rw [← value_of_is he, ofName, String.toList_ofList]
  rfl

end Token

/-- What stands behind an item of a list: a comma, or the clause after the list. -/
def listEnds : List Token := [ofMark ',', ofKeyword .FROM]

/-- What stands behind a column of a select list. -/
inductive BehindColumn : Token → Prop
  | ends {b : Token} (hb : b ∈ listEnds) : BehindColumn b
  | as : BehindColumn (ofKeyword .AS)
  | name (s : String) : BehindColumn (ofName s)

variable {a b c : Token} {as bs cs : List Token} {ns : List Note} {registry : Registry}

/-- It goes on with no expression. -/
theorem BehindColumn.facts (hb : BehindColumn b) :
    b.is "." = false ∧ b.is "(" = false ∧ b.isBinary = false ∧
      (b.keyword = none ∨ b.keyword = some .FROM ∨ b.keyword = some .AS) := by
  cases hb with
  | ends hb =>
    have hall : ∀ b ∈ listEnds, b.is "." = false ∧ b.is "(" = false ∧ b.isBinary = false ∧
        (b.keyword = none ∨ b.keyword = some .FROM ∨ b.keyword = some .AS) := by
      decide +kernel
    exact hall b hb
  | as => exact ⟨is_ofKeyword rfl, is_ofKeyword rfl, rfl, .inr (.inr keyword_ofKeyword)⟩
  | name s =>
    exact ⟨is_ofName (by decide), is_ofName (by decide), rfl, .inl keyword_ofName⟩

theorem exists_two {ts : List Token} (h : ts.map Token.atStart = a :: b :: cs) :
    ∃ t u rest, ts = t :: u :: rest ∧ t.atStart = a ∧ u.atStart = b ∧
      rest.map Token.atStart = cs := by
  obtain ⟨t, ts, rfl, ht, h⟩ := List.map_eq_cons_iff.1 h
  obtain ⟨u, rest, rfl, hu, h⟩ := List.map_eq_cons_iff.1 h
  exact ⟨t, u, rest, rfl, ht, hu, h⟩

/-! ### Columns as expressions -/

namespace Expr

variable {context : Context} {operand : Operand} {Q : Expr → Prop} {v : View} {first : String}

/-- An operand that starts with a name in brackets is a column, unless a parenthesis follows. -/
theorem reads_primary (hc : c.is "(" = false)
    (h : Reads (columnOperand context) ⟨ofName first :: c :: cs, ns⟩ Q v) :
    Reads (primary context operand) ⟨ofName first :: c :: cs, ns⟩ Q v := by
  have hliteral : isLiteralValue (ofName first) = false := by
    simp only [isLiteralValue, isKeyword_ofName, Bool.or_eq_false_iff, List.any_eq_false]
    exact ⟨rfl, fun _ _ => Bool.false_ne_true⟩
  refine (Reads.accept_not (fun _ => rfl) hliteral).seq (Reads.current.bind fun token ht => ?_)
  have hparameter : token.isParameter = false :=
    (eq_of_atStart (fun _ => rfl) ht).trans (isParameter_of_isIdentifier isIdentifier_ofName)
  rw [if_neg (by rw [hparameter]; decide)]
  refine .seq (x := false) (Reads.look fun ts hts => ?_) ?_
  · obtain ⟨t, u, rest, rfl, -, hu, -⟩ := exists_two hts
    have hparen : u.is "(" = false := (eq_of_atStart (f := (·.is "(")) (fun _ => rfl) hu).trans hc
    rw [startsFunction, hparen, Bool.false_and]
  · have hkeyword : token.keyword = none :=
      (eq_of_atStart (fun _ => rfl) ht).trans keyword_ofName
    have hparen : token.is "(" = false :=
      (eq_of_atStart (f := (·.is "(")) (fun _ => rfl) ht).trans (is_ofName (by decide))
    have hunary : token.isUnary = false := eq_of_atStart (fun _ => rfl) ht
    unfold simpleOperand
    rw [hkeyword]
    dsimp only
    rw [if_neg (by decide), if_neg (by rw [hparen]; decide), if_neg (by rw [hunary]; decide)]
    exact h

/-- Behind a column there are no clauses of an expression. -/
theorem reads_trailingClause (hb : BehindColumn b) :
    Reads (trailingClause context operand) ⟨b :: bs, ns⟩ (· = false) ⟨b :: bs, ns⟩ := by
  refine Reads.peek.bind ?_
  rintro _ ⟨t, rfl, ht⟩
  have hkeyword : (some t).bind Token.keyword = b.keyword :=
    eq_of_atStart (f := Token.keyword) (fun _ => rfl) ht
  rw [hkeyword]
  obtain ⟨-, -, -, hnone | hfrom | has⟩ := hb.facts
  · rw [hnone]
    exact .pure rfl
  · rw [hfrom]
    exact .pure rfl
  · rw [has]
    exact .pure rfl

/-- A column is the whole expression. -/
theorem reads_parse (hc : c.is "(" = false) (hb : BehindColumn b)
    (h : Reads (columnOperand context) ⟨ofName first :: c :: cs, ns⟩ Q ⟨b :: bs, ns⟩) :
    Reads (parse context .all) ⟨ofName first :: c :: cs, ns⟩ Q ⟨b :: bs, ns⟩ := by
  rw [parse_eq_layer]
  refine (reads_primary hc h).bind fun e he => ?_
  have hclauses : Reads (trailingClauses context (parse context)) ⟨b :: bs, ns⟩ (· = false)
      ⟨b :: bs, ns⟩ :=
    .loop_stop ((reads_trailingClause hb).seq (.pure rfl)) rfl
  have hmore : Reads (chained (parse context) .all) ⟨b :: bs, ns⟩ (· = false) ⟨b :: bs, ns⟩ := by
    refine .seq (x := false) (Reads.look_none (fun _ => rfl) ?_) (.pure rfl)
    rintro _ ⟨⟩
    rw [hb.facts.2.2.1, Bool.false_and]
  exact hclauses.seq (hmore.seq (.pure he))

/-- `[table.]column` is read where no scope restricts it. -/
theorem reads_reference {table : Option String} {column : String} (hb : BehindColumn b) :
    Reads (parse ⟨registry, .deferred⟩ .all)
      ⟨Query.Outline.referenceTokens table column ++ b :: bs, ns⟩
      (∃ r, · = .column r ∧ r.table.map Token.unquoted = table ∧ r.column.unquoted = column)
      ⟨b :: bs, ns⟩ := by
  obtain ⟨hpoint, hparen, -⟩ := hb.facts
  have hcheck {r : ColumnReference} (h : r.table.map Token.unquoted = table ∧
      r.column.unquoted = column) :
      Reads (do
        ofExcept (Scope.check registry .deferred r)
        return Expr.column r) ⟨b :: bs, ns⟩
        (∃ r, · = .column r ∧ r.table.map Token.unquoted = table ∧ r.column.unquoted = column)
        ⟨b :: bs, ns⟩ :=
    (Reads.ofExcept rfl).seq (.pure ⟨r, rfl, h⟩)
  have hname {s : String} {as : List Token} :
      Reads (require "an expression" isColumnName) ⟨ofName s :: as, ns⟩ (·.unquoted = s)
        ⟨as, ns⟩ := by
    have hcolumn : isColumnName (ofName s) = true := by
      rw [isColumnName, isIdentifier_ofName, keyword_ofName]
      rfl
    exact (Reads.require (fun _ => rfl) hcolumn).imp fun t ht =>
      (eq_of_atStart (fun _ => rfl) ht).trans unquoted_ofName
  cases table with
  | none =>
    refine reads_parse hparen hb (Reads.bind ?_ fun r => hcheck)
    exact hname.bind fun t ht => (Reads.eat_not hpoint).seq (.pure ⟨rfl, ht⟩)
  | some table =>
    refine reads_parse (by decide) hb (Reads.bind ?_ fun r => hcheck)
    refine hname.bind fun t ht => (Reads.eat (by decide)).seq (Reads.name.bind fun u hu => ?_)
    refine .seq (x := false) (Reads.look_none (fun _ => rfl) ?_) (.pure ⟨?_, hu⟩)
    · rintro _ ⟨⟩
      exact hpoint
    · rw [Option.map_some, ht]

end Expr

namespace Query

open Outline

/-! ### Select lists -/

theorem behindColumn_of_alias (newName : Option Alias) (bs : List Token) (hb : b ∈ listEnds) :
    ∃ c cs, aliasTokens newName ++ b :: bs = c :: cs ∧ BehindColumn c := by
  cases newName with
  | none => exact ⟨b, bs, rfl, .ends hb⟩
  | some a =>
    obtain ⟨name, _ | _⟩ := a
    · exact ⟨_, _, rfl, .name name⟩
    · exact ⟨_, _, rfl, .as⟩

/-- An alias is read with and without `AS`. -/
theorem reads_givenName? (newName : Option Alias) (has : ∀ b ∈ as.head?, b ∈ listEnds) :
    Reads givenName? ⟨aliasTokens newName ++ as, ns⟩ (· = newName.map (·.name)) ⟨as, ns⟩ := by
  cases newName with
  | none =>
    have hall : ∀ b ∈ listEnds, b.isKeyword .AS = false ∧
        (b.isIdentifier && b.keyword.isNone) = false := by
      decide +kernel
    refine (Reads.eatKeyword_none fun b hb => (hall b (has b hb)).1).seq ?_
    exact (Reads.accept_none (fun _ => rfl) fun b hb => (hall b (has b hb)).2).seq (.pure rfl)
  | some a =>
    obtain ⟨name, _ | _⟩ := a
    · have hname : ((ofName name).isIdentifier && (ofName name).keyword.isNone) = true := by
        rw [isIdentifier_ofName, keyword_ofName]
        rfl
      refine (Reads.eatKeyword_not isKeyword_ofName).seq
        ((Reads.accept (fun _ => rfl) hname).bind ?_)
      rintro _ ⟨t, rfl, ht⟩
      have hunquoted : t.unquoted = name :=
        (eq_of_atStart (fun _ => rfl) ht).trans unquoted_ofName
      exact .pure (congrArg some hunquoted)
    · refine (Reads.eatKeyword isKeyword_self).seq (Reads.name.bind fun t ht => .pure ?_)
      rw [ht]
      rfl

/-- A column is not taken for all columns of a table. -/
theorem startsAllColumnsOf_reference {ts : List Token} {table : Option String} {column : String}
    (hb : BehindColumn b)
    (hts : ts.map Token.atStart = referenceTokens table column ++ b :: bs) :
    startsAllColumnsOf ts = false := by
  cases table with
  | none =>
    obtain ⟨t, u, rest, rfl, -, hu, -⟩ := exists_two hts
    have hpoint : u.is "." = false :=
      (eq_of_atStart (f := (·.is ".")) (fun _ => rfl) hu).trans hb.facts.1
    cases rest with
    | nil => rfl
    | cons v rest => rw [startsAllColumnsOf, hpoint, Bool.and_false, Bool.false_and]
  | some table =>
    obtain ⟨t, u, rest, rfl, -, -, hrest⟩ := exists_two hts
    obtain ⟨v, rest, rfl, hv, -⟩ := List.map_eq_cons_iff.1 hrest
    have hstar : v.is "*" = false :=
      (eq_of_atStart (f := (·.is "*")) (fun _ => rfl) hv).trans (is_ofName (by decide))
    rw [startsAllColumnsOf, hstar, Bool.and_false]

/-- One item is read up to a comma or `FROM`. -/
theorem reads_selectItem (item : Item) (hb : b ∈ listEnds) :
    Reads (selectItem registry) ⟨item.tokens ++ b :: bs, ns⟩ item.Means ⟨b :: bs, ns⟩ := by
  have hstar (s : String) : (ofName s).is "*" = false := is_ofName (by decide)
  cases item with
  | allColumns => exact Reads.current.bind fun _ _ => (Reads.eat (by decide)).seq (.pure trivial)
  | allColumnsOf table =>
    refine Reads.current.bind fun _ _ => (Reads.eat_not (hstar table)).seq ?_
    refine .seq (x := true) (Reads.look fun ts hts => ?_) ?_
    · obtain ⟨t, u, rest, rfl, ht, hu, hrest⟩ := exists_two hts
      obtain ⟨v, rest, rfl, hv, -⟩ := List.map_eq_cons_iff.1 hrest
      rw [startsAllColumnsOf, eq_of_atStart (f := isIdentifier) (fun _ => rfl) ht,
        eq_of_atStart (f := (·.is ".")) (fun _ => rfl) hu,
        eq_of_atStart (f := (·.is "*")) (fun _ => rfl) hv, isIdentifier_ofName]
      decide
    · refine Reads.advance.bind fun t ht => Reads.advance.bind fun _ _ =>
        Reads.advance.bind fun _ _ => .pure ?_
      exact (eq_of_atStart (f := unquoted) (fun _ => rfl) ht).trans unquoted_ofName
  | column table c newName =>
    obtain ⟨d, ds, halias, hd⟩ := behindColumn_of_alias newName bs hb
    have htokens : (Item.column table c newName).tokens ++ b :: bs =
        referenceTokens table c ++ d :: ds := by
      rw [Item.tokens, List.append_assoc, halias]
    obtain ⟨first, rest, hfirst⟩ : ∃ first rest,
        referenceTokens table c ++ d :: ds = ofName first :: rest := by
      cases table with
      | none => exact ⟨_, _, rfl⟩
      | some table => exact ⟨_, _, rfl⟩
    have hnamed : Reads (namedColumn registry) ⟨ofName first :: rest, ns⟩
        (Item.column table c newName).Means ⟨b :: bs, ns⟩ := by
      refine Reads.current.bind fun _ _ => ?_
      rw [← hfirst]
      refine (Expr.reads_reference hd).bind ?_
      rintro _ ⟨r, rfl, htable, hcolumn⟩
      rw [← halias]
      refine (reads_givenName? newName ?_).seq (.pure ⟨htable, hcolumn, rfl⟩)
      rintro _ ⟨⟩
      exact hb
    rw [htokens, hfirst]
    refine Reads.current.bind fun _ _ => (Reads.eat_not (hstar first)).seq ?_
    refine .seq (x := false) (Reads.look fun ts hts => ?_) hnamed
    exact startsAllColumnsOf_reference hd (hts.trans hfirst.symm)

section Separated

variable {α β : Type} {item : Parser β} {f : α → List Token} {M : α → β → Prop} {l : List α}

/-- Behind an item there is a comma, or what follows the list. -/
theorem exists_end (f : α → List Token) (l : List α) (bs : List Token) (hb : b ∈ listEnds) :
    ∃ c cs, (l.map f).flatMap ([ofMark ','] ++ ·) ++ b :: bs = c :: cs ∧ c ∈ listEnds := by
  cases l with
  | nil => exact ⟨b, bs, rfl, hb⟩
  | cons a l => exact ⟨_, _, rfl, by simp [listEnds]⟩

/-- The items behind those that are read already. -/
theorem reads_moreItems (hb : b ∈ listEnds) (hcomma : b.is "," = false)
    (h : ∀ a ∈ l, ∀ c cs, c ∈ listEnds → Reads item ⟨f a ++ c :: cs, ns⟩ (M a) ⟨c :: cs, ns⟩)
    (done : List α) (items : List β) (hdone : List.Forall₂ M done items) :
    Reads (loop (fun items => do
        if ← eat "," then return some (items ++ [← item]) else return none) items)
      ⟨(l.map f).flatMap ([ofMark ','] ++ ·) ++ b :: bs, ns⟩ (List.Forall₂ M (done ++ l))
      ⟨b :: bs, ns⟩ := by
  induction l generalizing done items with
  | nil =>
    refine .loop_stop ((Reads.eat_not hcomma).seq (.pure rfl)) ?_
    rw [List.append_nil]
    exact hdone
  | cons a l ih =>
    obtain ⟨c, cs, hc, hends⟩ := exists_end f l bs hb
    have happend : done ++ a :: l = done ++ [a] ++ l := List.append_cons _ _ _
    rw [List.map_cons, List.flatMap_cons, List.append_assoc, List.append_assoc, hc, happend]
    refine .loop_next (P := fun items => List.Forall₂ M (done ++ [a]) items)
      ((Reads.eat (by decide)).seq ((h a List.mem_cons_self c cs hends).bind fun x hx =>
        .pure ⟨_, rfl, List.rel_append hdone (.cons hx .nil)⟩)) ?_ fun items hitems => ?_
    · simp only [List.length_append, List.length_cons, List.length_nil]
      omega
    · rw [← hc]
      exact ih (fun a' ha' => h a' (List.mem_cons_of_mem _ ha')) (done ++ [a]) items hitems

/-- Items are read from a list with commas between them, where each of them is read up to what
follows it. -/
theorem reads_separated (hne : l ≠ []) (hb : b ∈ listEnds) (hcomma : b.is "," = false)
    (h : ∀ a ∈ l, ∀ c cs, c ∈ listEnds → Reads item ⟨f a ++ c :: cs, ns⟩ (M a) ⟨c :: cs, ns⟩) :
    Reads (separated item) ⟨[ofMark ','].intercalate (l.map f) ++ b :: bs, ns⟩ (List.Forall₂ M l)
      ⟨b :: bs, ns⟩ := by
  obtain ⟨a, l, rfl⟩ := List.exists_cons_of_ne_nil hne
  obtain ⟨c, cs, hc, hends⟩ := exists_end f l bs hb
  rw [List.map_cons, intercalate_cons, List.append_assoc, hc]
  refine (h a List.mem_cons_self c cs hends).bind fun x hx => ?_
  rw [← hc]
  exact reads_moreItems hb hcomma (fun a' ha' => h a' (List.mem_cons_of_mem _ ha')) [a] [x]
    (.cons hx .nil)

end Separated

/-! ### `FROM` lists -/

/-- An entry ends at a comma or with the query. -/
def EntryEnds (as : List Token) : Prop := ∀ b ∈ as.head?, b = ofMark ','

theorem EntryEnds.isKeyword (has : EntryEnds as) (k : Keyword) :
    ∀ b ∈ as.head?, b.isKeyword k = false :=
  fun b hb => has b hb ▸ isKeyword_ofMark (by decide)

theorem entryEnds_moreEntries (entries : List Entry) :
    EntryEnds ((entries.map Entry.tokens).flatMap ([ofMark ','] ++ ·)) := by
  cases entries with
  | nil => exact fun _ hb => by cases hb
  | cons entry entries =>
    rintro _ ⟨⟩
    rfl

theorem reads_refuseSubquery (s : String) :
    Reads refuseSubquery ⟨ofName s :: as, ns⟩ (fun _ => True) ⟨ofName s :: as, ns⟩ := by
  refine Reads.current.bind fun t ht => ?_
  have hparen : t.is "(" = false :=
    (eq_of_atStart (f := (·.is "(")) (fun _ => rfl) ht).trans (is_ofName (by decide))
  rw [if_neg (by rw [hparen]; decide)]
  exact .pure trivial

/-- The name of a table is not taken for that of a schema. -/
theorem reads_knownTable {entry : Entry} {source : Source} (hfinds : entry.Finds registry source)
    (has : EntryEnds as) :
    Reads (knownTable registry) ⟨entry.tokens ++ as, ns⟩
      (fun x => x.1.unquoted = entry.table ∧ x.2 = source.table)
      ⟨aliasTokens entry.newName ++ as, ns⟩ := by
  refine Reads.name.bind fun t ht => ?_
  refine .seq (x := false) (Reads.look_none (fun _ => rfl) ?_) ?_
  · cases entry.newName with
    | none => exact fun b hb => has b hb ▸ by decide
    | some a =>
      obtain ⟨name, _ | _⟩ := a
      · rintro _ ⟨⟩
        exact is_ofName (by decide)
      · rintro _ ⟨⟩
        exact is_ofKeyword rfl
  · rw [ht, hfinds.table]
    exact .pure ⟨ht, rfl⟩

theorem reads_indexHint (has : EntryEnds as) :
    Reads indexHint ⟨as, ns⟩ (fun _ => True) ⟨as, ns⟩ := by
  refine (Reads.eatKeyword_none (has.isKeyword .INDEXED)).seq ?_
  refine .seq (x := false) (Reads.look fun ts hts => ?_) (.pure trivial)
  cases ts with
  | nil => rfl
  | cons t ts =>
    have hahead : (t :: ts).map Token.atStart = as := hts
    have hnot : t.isKeyword .NOT = false := has.isKeyword .NOT t.atStart (by rw [← hahead]; rfl)
    rw [List.getElem?_cons_zero, Option.any_some, hnot, Bool.false_and]

theorem reads_refuseJoin (has : EntryEnds as) :
    Reads refuseJoin ⟨as, ns⟩ (fun _ => True) ⟨as, ns⟩ := by
  cases as with
  | nil =>
    refine .seq (x := none) (Reads.look fun ts hts => ?_) (.pure trivial)
    rw [List.map_eq_nil_iff.1 hts]
    rfl
  | cons b bs =>
    refine Reads.peek.bind ?_
    rintro _ ⟨t, rfl, ht⟩
    have hkeywords : ∀ k ∈ joinKeywords, ¬ t.isKeyword k = true := by
      intro k _ hk
      have hsame := eq_of_atStart (f := (·.isKeyword k)) (fun _ => rfl) ht
      cases hk.symm.trans (hsame.trans (has.isKeyword k b rfl))
    dsimp only
    rw [if_neg (by simpa using hkeywords)]
    exact .pure trivial

/-- One more entry is read up to a comma or the end of the query. Its name is new. -/
theorem reads_extendFrom {entry : Entry} {source : Source} {sources : List Source}
    (hfinds : entry.Finds registry source)
    (hfresh : ∀ s ∈ sources, sameName s.name source.name = false) (has : EntryEnds as) :
    Reads (extendFrom registry sources) ⟨entry.tokens ++ as, ns⟩ (· = sources ++ [source])
      ⟨as, ns⟩ := by
  refine (reads_refuseSubquery entry.table).bind fun _ _ => (reads_knownTable hfinds has).bind ?_
  rintro ⟨name, table⟩ ⟨hname, rfl⟩
  refine (reads_givenName? entry.newName fun b hb => by simp [has b hb, listEnds]).seq ?_
  have hgiven : (entry.newName.map (·.name)).getD name.unquoted = source.name := by
    rw [hname, hfinds.name, Entry.given]
  dsimp only
  rw [hgiven, if_neg]
  · exact (reads_indexHint has).bind fun _ _ => (reads_refuseJoin has).bind fun _ _ => .pure rfl
  · simpa using hfresh

/-- The entries behind the first one. -/
theorem reads_moreEntries {entries : List Entry} {sources : List Source}
    (hfound : List.Forall₂ (Entry.Finds registry) entries sources) (done : List Source)
    (hdistinct : (done ++ sources).Pairwise fun s s' => sameName s.name s'.name = false) :
    Reads (loop (fun sources => do
        if ← eat "," then return some (← extendFrom registry sources) else return none) done)
      ⟨(entries.map Entry.tokens).flatMap ([ofMark ','] ++ ·), ns⟩ (· = done ++ sources)
      ⟨[], ns⟩ := by
  induction hfound generalizing done with
  | nil =>
    refine .loop_stop ((Reads.eat_none fun _ hb => by cases hb).seq (.pure rfl)) ?_
    rw [List.append_nil]
  | @cons entry source entries sources hfinds hfound ih =>
    have hfresh : ∀ s ∈ done, sameName s.name source.name = false := fun s hs =>
      (List.pairwise_append.1 hdistinct).2.2 s hs source List.mem_cons_self
    rw [List.map_cons, List.flatMap_cons, List.append_assoc]
    refine .loop_next (P := (· = done ++ [source]))
      ((Reads.eat (by decide)).seq
        ((reads_extendFrom hfinds hfresh (entryEnds_moreEntries entries)).seq
          (.pure ⟨_, rfl, rfl⟩))) ?_ ?_
    · simp only [List.length_append, List.length_cons, List.length_nil]
      omega
    · rintro _ rfl
      have happend : done ++ source :: sources = done ++ [source] ++ sources :=
        List.append_cons _ _ _
      rw [happend] at hdistinct ⊢
      exact ih (done ++ [source]) hdistinct

theorem reads_fromClause {entries : List Entry} {sources : List Source} (hne : entries ≠ [])
    (hfound : List.Forall₂ (Entry.Finds registry) entries sources)
    (hdistinct : sources.Pairwise fun s s' => sameName s.name s'.name = false) :
    Reads (fromClause registry)
      ⟨ofKeyword .FROM :: [ofMark ','].intercalate (entries.map Entry.tokens), ns⟩ (· = sources)
      ⟨[], ns⟩ := by
  cases hfound with
  | nil => exact absurd rfl hne
  | @cons entry source entries sources hfinds hfound =>
    rw [List.map_cons, intercalate_cons]
    exact (Reads.eatKeyword isKeyword_self).seq
      ((reads_extendFrom hfinds (by simp) (entryEnds_moreEntries entries)).seq
        (reads_moreEntries hfound [source] hdistinct))

/-! ### Resolution -/

variable {sources : List Source}

/-- Only the name of a qualifier matters where it is known. -/
theorem entry_congr {t t' : Token} {found : Nat × Source} (ht : t.unquoted = t'.unquoted)
    (h : entry sources t = .ok found) : entry sources t' = .ok found := by
  unfold entry at h ⊢
  rw [← ht]
  split at h
  · exact h
  · cases h

theorem resolveColumn_congr {t t' : Option Token} {c c' : Token}
    {found : (Nat × Source) × Column} (ht : t.map Token.unquoted = t'.map Token.unquoted)
    (hc : c.unquoted = c'.unquoted) (h : resolveColumn sources t c = .ok found) :
    resolveColumn sources t' c' = .ok found := by
  unfold resolveColumn at h ⊢
  rw [← hc]
  cases t with
  | none =>
    obtain rfl : t' = none := Option.map_eq_none_iff.1 ht.symm
    dsimp only at h ⊢
    split at h
    · cases h
    · exact h
    · cases h
  | some t =>
    obtain ⟨t', rfl, ht'⟩ := Option.map_eq_some_iff.1 ht.symm
    dsimp only at h ⊢
    cases hentry : entry sources t with
    | error e =>
      rw [hentry] at h
      cases h
    | ok x =>
      rw [hentry] at h
      rw [entry_congr ht'.symm hentry]
      dsimp only at h ⊢
      split at h
      · exact h
      · cases h

/-- Entries of a select list that mean the same have the same columns. -/
theorem resolve_of_means {item : Item} {x y : SelectItem} {ps : List Projected}
    (hx : item.Means x) (hy : item.Means y) (h : resolve sources x = .ok ps) :
    resolve sources y = .ok ps := by
  cases item with
  | allColumns =>
    cases x with
    | allColumns =>
      cases y with
      | allColumns => exact h
      | _ => cases hy
    | _ => cases hx
  | allColumnsOf table =>
    cases x with
    | allColumnsOf t =>
      cases y with
      | allColumnsOf t' =>
        obtain ⟨i, s, hfound, hps⟩ := resolve_allColumnsOf_eq_ok.1 h
        exact resolve_allColumnsOf_eq_ok.2 ⟨i, s, entry_congr (hx.trans hy.symm) hfound, hps⟩
      | _ => cases hy
    | _ => cases hx
  | column table name newName =>
    cases x with
    | column t c n =>
      cases y with
      | column t' c' n' =>
        obtain ⟨ht, hc, rfl⟩ := hx
        obtain ⟨ht', hc', rfl⟩ := hy
        obtain ⟨i, s, d, hfound, hps⟩ := resolve_column_eq_ok.1 h
        exact resolve_column_eq_ok.2
          ⟨i, s, d, resolveColumn_congr (ht.trans ht'.symm) (hc.trans hc'.symm) hfound, hps⟩
      | _ => cases hy
    | _ => cases hx

theorem means_selected (item : Item) : item.Means item.selected := by
  cases item with
  | allColumns => trivial
  | allColumnsOf table => exact unquoted_ofName
  | column table c newName =>
    refine ⟨?_, unquoted_ofName, rfl⟩
    cases table with
    | none => rfl
    | some table => rw [Option.map_some, Option.map_some, unquoted_ofName]

theorem exists_resolveAll {items : List Item} {xs : List SelectItem}
    (hmeans : List.Forall₂ Item.Means items xs)
    (h : ∀ item ∈ items, ∃ ps, resolve sources item.selected = .ok ps) :
    ∃ ps, resolveAll sources xs = .ok ps := by
  induction hmeans with
  | nil => exact ⟨[], rfl⟩
  | @cons item x items xs hitem hmeans ih =>
    obtain ⟨ps, hps⟩ := h item List.mem_cons_self
    obtain ⟨qs, hqs⟩ := ih fun i hi => h i (List.mem_cons_of_mem _ hi)
    exact ⟨ps ++ qs, resolveAll_cons_eq_ok.2
      ⟨ps, qs, resolve_of_means (means_selected item) hitem hps, hqs, rfl⟩⟩

/-! ### Queries -/

theorem reads_openSelect :
    Reads openSelect ⟨ofKeyword .SELECT :: as, ns⟩ (fun _ => True) ⟨as, ns⟩ := by
  refine Reads.current.bind fun t ht => ?_
  have hselect : t.isKeyword .SELECT = true :=
    (eq_of_atStart (f := (·.isKeyword .SELECT)) (fun _ => rfl) ht).trans isKeyword_self
  rw [if_pos hselect]
  exact Reads.advance.bind fun _ _ => .pure trivial

theorem reads_distinctness (distinct : Bool) (has : ∀ k, ∀ b ∈ as.head?, b.isKeyword k = false) :
    Reads distinctness ⟨(if distinct then [ofKeyword .DISTINCT] else []) ++ as, ns⟩ (· = distinct)
      ⟨as, ns⟩ := by
  cases distinct with
  | true => exact (Reads.eatKeyword isKeyword_self).seq (.pure rfl)
  | false =>
    exact (Reads.eatKeyword_none (has .DISTINCT)).seq
      ((Reads.eatKeyword_none (has .ALL)).seq (.pure rfl))

theorem isKeyword_head_items {items : List Item} (hne : items ≠ []) (k : Keyword) :
    ∀ b ∈ ([ofMark ','].intercalate (items.map Item.tokens) ++ as).head?,
      b.isKeyword k = false := by
  have hstar : ∀ k ∈ Keyword.all, ofStar.isKeyword k = false := by decide +kernel
  obtain ⟨item, items, rfl⟩ := List.exists_cons_of_ne_nil hne
  rw [List.map_cons, intercalate_cons]
  rcases item with _ | table | ⟨_ | table, c, newName⟩
  · rintro _ ⟨⟩
    exact hstar k (Keyword.mem_all k)
  all_goals
    rintro _ ⟨⟩
    exact isKeyword_ofName

theorem pairwise_of_found {entries : List Entry}
    (hfound : List.Forall₂ (Entry.Finds registry) entries sources)
    (hdistinct : entries.Pairwise fun e e' => sameName e.given e'.given = false) :
    sources.Pairwise fun s s' => sameName s.name s'.name = false := by
  have hnames : sources.map (·.name) = entries.map (·.given) := by
    induction hfound with
    | nil => rfl
    | cons hfinds _ ih => rw [List.map_cons, List.map_cons, hfinds.name, ih hdistinct.of_cons]
  have hgiven : (entries.map (·.given)).Pairwise fun a b => sameName a b = false :=
    List.pairwise_map.2 hdistinct
  rw [← hnames] at hgiven
  exact List.pairwise_map.1 hgiven

/-- A printed query is read. -/
theorem reads_select {o : Outline} (h : o.Fits registry sources) :
    Reads (select registry) ⟨o.tokens, ns⟩
      (fun q => q.distinct = o.distinct ∧ q.sources = sources ∧
        List.Forall₂ Item.Means o.items q.items) ⟨[], ns⟩ := by
  have htokens : o.tokens = ofKeyword .SELECT ::
      ((if o.distinct then [ofKeyword .DISTINCT] else []) ++
        ([ofMark ','].intercalate (o.items.map Item.tokens) ++
          ofKeyword .FROM :: [ofMark ','].intercalate (o.entries.map Entry.tokens))) := by
    simp [Outline.tokens]
  rw [htokens]
  refine reads_openSelect.bind fun _ _ =>
    (reads_distinctness o.distinct (isKeyword_head_items h.items_ne_nil)).seq ?_
  refine (reads_separated h.items_ne_nil (by simp [listEnds]) (is_ofKeyword rfl)
    fun item _ _ _ hc => reads_selectItem item hc).bind fun items hitems => ?_
  refine (reads_fromClause h.entries_ne_nil h.found
    (pairwise_of_found h.found h.distinct)).seq ?_
  -- Nothing is left for the other clauses.
  have hend (k : Keyword) : Reads (eatKeyword k) ⟨[], ns⟩ (· = false) ⟨[], ns⟩ :=
    .eatKeyword_none fun _ hb => by cases hb
  have hwhere (context : Context) : Reads (whereClause context) ⟨[], ns⟩ (fun _ => True)
      ⟨[], ns⟩ :=
    (hend .WHERE).seq (.pure trivial)
  have horder (context : Context) : Reads (orderClause context) ⟨[], ns⟩ (fun _ => True)
      ⟨[], ns⟩ :=
    (hend .ORDER).seq (.pure trivial)
  have hlimit (context : Context) : Reads (limitClause context) ⟨[], ns⟩ (fun _ => True)
      ⟨[], ns⟩ :=
    (hend .LIMIT).seq (.pure trivial)
  have hfinish : Reads finish ⟨[], ns⟩ (fun _ => True) ⟨[], ns⟩ := by
    refine (Reads.eat_none fun _ hb => by cases hb).seq ?_
    refine .seq (x := none) (Reads.look fun ts hts => ?_) (.pure trivial)
    rw [List.map_eq_nil_iff.1 hts]
    rfl
  have hparameters : Reads boundParameters ⟨[], ns⟩ (fun _ => True) ⟨[], ns⟩ :=
    fun s hs => ⟨s.parameters, s, rfl, trivial, List.suffix_refl _, hs⟩
  obtain ⟨ps, hps⟩ := exists_resolveAll hitems h.resolved
  refine (hwhere _).bind fun _ _ => (horder _).bind fun _ _ => (hlimit _).bind fun _ _ =>
    hfinish.bind fun _ _ => hparameters.bind fun parameters _ => ?_
  have hprocess : process { distinct := o.distinct, sources, items, parameters } =
      .ok { distinct := o.distinct, sources, items, parameters,
            projection := some (Projected.distinct ps) } := by
    rw [process, hps]
    rfl
  refine (Reads.ofExcept hprocess).imp ?_
  rintro _ rfl
  exact ⟨rfl, rfl, hitems⟩

/-- A printed query is read back. -/
theorem ofText_outline {o : Outline} (hprintable : o.Printable) (h : o.Fits registry sources) :
    ∃ q, ofText registry o.print = .ok (q, []) ∧ q.distinct = o.distinct ∧ q.sources = sources ∧
      List.Forall₂ Item.Means o.items q.items ∧ q.parameters = {} := by
  have hspells : Spells o.print.toList o.tokens := by
    rw [Outline.print, String.toList_ofList]
    exact spells_text hprintable
  obtain ⟨ts, hts, hstart⟩ := hspells.tokenize
  have hstate : view { rest := ts } = ⟨o.tokens, []⟩ := by
    rw [view, hstart]
    rfl
  obtain ⟨q, t, hselect, ⟨hdistinct, hsources, hitems⟩, -, hview⟩ := reads_select h _ hstate
  have hwarnings : t.warnings = [] := List.map_eq_nil_iff.1 (congrArg View.notes hview)
  have hplain : ∀ t ∈ ts, t.isParameter = false := fun t ht =>
    hspells.plain t.atStart (hstart ▸ List.mem_map_of_mem ht)
  refine ⟨q, ?_, hdistinct, hsources, hitems, ?_⟩
  · rw [ofText, hts]
    dsimp only
    rw [Parser.run, hselect]
    dsimp only
    rw [hwarnings]
  · rw [(select_eq_ok hselect).2]
    exact (points_select registry).parameters_eq (List.Subset.refl _) hplain hselect

/-- Names that need their brackets, a table under two names, and aliases with and without `AS`. -/
theorem ofText_outline_selfJoin :
    ∃ (registry : Registry) (sources : List Source) (o : Outline),
      (o.Printable ∧ o.Fits registry sources) ∧
      o.print = "SELECT DISTINCT [from].*, *, [t].[a, b] AS [*], [from].[] [select] " ++
        "FROM [t], [t] AS [from]" ∧
      ∃ q, ofText registry o.print = .ok (q, []) ∧ q.distinct = o.distinct ∧
        q.sources = sources ∧ List.Forall₂ Item.Means o.items q.items ∧ q.parameters = {} := by
  let t : Table := { Table.named 0 "t" with columns := [.declare 0 "a, b" "", .declare 0 "" ""] }
  let sources : List Source := [⟨"t", t⟩, ⟨"from", t⟩]
  let o : Outline := {
    distinct := true
    items := [.allColumnsOf "from", .allColumns, .column (some "t") "a, b" (some ⟨"*", true⟩),
      .column (some "from") "" (some ⟨"select", false⟩)]
    entries := [⟨"t", none⟩, ⟨"t", some ⟨"from", true⟩⟩] }
  have hprintable : o.Printable := ⟨by decide +kernel, by decide +kernel⟩
  have hresolved : ∀ item ∈ o.items, (resolve sources item.selected).toBool = true := by
    decide +kernel
  have hfits : o.Fits ⟨[t]⟩ sources := by
    refine ⟨List.cons_ne_nil _ _, List.cons_ne_nil _ _, ?_, by decide +kernel, fun item hi => ?_⟩
    · have hnamed : t.isNamed "t" = true := beq_self_eq_true _
      exact .cons ⟨List.find?_cons_of_pos hnamed, rfl⟩
        (.cons ⟨List.find?_cons_of_pos hnamed, rfl⟩ .nil)
    · cases hr : resolve sources item.selected with
      | ok ps => exact ⟨ps, rfl⟩
      | error e =>
        have hok := hresolved item hi
        rw [hr] at hok
        cases hok
  exact ⟨⟨[t]⟩, sources, o, ⟨hprintable, hfits⟩, by decide +kernel, ofText_outline hprintable hfits⟩

end Query

end SqliteSchema
