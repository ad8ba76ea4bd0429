import SqliteSchema.Proofs.Lexeme.Spaced
import SqliteSchema.Proofs.Query.Mirror
import SqliteSchema.Proofs.Schema.Continued

/-!
The layout of a text. Comments, line breaks and the amount of white space make no difference: a
text means what its tokens with single spaces between them mean.
-/
namespace SqliteSchema

/-- The item, its tokens moved to the start. -/
def SelectItem.atStart : SelectItem → SelectItem
  | allColumns => allColumns
  | allColumnsOf table => allColumnsOf table.atStart
  | column table name newName => column (table.map Token.atStart) name.atStart newName

/-- The query without the places of its tokens. -/
def Query.atStart (q : Query) : Query := { q with items := q.items.map SelectItem.atStart }

/-- What two texts come to that differ in their layout at most: results that correspond, with the
same warnings, or errors that say the same. -/
inductive SameOutcome {α : Type} (V : α → α → Prop) :
    Except Failure (α × List Warning) → Except Failure (α × List Warning) → Prop
  | ok {a a' : α} {ws ws' : List Warning} (hV : V a a')
    (h : ws.map (fun w => (w.code, w.message)) = ws'.map fun w => (w.code, w.message)) :
    SameOutcome V (.ok (a, ws)) (.ok (a', ws'))
  | error {f f' : Failure} (h : f.error.Same f'.error) : SameOutcome V (.error f) (.error f')

namespace Query

variable {q q' : Query}

theorem SameItem.atStart {item item' : SelectItem} (h : SameItem .text item item') :
    item.atStart = item'.atStart := by
  have htoken {t t' : Token} (ht : Comparison.text.Like t t') : t.atStart = t'.atStart :=
    Token.same_iff.1 (Comparison.like_text_iff.1 ht)
  cases h with
  | allColumns => rfl
  | allColumnsOf ht => exact congrArg SelectItem.allColumnsOf (htoken ht)
  | @column qualifier qualifier' t t' newName newName' hqualifier ht hname =>
    have hq : qualifier.map Token.atStart = qualifier'.map Token.atStart := by
      cases hqualifier with
      | none => rfl
      | some hq => exact congrArg some (htoken hq)
    have hn : newName = newName' := by
      cases hname with
      | none => rfl
      | some hn => exact congrArg some (hn.eq trivial)
    rw [SelectItem.atStart, SelectItem.atStart, hq, htoken ht, hn]

/-- Up to places only the tokens of the select list can differ. -/
theorem Alike.atStart (h : q.Alike .text q') : q.atStart = q'.atStart := by
  obtain ⟨hdistinct, hsources, hitems, hparameters, hprojection⟩ := h
  have hs : q.sources = q'.sources := by
    rw [← List.forall₂_eq_eq_eq]
    apply hsources.imp
    intro s s' hs
    cases s
    cases s'
    cases hs.name.eq trivial
    cases hs.table
    rfl
  have hi : q.items.map SelectItem.atStart = q'.items.map SelectItem.atStart := by
    rw [← List.forall₂_eq_eq_eq, List.forall₂_map_left_iff, List.forall₂_map_right_iff]
    exact hitems.imp fun _ _ hitem => hitem.atStart
  have hp : q.projection = q'.projection := by
    generalize q.projection = columns, q'.projection = columns' at hprojection
    cases hprojection with
    | none => rfl
    | some hcolumns =>
      apply congrArg some
      rw [← List.forall₂_eq_eq_eq]
      exact hcolumns.imp fun _ _ ha => ha.eq trivial
  rw [Query.atStart, Query.atStart, hdistinct, hs, hi, hparameters, hp]

end Query

theorem sameOutcome_of_sameRun {α : Type} {V U : α → α → Prop} (hU : ∀ a a', V a a' → U a a')
    {r r' : Except Failure (α × List Warning)} (h : Parser.Mirrors.SameRun .text V r r') :
    SameOutcome U r r' := by
  cases h with
  | ok hV hws => exact .ok (hU _ _ hV) (Comparison.sameWarnings_text_iff.1 hws)
  | error he => exact .error (Comparison.sameError_text_iff.1 he)

/-- A text means the same without its layout. Its tokens with single spaces between them are read
as the same schema and, by every registry, as the same query, if every word operator in the text is
an operator and none is its last token. -/
theorem ofText_respaced {text : String} {ts : List Token} (h : Token.tokenize text = .ok ts)
    (hoperator : ∀ t ∈ ts, t.value.toLower ∈ Lexeme.Operator.words →
      ∃ binary unary, t.kind = .operator binary unary)
    (hlast : ∀ t ∈ ts.getLast?, t.value.toLower ∉ Lexeme.Operator.words) :
    let text' := " ".intercalate (ts.map (·.value))
    SameOutcome Registry.SameTables (Registry.ofText text) (Registry.ofText text') ∧
    ∀ registry, SameOutcome (fun q q' => q.atStart = q'.atStart) (Query.ofText registry text)
      (Query.ofText registry text') := by
  intro text'
  obtain ⟨ts', htokens, hrespaced⟩ := Token.stream_intercalate (Token.lexed_of_stream h) .start
  have h' : Token.tokenize text' = .ok ts' := htokens
  have hsame : List.Forall₂ Comparison.text.Like ts ts' := by
    rw [Token.respace_eq (Token.lexed_of_stream h) hoperator hlast] at hrespaced
    have hplaces := hrespaced.symm
    rw [← List.forall₂_eq_eq_eq, List.forall₂_map_left_iff, List.forall₂_map_right_iff] at hplaces
    exact hplaces.imp fun _ _ ht => Comparison.like_text_iff.2 (Token.same_iff.2 ht)
  constructor
  · have hrun := (Definition.mirrors_schema text.toList text'.toList (.refl {})).run
      (fun _ hexcused => hexcused) hsame
    rw [Registry.ofText, Registry.ofText, Registry.extend_of_tokenize h,
      Registry.extend_of_tokenize h']
    exact sameOutcome_of_sameRun (fun _ _ hV => hV) hrun
  · intro registry
    have hrun := (Query.mirrors_select registry).run (fun _ hexcused => hexcused) hsame
    rw [Query.ofText, Query.ofText, h, h']
    exact sameOutcome_of_sameRun (fun _ _ hq => hq.atStart) hrun

/-- Comments without space around them, and operators side by side. -/
theorem ofText_respaced_comments :
    let text := "SELECT x/**/FROM a--it's\nWHERE x<-1 OR\t1"
    let text' := "SELECT x FROM a WHERE x < - 1 OR 1"
    let registry : Registry := ⟨[{ Table.named 0 "a" with columns := [.declare 0 "x" "TEXT"] }]⟩
    ∃ ts, Token.tokenize text = .ok ts ∧
      (∀ t ∈ ts, t.value.toLower ∈ Lexeme.Operator.words →
        ∃ binary unary, t.kind = .operator binary unary) ∧
      (∀ t ∈ ts.getLast?, t.value.toLower ∉ Lexeme.Operator.words) ∧
      " ".intercalate (ts.map (·.value)) = text' ∧
      SameOutcome Registry.SameTables (Registry.ofText text) (Registry.ofText text') ∧
      SameOutcome (fun q q' => q.atStart = q'.atStart) (Query.ofText registry text)
        (Query.ofText registry text') ∧
      ∃ q ws, Query.ofText registry text = .ok (q, ws) := by
  intro text text' registry
  let ts : List Token := [⟨"SELECT", .other, ⟨0, 0, 0⟩⟩, ⟨"x", .other, ⟨7, 0, 7⟩⟩,
    ⟨"FROM", .other, ⟨12, 0, 12⟩⟩, ⟨"a", .other, ⟨17, 0, 17⟩⟩, ⟨"WHERE", .other, ⟨25, 1, 0⟩⟩,
    ⟨"x", .other, ⟨31, 1, 6⟩⟩, ⟨"<", .operator true false, ⟨32, 1, 7⟩⟩,
    ⟨"-", .operator true true, ⟨33, 1, 8⟩⟩, ⟨"1", .number, ⟨34, 1, 9⟩⟩,
    ⟨"OR", .operator true false, ⟨36, 1, 11⟩⟩, ⟨"1", .number, ⟨39, 1, 14⟩⟩]
  have htokens : Token.tokenize text = .ok ts := by decide +kernel
  have hoperator : ∀ t ∈ ts, t.value.toLower ∈ Lexeme.Operator.words →
      ∃ binary unary, t.kind = .operator binary unary := by
    have hall : ∀ t ∈ ts, Lexeme.SpellsOperator t.value.toList →
        t.kind = .operator true false := by
      decide +kernel
    intro t ht hw
    exact ⟨true, false, hall t ht (Lexeme.spellsOperator_toList.2 hw)⟩
  have hlast : ∀ t ∈ ts.getLast?, t.value.toLower ∉ Lexeme.Operator.words := by
    rintro t ⟨⟩ hw
    exact absurd (Lexeme.spellsOperator_toList.2 hw) (by decide +kernel)
  have htext : " ".intercalate (ts.map (·.value)) = text' := by decide +kernel
  obtain ⟨hschema, hquery⟩ := ofText_respaced htokens hoperator hlast
  rw [htext] at hschema hquery
  refine ⟨ts, htokens, hoperator, hlast, htext, hschema, hquery registry, ?_⟩
  have hok : (Query.ofText registry text).isOk = true := by decide +kernel
  cases h : Query.ofText registry text with
  | error f =>
    rw [h] at hok
    cases hok
  | ok r => exact ⟨r.1, r.2, rfl⟩

end SqliteSchema
