import SqliteSchema.Proofs.Lexeme.Spelling
import SqliteSchema.Proofs.Schema.WellFormed

/-!
Schemas as texts. Every table is printed as a `CREATE TABLE` statement in which all names stand in
brackets: its columns, then its unique constraints, its primary key and its foreign keys, and its
options at the end.
-/
namespace SqliteSchema

namespace Piece

def keyword (k : Keyword) : Piece := .word k.display

/-- Keywords with a space in front of each. -/
def keywords (ks : List Keyword) : List Piece := ks.flatMap fun k => [.gap ' ', .keyword k]

@[simp] theorem tokens_keyword (k : Keyword) (xs : List Piece) :
    tokens (keyword k :: xs) = Token.ofKeyword k :: tokens xs :=
  tokens_word k.display xs

@[simp] theorem tokens_keywords (ks : List Keyword) :
    tokens (keywords ks) = ks.map Token.ofKeyword := by
  induction ks with
  | nil => rfl
  | cons k ks ih =>
    rw [keywords, List.flatMap_cons, tokens_append, ← keywords, ih]
    simp

def comma : List Piece := [.mark ',', .gap ' ']

/-- Items with commas between them. -/
def commas : List (List Piece) → List Piece
  | [] => []
  | first :: rest => first ++ rest.flatMap (comma ++ ·)

/-- The pieces of a declared type: words, numbers, spaces and marks. -/
def split (cs : List Char) : List Piece :=
  match cs with
  | [] => []
  | c :: rest =>
    if c.isAlpha then
      .word (String.ofList (c :: rest.takeWhile Char.isAlpha)) ::
        split (rest.dropWhile Char.isAlpha)
    else if c.isDigit then
      .number (String.ofList (c :: rest.takeWhile Char.isDigit)) ::
        split (rest.dropWhile Char.isDigit)
    else if c = ' ' then .gap c :: split rest
    else .mark c :: split rest
termination_by cs.length
decreasing_by
  · have h := (List.dropWhile_suffix Char.isAlpha (l := rest)).length_le
    simp only [List.length_cons]
    omega
  · have h := (List.dropWhile_suffix Char.isDigit (l := rest)).length_le
    simp only [List.length_cons]
    omega
  · simp
  · simp

/-- A declared type as it is, with a space in front of it. -/
def declaredType (type : String) : List Piece :=
  if type = "" then [] else .gap ' ' :: split type.toList

end Piece

open Piece

namespace Column

def notNullPieces (c : Column) : List Piece := if c.notNull then keywords [.NOT, .NULL] else []

def collationPieces (c : Column) : List Piece :=
  c.collation.elim [] fun name => keywords [.COLLATE] ++ [.gap ' ', .name name]

/-- Only a column that counts by itself has its key in its definition. -/
def keyPieces (c : Column) : List Piece :=
  if c.autoIncrement then keywords [.PRIMARY, .KEY, .AUTOINCREMENT] else []

def pieces (c : Column) : List Piece :=
  [.name c.sqlName] ++ (declaredType c.sqlType ++
    (c.notNullPieces ++ (c.collationPieces ++ c.keyPieces)))

end Column

def ReferentialAction.keywords : ReferentialAction → List Keyword
  | noAction => [.NO, .ACTION]
  | restrict => [.RESTRICT]
  | setNull => [.SET, .NULL]
  | setDefault => [.SET, .DEFAULT]
  | cascade => [.CASCADE]

namespace Table

/-- The names of columns in parentheses. -/
def columnGroup (t : Table) (indices : List Nat) : List Piece :=
  [.mark '('] ++ commas (indices.map fun i => [.name (Definition.columnName t i)]) ++ [.mark ')']

/-- The columns with a unique constraint of their own. -/
def uniqueColumns (t : Table) : List Nat :=
  (List.range t.columns.length).filter fun i => (t.columns[i]?).any (·.unique)

def uniquePieces (t : Table) (indices : List Nat) : List Piece :=
  [.keyword .UNIQUE, .gap ' '] ++ t.columnGroup indices

/-- The primary key, unless a column definition has it. -/
def primaryKeyPieces (t : Table) : List (List Piece) :=
  if t.primaryKey = [] ∨ t.columns.any (·.autoIncrement) then []
  else [[.keyword .PRIMARY] ++ keywords [.KEY] ++ [.gap ' '] ++ t.columnGroup t.primaryKey]

def foreignKeyPieces (t : Table) (r : Registry) (k : ForeignKey) : List Piece :=
  [.keyword .FOREIGN] ++ keywords [.KEY] ++ [.gap ' '] ++ t.columnGroup k.columns ++
    keywords [.REFERENCES] ++
    ((r.table? k.foreignTable).elim [] fun foreign =>
      [.gap ' ', .name foreign.sqlName, .gap ' '] ++ foreign.columnGroup k.foreignColumns) ++
    keywords (.ON :: .DELETE :: k.onDelete.keywords) ++
    keywords (.ON :: .UPDATE :: k.onUpdate.keywords)

/-- What stands between the parentheses of a statement. -/
def items (t : Table) (r : Registry) : List (List Piece) :=
  t.columns.map (·.pieces) ++ t.uniqueColumns.map (fun i => t.uniquePieces [i]) ++
    t.uniqueSets.map t.uniquePieces ++ t.primaryKeyPieces ++
    t.foreignKeys.map (t.foreignKeyPieces r)

def optionPieces (t : Table) : List Piece :=
  (if t.withoutRowid then keywords [.WITHOUT, .ROWID] else []) ++
    (if t.withoutRowid ∧ t.strict then [.mark ','] else []) ++
    (if t.strict then keywords [.STRICT] else [])

/-- What stands between the first word of a statement and its semicolon. -/
def definition (t : Table) (r : Registry) : List Piece :=
  keywords (if t.isTemporary then [.TEMP, .TABLE] else [.TABLE]) ++
    ([.gap ' ', .name t.sqlName, .gap ' ', .mark '('] ++ commas (t.items r)) ++ [.mark ')'] ++
    t.optionPieces

def statement (t : Table) (r : Registry) : List Piece :=
  .keyword .CREATE :: (t.definition r ++ [.mark ';'])

/-- The table with its statement as its text. -/
def retold (t : Table) (r : Registry) : Table :=
  { t with createTableText := String.ofList (chars (t.statement r)) }

end Table

namespace Registry

/-- The statements of some tables, a line for each. -/
def lines (r : Registry) (tables : List Table) : List Piece :=
  tables.flatMap fun t => t.statement r ++ [.gap '\n']

def print (r : Registry) : String := String.ofList (chars (r.lines r.tables))

end Registry

/-! ### Printable schemas -/

/-- ASCII letters that spell no word operator and start no constraint. -/
def IsTypeWord (w : String) : Prop :=
  (Piece.word w).Valid ∧ ∀ k ∈ Parser.constraintStarts, w.toLower ≠ k.text

instance (w : String) : Decidable (IsTypeWord w) :=
  inferInstanceAs (Decidable
    ((Piece.word w).Valid ∧ ∀ k ∈ Parser.constraintStarts, w.toLower ≠ k.text))

/-- Nothing, or one or two numbers in parentheses. -/
inductive IsTypeSize : String → Prop
  | none : IsTypeSize ""
  | one {n : String} (hn : (Piece.number n).Valid) : IsTypeSize s!"({n})"
  | two {n m : String} (hn : (Piece.number n).Valid) (hm : (Piece.number m).Valid) :
      IsTypeSize s!"({n},{m})"

/-- No type, or words with a space between them and sizes behind them. -/
inductive IsDeclaredType : String → Prop
  | none : IsDeclaredType ""
  | some {words : List String} {size : String} (hne : words ≠ [])
      (hw : ∀ w ∈ words, IsTypeWord w) (hs : IsTypeSize size) :
      IsDeclaredType (" ".intercalate words ++ size)

namespace Piece

/-- A run of characters is taken as a whole. -/
theorem span_append {q : Char → Bool} {cs rest : List Char} (hq : ∀ c ∈ cs, q c = true)
    (hr : ∀ c ∈ rest.head?, q c = false) :
    (cs ++ rest).takeWhile q = cs ∧ (cs ++ rest).dropWhile q = rest := by
  rw [← Literal.take_leading, ← Literal.drop_leading, Literal.leading_append hq hr]
  exact ⟨List.take_left, List.drop_left⟩

theorem split_word {w : String} (hw : (Piece.word w).Valid) {rest : List Char}
    (hr : ∀ c ∈ rest.head?, c.isAlpha = false) :
    split (w.toList ++ rest) = .word w :: split rest := by
  obtain ⟨hne, hletters, -⟩ := hw
  obtain ⟨c, cs, hs⟩ := List.exists_cons_of_ne_nil (mt String.toList_eq_nil_iff.1 hne)
  rw [List.all_eq_true] at hletters
  rw [hs] at hletters ⊢
  obtain ⟨htake, hdrop⟩ := span_append (fun a ha => hletters a (List.mem_cons_of_mem _ ha)) hr
  rw [List.cons_append, split, if_pos (hletters c List.mem_cons_self), htake, hdrop, ← hs,
    String.ofList_toList]

theorem split_number {n : String} (hn : (Piece.number n).Valid) {rest : List Char}
    (hr : ∀ c ∈ rest.head?, c.isDigit = false) :
    split (n.toList ++ rest) = .number n :: split rest := by
  obtain ⟨hne, hdigits⟩ := hn
  obtain ⟨c, cs, hs⟩ := List.exists_cons_of_ne_nil (mt String.toList_eq_nil_iff.1 hne)
  rw [List.all_eq_true] at hdigits
  rw [hs] at hdigits ⊢
  obtain ⟨htake, hdrop⟩ := span_append (fun a ha => hdigits a (List.mem_cons_of_mem _ ha)) hr
  have hc := hdigits c List.mem_cons_self
  have hletter : c.isAlpha = false := by
    rw [Bool.eq_false_iff]
    intro ha
    have hd := (isAlpha_facts ha).2.2.1
    rw [hc] at hd
    cases hd
  rw [List.cons_append, split, hletter, if_neg (by decide), if_pos hc, htake, hdrop, ← hs,
    String.ofList_toList]

theorem split_mark {c : Char} (hc : c ∈ Lexeme.punctuation) (rest : List Char) :
    split (c :: rest) = .mark c :: split rest := by
  have hclass : c.isAlpha = false ∧ c.isDigit = false ∧ c ≠ ' ' := by
    simp only [Lexeme.punctuation, List.mem_cons, List.not_mem_nil, or_false] at hc
    rcases hc with rfl | rfl | rfl | rfl <;> decide
  obtain ⟨halpha, hdigit, hspace⟩ := hclass
  rw [split, halpha, hdigit, if_neg (by decide), if_neg (by decide), if_neg hspace]

theorem split_space (rest : List Char) : split (' ' :: rest) = .gap ' ' :: split rest := by
  rw [split, if_neg (by decide), if_neg (by decide), if_pos rfl]

/-- The pieces of words with a space between them are the words, each with a space in front. -/
theorem split_intercalate {words : List String} (hne : words ≠ [])
    (hw : ∀ w ∈ words, (Piece.word w).Valid) {rest : List Char}
    (hr : ∀ c ∈ rest.head?, c.isAlpha = false) :
    .gap ' ' :: split ((" ".intercalate words).toList ++ rest) =
      words.flatMap (fun w => [.gap ' ', .word w]) ++ split rest := by
  induction words with
  | nil => exact absurd rfl hne
  | cons w words ih =>
    have hvalid := hw w List.mem_cons_self
    cases words with
    | nil =>
      rw [String.intercalate_singleton, split_word hvalid hr]
      rfl
    | cons w' words =>
      have ih := ih (by simp) fun v hv => hw v (List.mem_cons_of_mem _ hv)
      rw [String.intercalate_cons_cons, String.toList_append, String.toList_append,
        List.append_assoc, List.append_assoc, split_word hvalid (by rintro _ ⟨⟩; rfl)]
      rw [show (" ".toList : List Char) = [' '] from rfl, List.singleton_append, split_space, ih]
      rfl

theorem intercalate_ne_empty {words : List String} (hne : words ≠ [])
    (hw : ∀ w ∈ words, w ≠ "") : " ".intercalate words ≠ "" := by
  obtain ⟨w, ws, rfl⟩ := List.exists_cons_of_ne_nil hne
  have hw := hw w List.mem_cons_self
  cases ws with
  | nil => simpa using hw
  | cons v ws => simp [String.intercalate_cons_cons, hw]

theorem toList_one (n : String) : s!"({n})".toList = '(' :: (n.toList ++ [')']) := by
  rw [String.toList_append, String.toList_append]
  rfl

theorem toList_two (n m : String) :
    s!"({n},{m})".toList = '(' :: (n.toList ++ ',' :: (m.toList ++ [')'])) := by
  rw [String.toList_append, String.toList_append, String.toList_append, String.toList_append,
    List.append_assoc, List.append_assoc, List.append_assoc]
  rfl

theorem split_one {n : String} (hn : (Piece.number n).Valid) :
    split s!"({n})".toList = [.mark '(', .number n, .mark ')'] := by
  rw [toList_one, split_mark (by decide), split_number hn (by rintro _ ⟨⟩; rfl),
    split_mark (by decide), split]

theorem split_two {n m : String} (hn : (Piece.number n).Valid) (hm : (Piece.number m).Valid) :
    split s!"({n},{m})".toList =
      [.mark '(', .number n, .mark ',', .number m, .mark ')'] := by
  rw [toList_two, split_mark (by decide), split_number hn (by rintro _ ⟨⟩; rfl),
    split_mark (by decide), split_number hm (by rintro _ ⟨⟩; rfl), split_mark (by decide), split]

/-- What is printed of a declared type: its words, and the sizes behind them. -/
theorem declaredType_append {words : List String} {size : String} (hne : words ≠ [])
    (hw : ∀ w ∈ words, (Piece.word w).Valid) (hs : IsTypeSize size) :
    declaredType (" ".intercalate words ++ size) =
      words.flatMap (fun w => [.gap ' ', .word w]) ++ split size.toList := by
  have hne' : " ".intercalate words ++ size ≠ "" := by
    have hi := intercalate_ne_empty hne fun w h => (hw w h).1
    simp [hi]
  have hr : ∀ c ∈ size.toList.head?, c.isAlpha = false := by
    cases hs with
    | none => exact nofun
    | one =>
      rw [toList_one]
      rintro _ ⟨⟩
      rfl
    | two =>
      rw [toList_two]
      rintro _ ⟨⟩
      rfl
  rw [declaredType, if_neg hne', String.toList_append, split_intercalate hne hw hr]

/-! ### Printed texts are separate -/

/-- The keywords that are printed. -/
def printed : List Keyword :=
  [.CREATE, .TEMP, .TABLE, .NOT, .NULL, .COLLATE, .PRIMARY, .KEY, .AUTOINCREMENT, .UNIQUE,
   .FOREIGN, .REFERENCES, .ON, .DELETE, .UPDATE, .NO, .ACTION, .RESTRICT, .SET, .DEFAULT,
   .CASCADE, .WITHOUT, .ROWID, .STRICT]

theorem valid_keyword {k : Keyword} (h : k ∈ printed) : (keyword k).Valid := by
  have hall : ∀ k ∈ printed, (keyword k).Valid := by decide +kernel
  exact hall k h

theorem loose_keywords {ks : List Keyword} (h : ks ⊆ printed) : Loose (keywords ks) :=
  loose_flatMap fun _ hk => (separate_singleton (valid_keyword (h hk))).behindSpace

theorem separate_commas {items : List (List Piece)} (h : ∀ x ∈ items, Separate x) :
    Separate (commas items) := by
  cases items with
  | nil => exact separate_nil
  | cons first rest =>
    refine (h first List.mem_cons_self).appendLoose (loose_flatMap fun x hx => ?_)
    have hx := (h x (List.mem_cons_of_mem _ hx)).behindSpace
    exact hx.toSeparate.behindMark (by decide)

theorem loose_declaredType {type : String} (h : IsDeclaredType type) :
    Loose (declaredType type) := by
  cases h with
  | none => exact loose_nil
  | @some words size hne hw hs =>
    rw [declaredType_append hne (fun w h => (hw w h).1) hs]
    refine (loose_flatMap fun w hm => (separate_singleton (hw w hm).1).behindSpace).append ?_
    have hclose : Loose [.mark ')'] := separate_nil.behindMark (by decide)
    cases hs with
    | none =>
      rw [String.toList_empty, split]
      exact loose_nil
    | one hn =>
      rw [split_one hn]
      exact ((separate_singleton hn).appendLoose hclose).behindMark (by decide)
    | two hn hm =>
      rw [split_two hn hm]
      have hm := ((separate_singleton hm).appendLoose hclose).behindMark (c := ',') (by decide)
      exact ((separate_singleton hn).appendLoose hm).behindMark (by decide)

end Piece

namespace Table

/-- The table can be printed: it has columns, its options are allowed, what is derived from its
names and types agrees with them, and names and types can be spelled. -/
structure Printable (t : Table) : Prop where
  columns : t.columns ≠ []
  options : t.OptionsAllowed
  outputName : t.outputName = Name.output t.sqlName
  outputNames : ∀ c ∈ t.columns, c.outputName = Name.output c.sqlName
  affinities : ∀ c ∈ t.columns, c.affinity = .ofDeclaredType c.sqlType
  name : (Piece.name t.sqlName).Valid
  names : ∀ c ∈ t.columns, (Piece.name c.sqlName).Valid
  collations : ∀ c ∈ t.columns, ∀ name, c.collation = some name → (Piece.name name).Valid
  types : ∀ c ∈ t.columns, IsDeclaredType c.sqlType

variable {t : Table} {r : Registry}

theorem valid_columnName (hp : t.Printable) (i : Nat) :
    (Piece.name (Definition.columnName t i)).Valid := by
  rw [Definition.columnName]
  cases hc : t.columns[i]? with
  | none => simp [Piece.Valid]
  | some c => exact hp.names c (List.mem_of_getElem? hc)

theorem loose_columnGroup (hp : t.Printable) (indices : List Nat) :
    Loose (t.columnGroup indices) := by
  have hnames : Separate (commas (indices.map fun i => [.name (Definition.columnName t i)])) := by
    apply separate_commas
    intro x hx
    obtain ⟨i, -, rfl⟩ := List.mem_map.1 hx
    exact separate_singleton (valid_columnName hp i)
  refine (hnames.appendLoose ?_).behindMark (by decide)
  exact separate_nil.behindMark (by decide)

theorem separate_uniquePieces (hp : t.Printable) (indices : List Nat) :
    Separate (t.uniquePieces indices) :=
  (separate_singleton (valid_keyword (by decide))).appendLoose
    (loose_columnGroup hp indices).toSeparate.behindSpace

theorem loose_column (hp : t.Printable) {c : Column} (hc : c ∈ t.columns) : Loose c.pieces := by
  have hname : Loose [.name c.sqlName] := separate_nil.behindName (hp.names c hc)
  have hnot : Loose c.notNullPieces :=
    .ite (fun _ => loose_keywords (by decide)) fun _ => loose_nil
  have hkey : Loose c.keyPieces :=
    .ite (fun _ => loose_keywords (by decide)) fun _ => loose_nil
  have hcollation : Loose c.collationPieces := by
    unfold Column.collationPieces
    cases hcollation : c.collation with
    | none => exact loose_nil
    | some name =>
      have hn := separate_nil.behindName (hp.collations c hc name hcollation)
      exact (loose_keywords (by decide)).append hn.toSeparate.behindSpace
  exact hname.append ((loose_declaredType (hp.types c hc)).append
    (hnot.append (hcollation.append hkey)))

theorem separate_foreignKey (hp : t.Printable) (hr : ∀ u ∈ r.tables, u.Printable) (k : ForeignKey) :
    Separate (t.foreignKeyPieces r k) := by
  have haction (first : Keyword) (action : ReferentialAction) (hf : first ∈ [.DELETE, .UPDATE]) :
      Loose (keywords (.ON :: first :: action.keywords)) := by
    apply loose_keywords
    simp only [List.mem_cons, List.not_mem_nil, or_false] at hf
    rcases hf with rfl | rfl <;> cases action <;> decide
  have hforeign : Loose ((r.table? k.foreignTable).elim [] fun foreign =>
      [.gap ' ', .name foreign.sqlName, .gap ' '] ++ foreign.columnGroup k.foreignColumns) := by
    cases hf : r.table? k.foreignTable with
    | none => exact loose_nil
    | some foreign =>
      have hu := hr foreign (List.mem_of_getElem? hf)
      have hgroup := (loose_columnGroup hu k.foreignColumns).toSeparate.behindSpace
      exact (hgroup.toSeparate.behindName hu.name).toSeparate.behindSpace
  have hkey : Separate [keyword .FOREIGN] := separate_singleton (valid_keyword (by decide))
  refine (((((((hkey.appendLoose ?_).appendLoose ?_).appendLoose ?_).appendLoose ?_).appendLoose
    hforeign).appendLoose ?_).appendLoose ?_)
  · exact loose_keywords (by decide)
  · exact separate_nil.behindSpace
  · exact loose_columnGroup hp k.columns
  · exact loose_keywords (by decide)
  · exact haction .DELETE k.onDelete (by decide)
  · exact haction .UPDATE k.onUpdate (by decide)

theorem separate_items (hp : t.Printable) (hr : ∀ u ∈ r.tables, u.Printable) :
    ∀ x ∈ t.items r, Separate x := by
  intro x hx
  simp only [items, List.mem_append, List.mem_map] at hx
  rcases hx with (((⟨c, hc, rfl⟩ | ⟨i, -, rfl⟩) | ⟨u, -, rfl⟩) | hx) | ⟨k, -, rfl⟩
  · exact (loose_column hp hc).toSeparate
  · exact separate_uniquePieces hp [i]
  · exact separate_uniquePieces hp u
  · rw [primaryKeyPieces] at hx
    split at hx
    · cases hx
    · rw [List.mem_singleton.1 hx]
      refine (((separate_singleton (valid_keyword (by decide))).appendLoose ?_).appendLoose
        ?_).appendLoose (loose_columnGroup hp _)
      · exact loose_keywords (by decide)
      · exact separate_nil.behindSpace
  · exact separate_foreignKey hp hr k

theorem separate_statement (hp : t.Printable) (hr : ∀ u ∈ r.tables, u.Printable) :
    Separate (t.statement r) := by
  have hopen : Loose (keywords (if t.isTemporary then [.TEMP, .TABLE] else [.TABLE])) := by
    apply loose_keywords
    split <;> decide
  have hoptions : Loose t.optionPieces := by
    refine (Loose.append ?_ ?_).append ?_
    · exact .ite (fun _ => loose_keywords (by decide)) fun _ => loose_nil
    · exact .ite (fun _ => separate_nil.behindMark (by decide)) fun _ => loose_nil
    · exact .ite (fun _ => loose_keywords (by decide)) fun _ => loose_nil
  have hbody : Loose ([.gap ' ', .name t.sqlName, .gap ' ', .mark '('] ++ commas (t.items r)) := by
    have hitems := (separate_commas (separate_items hp hr)).behindMark (c := '(') (by decide)
    exact (hitems.toSeparate.behindSpace.toSeparate.behindName hp.name).toSeparate.behindSpace
  refine (separate_singleton (valid_keyword (by decide))).appendLoose
    ((((hopen.append ?_).append ?_).append hoptions).append ?_)
  · exact hbody
  · exact separate_nil.behindMark (by decide)
  · exact separate_nil.behindMark (by decide)

end Table

theorem Registry.separate_lines {r : Registry} {tables : List Table}
    (hr : ∀ t ∈ r.tables, t.Printable) (ht : ∀ t ∈ tables, t.Printable) :
    Separate (r.lines tables) := by
  induction tables with
  | nil => exact separate_nil
  | cons t tables ih =>
    have hline : Separate (t.statement r ++ [.gap '\n']) :=
      (Table.separate_statement (ht t List.mem_cons_self) hr).appendLoose
        (loose_cons (x := .gap '\n') (.inr rfl) rfl separate_nil)
    rw [lines, List.flatMap_cons]
    refine hline.append (ih fun u hu => ht u (List.mem_cons_of_mem _ hu)) ?_
    intro x hx y _ hb
    rw [List.getLast?_concat, Option.mem_some_iff] at hx
    rw [← hx] at hb
    cases hb

end SqliteSchema
