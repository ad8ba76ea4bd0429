import SqliteSchema.Proofs.Expr.Collect
import SqliteSchema.Proofs.Schema.Print
import SqliteSchema.Query.Select

/-!
Queries without expressions as texts: a list of columns and a list of tables. All names stand in
brackets, and an alias stands behind `AS` or right behind what it renames.
-/
namespace SqliteSchema

open Token Piece

/-! ### Texts of known tokens -/

/-- The text is cut into these tokens, whatever stands in front of it and behind it. None of them is
a bind parameter. -/
structure Spells (cs : List Char) (as : List Token) : Prop where
  plain : ∀ a ∈ as, a.isParameter = false
  cut : ∀ p rest, ∃ ts, ts.map Token.atStart = as ∧
    Token.stream p (cs ++ rest) = (Token.stream (p.after cs) rest).map (ts ++ ·)

/-- The operator that stands for all columns. -/
def Token.ofStar : Token := ⟨"*", .operator true false, .start⟩

variable {cs ds : List Char} {as bs : List Token} {x : Piece} {s : String} {k : Keyword}

theorem spells_nil : Spells [] [] := by
  refine ⟨nofun, fun p rest => ⟨[], rfl, ?_⟩⟩
  change Token.stream p rest = (Token.stream p rest).map id
  cases Token.stream p rest <;> rfl

theorem Spells.append (h : Spells cs as) (h' : Spells ds bs) : Spells (cs ++ ds) (as ++ bs) := by
  refine ⟨fun a ha => (List.mem_append.1 ha).elim (h.plain a) (h'.plain a), fun p rest => ?_⟩
  obtain ⟨ts, hts, hcs⟩ := h.cut p (ds ++ rest)
  obtain ⟨us, hus, hds⟩ := h'.cut (p.after cs) rest
  refine ⟨ts ++ us, by rw [List.map_append, hts, hus], ?_⟩
  rw [List.append_assoc, hcs, hds, ← Position.after_append]
  cases Token.stream (p.after (cs ++ ds)) rest <;> simp [Except.map]

theorem Spells.ite {c : Prop} [Decidable c] (h : Spells cs as) (h' : Spells ds bs) :
    Spells (if c then cs else ds) (if c then as else bs) := by
  split
  · exact h
  · exact h'

theorem Spells.tokenize {text : String} (h : Spells text.toList as) :
    ∃ ts, Token.tokenize text = .ok ts ∧ ts.map Token.atStart = as := by
  obtain ⟨ts, hts, hstream⟩ := h.cut .start []
  refine ⟨ts, ?_, hts⟩
  rw [List.append_nil, Token.stream_nil] at hstream
  rw [Token.tokenize, hstream]
  simp [Except.map]

theorem map_atStart_tokenAt (p : Position) (x : Piece) :
    (x.tokenAt p).toList.map Token.atStart = tokens [x] := by
  rw [← map_atStart_place p [x], place, place, List.append_nil]

/-- A piece to which nothing can be added. -/
theorem spells_piece (hx : x.Valid) (hb : x.isBare = false)
    (hp : ∀ a ∈ tokens [x], a.isParameter = false) : Spells x.text (tokens [x]) where
  plain := hp
  cut p _ := ⟨_, map_atStart_tokenAt p x,
    stream_text hx (fun h => absurd (hb.symm.trans h) Bool.false_ne_true) p⟩

theorem spells_name (hs : ']' ∉ s.toList) : Spells (name s).text [ofName s] := by
  refine spells_piece (x := .name s) hs rfl fun a ha => ?_
  obtain rfl := List.mem_singleton.1 ha
  exact isParameter_of_isIdentifier isIdentifier_ofName

theorem spells_space : Spells [' '] [] :=
  spells_piece (x := .gap ' ') (.inl rfl) rfl nofun

/-- A keyword and the space behind it. -/
theorem spells_keyword (hk : (Piece.keyword k).Valid) :
    Spells ((Piece.keyword k).text ++ [' ']) [ofKeyword k] := by
  refine ⟨fun a ha => ?_, fun p rest => ?_⟩
  · obtain rfl := List.mem_singleton.1 ha
    exact isParameter_of_isKeyword isKeyword_self
  · have hcloses : Closes (' ' :: rest) := by
      rintro _ ⟨⟩
      decide
    have hread : Lexeme.read ' ' rest = .ok (.gap 0) := rfl
    refine ⟨_, (map_atStart_tokenAt p _).trans (tokens_keyword k []), ?_⟩
    rw [List.append_assoc, List.singleton_append, stream_text hk fun _ => hcloses,
      Token.stream_gap hread, Position.after_append]
    rfl

theorem spells_star : Spells ['*'] [ofStar] := by
  refine ⟨by decide, fun p rest => ⟨[⟨"*", .operator true false, p⟩], rfl, ?_⟩⟩
  have hread : Lexeme.read '*' rest = .ok (.token (.operator true false) 0) := rfl
  rw [List.singleton_append, Token.stream_token hread]
  rfl

/-- A point is a token of its own in front of anything but a digit. -/
theorem spells_point {c : Char} (h : Spells (c :: cs) as) (hc : c.isDigit = false) :
    Spells ('.' :: c :: cs) (ofMark '.' :: as) := by
  have hpoint : (ofMark '.').isParameter = false := by decide
  refine ⟨List.forall_mem_cons.2 ⟨hpoint, h.plain⟩, fun p rest => ?_⟩
  obtain ⟨ts, hts, hstream⟩ := h.cut (p.after ['.']) rest
  have hread : Lexeme.read '.' (c :: (cs ++ rest)) = .ok (.token .other 0) := by
    have htoken : Lexeme.read '.' (c :: (cs ++ rest)) = Lexeme.tokenAt '.' (c :: (cs ++ rest)) :=
      rfl
    simp [htoken, Lexeme.tokenAt, hc]
  refine ⟨⟨".", .other, p⟩ :: ts, by rw [List.map_cons, hts]; rfl, ?_⟩
  rw [List.cons_append, List.cons_append, Token.stream_token hread]
  change (Token.stream (p.after ['.']) (c :: cs ++ rest)).map (⟨".", .other, p⟩ :: ·) = _
  rw [hstream, ← Position.after_append, List.singleton_append]
  cases Token.stream (p.after ('.' :: c :: cs)) rest <;> rfl

/-- Lists with a separator between them. -/
theorem intercalate_cons {α : Type} (sep xs : List α) (xss : List (List α)) :
    sep.intercalate (xs :: xss) = xs ++ xss.flatMap (sep ++ ·) := by
  induction xss generalizing xs with
  | nil => simp [List.intercalate]
  | cons ys xss ih =>
    rw [List.intercalate_cons_cons, ih, List.flatMap_cons, List.append_assoc, List.append_assoc]

theorem spells_intercalate {α : Type} {sep : List Char} {sep' : List Token} {l : List α}
    {f : α → List Char} {g : α → List Token} (hsep : Spells sep sep')
    (h : ∀ a ∈ l, Spells (f a) (g a)) :
    Spells (sep.intercalate (l.map f)) (sep'.intercalate (l.map g)) := by
  have hmore : Spells ((l.tail.map f).flatMap (sep ++ ·)) ((l.tail.map g).flatMap (sep' ++ ·)) := by
    have htail : ∀ a ∈ l.tail, Spells (f a) (g a) := fun a ha => h a (List.mem_of_mem_tail ha)
    generalize l.tail = tail at htail
    induction tail with
    | nil => exact spells_nil
    | cons b tail ih =>
      exact (hsep.append (htail b List.mem_cons_self)).append
        (ih fun c hc => htail c (List.mem_cons_of_mem _ hc))
  cases l with
  | nil => exact spells_nil
  | cons a l =>
    rw [List.map_cons, List.map_cons, intercalate_cons, intercalate_cons]
    exact (h a List.mem_cons_self).append hmore

/-! ### Queries -/

namespace Query

/-- Another name, behind `AS` or by itself. -/
structure Alias where
  name : String
  behindAs : Bool
  deriving DecidableEq, Repr

namespace Outline

/-- A column or all columns, by name. -/
inductive Item
  | allColumns
  | allColumnsOf (table : String)
  | column (table : Option String) (column : String) (newName : Option Alias)
  deriving DecidableEq, Repr

/-- A table, by name. -/
structure Entry where
  table : String
  newName : Option Alias
  deriving DecidableEq, Repr

end Outline

/-- A query without expressions. -/
structure Outline where
  distinct : Bool
  items : List Outline.Item
  entries : List Outline.Entry
  deriving DecidableEq, Repr

/-- A keyword and a space. -/
def wordText (k : Keyword) : List Char := (Piece.keyword k).text ++ [' ']

def nameText (s : String) : List Char := (Piece.name s).text

namespace Alias

def text (a : Alias) : List Char :=
  [' '] ++ (if a.behindAs then wordText .AS else []) ++ nameText a.name

def tokens (a : Alias) : List Token :=
  (if a.behindAs then [ofKeyword .AS] else []) ++ [ofName a.name]

end Alias

namespace Outline

def aliasText (newName : Option Alias) : List Char := newName.elim [] Alias.text

def aliasTokens (newName : Option Alias) : List Token := newName.elim [] Alias.tokens

/-- `[table.]column` -/
def referenceText (table : Option String) (column : String) : List Char :=
  match table with
  | none => nameText column
  | some table => nameText table ++ '.' :: nameText column

def referenceTokens (table : Option String) (column : String) : List Token :=
  match table with
  | none => [ofName column]
  | some table => [ofName table, ofMark '.', ofName column]

namespace Item

def text : Item → List Char
  | allColumns => ['*']
  | allColumnsOf table => nameText table ++ ['.', '*']
  | column table c newName => referenceText table c ++ aliasText newName

def tokens : Item → List Token
  | allColumns => [ofStar]
  | allColumnsOf table => [ofName table, ofMark '.', ofStar]
  | column table c newName => referenceTokens table c ++ aliasTokens newName

def names : Item → List String
  | allColumns => []
  | allColumnsOf table => [table]
  | column table c newName => table.toList ++ c :: (newName.map (·.name)).toList

/-- The entry of a select list, its names in brackets. -/
def selected : Item → SelectItem
  | allColumns => .allColumns
  | allColumnsOf table => .allColumnsOf (ofName table)
  | column table c newName => .column (table.map ofName) (ofName c) (newName.map (·.name))

/-- The entry of a select list has the kind, the names and the alias of the item. -/
def Means : Item → SelectItem → Prop
  | allColumns, .allColumns => True
  | allColumnsOf table, .allColumnsOf token => token.unquoted = table
  | column table c newName, .column qualifier token given =>
    qualifier.map Token.unquoted = table ∧ token.unquoted = c ∧ given = newName.map (·.name)
  | _, _ => False

end Item

namespace Entry

def text (e : Entry) : List Char := nameText e.table ++ aliasText e.newName

def tokens (e : Entry) : List Token := ofName e.table :: aliasTokens e.newName

def names (e : Entry) : List String := e.table :: (e.newName.map (·.name)).toList

/-- The name that the table goes by in the query. -/
def given (e : Entry) : String := (e.newName.map (·.name)).getD e.table

/-- The table of the entry in a registry. -/
structure Finds (registry : Registry) (e : Entry) (source : Source) : Prop where
  table : registry.find? e.table = some source.table
  name : source.name = e.given

end Entry

/-- `SELECT [DISTINCT] items FROM entries` -/
def text (o : Outline) : List Char :=
  wordText .SELECT ++ (if o.distinct then wordText .DISTINCT else []) ++
    [',', ' '].intercalate (o.items.map Item.text) ++ [' '] ++ wordText .FROM ++
    [',', ' '].intercalate (o.entries.map Entry.text)

def print (o : Outline) : String := String.ofList o.text

def tokens (o : Outline) : List Token :=
  [ofKeyword .SELECT] ++ (if o.distinct then [ofKeyword .DISTINCT] else []) ++
    [ofMark ','].intercalate (o.items.map Item.tokens) ++ [] ++ [ofKeyword .FROM] ++
    [ofMark ','].intercalate (o.entries.map Entry.tokens)

/-- All names of the query can stand in brackets. -/
structure Printable (o : Outline) : Prop where
  items : ∀ item ∈ o.items, ∀ name ∈ item.names, ']' ∉ name.toList
  entries : ∀ entry ∈ o.entries, ∀ name ∈ entry.names, ']' ∉ name.toList

/-- The query has a result on the tables of a registry. `sources` is its `FROM` list. -/
structure Fits (registry : Registry) (sources : List Source) (o : Outline) : Prop where
  items_ne_nil : o.items ≠ []
  entries_ne_nil : o.entries ≠ []
  found : List.Forall₂ (Entry.Finds registry) o.entries sources
  distinct : o.entries.Pairwise fun e e' => sameName e.given e'.given = false
  resolved : ∀ item ∈ o.items, ∃ ps, resolve sources item.selected = .ok ps

/-! ### Printed queries are cut into their tokens -/

theorem spells_word {k : Keyword} (hk : k ∈ [Keyword.SELECT, .DISTINCT, .FROM, .AS]) :
    Spells (wordText k) [ofKeyword k] := by
  have hall : ∀ k ∈ [Keyword.SELECT, .DISTINCT, .FROM, .AS], (Piece.keyword k).Valid := by
    decide +kernel
  exact spells_keyword (hall k hk)

theorem spells_alias {newName : Option Alias} (h : ∀ a ∈ newName, ']' ∉ a.name.toList) :
    Spells (aliasText newName) (aliasTokens newName) := by
  cases newName with
  | none => exact spells_nil
  | some a =>
    exact (spells_space.append (.ite (spells_word (by decide)) spells_nil)).append
      (spells_name (h a rfl))

theorem spells_item {item : Item} (h : ∀ name ∈ item.names, ']' ∉ name.toList) :
    Spells item.text item.tokens := by
  cases item with
  | allColumns => exact spells_star
  | allColumnsOf table =>
    exact (spells_name (h table (by simp [Item.names]))).append (spells_point spells_star rfl)
  | column table c newName =>
    have hcolumn : Spells (nameText c) [ofName c] := spells_name (h c (by simp [Item.names]))
    refine Spells.append ?_
      (spells_alias fun a ha => h a.name (by simp [Item.names, Option.mem_def.1 ha]))
    cases table with
    | none => exact hcolumn
    | some table =>
      exact (spells_name (h table (by simp [Item.names]))).append (spells_point hcolumn rfl)

theorem spells_entry {entry : Entry} (h : ∀ name ∈ entry.names, ']' ∉ name.toList) :
    Spells entry.text entry.tokens :=
  (spells_name (h entry.table (by simp [Entry.names]))).append
    (spells_alias fun a ha => h a.name (by simp [Entry.names, Option.mem_def.1 ha]))

theorem spells_text {o : Outline} (h : o.Printable) : Spells o.text o.tokens := by
  have hcomma : Spells [',', ' '] [ofMark ','] :=
    (spells_piece (x := .mark ',') (by decide) rfl (by decide)).append spells_space
  exact (((((spells_word (by decide)).append (.ite (spells_word (by decide)) spells_nil)).append
    (spells_intercalate hcomma fun item hi => spells_item (h.items item hi))).append
    spells_space).append (spells_word (by decide))).append
    (spells_intercalate hcomma fun entry he => spells_entry (h.entries entry he))

end Outline

end Query

end SqliteSchema
