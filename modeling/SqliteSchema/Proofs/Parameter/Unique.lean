import SqliteSchema.Proofs.Lexeme.Spaced
import SqliteSchema.Proofs.Parameter.Place

/-!
Tokens leave no choice of the groups that are passed over. A token may have several roles, but only
one of them leads anywhere from a place, as long as operators are spelled as the language spells
them; and the tokens of a text are.
-/
namespace SqliteSchema

namespace Lexeme

variable {c : Char} {rest cs : List Char} {binary unary : Bool} {n m : Nat}

/-- Only symbols and words are read as operators. -/
theorem operatorOrWord_of_tokenAt
    (h : tokenAt c rest = .ok (.token (.operator binary unary) n)) :
    operatorOrWord c rest = .ok (.token (.operator binary unary) n) := by
  unfold tokenAt at h
  split at h
  · cases h
  split at h
  · cases h
  split at h
  · obtain ⟨m, -, hkind⟩ := literal_eq_ok.1 h
    cases hkind
  split at h
  · obtain ⟨m, -, hkind⟩ := closed_eq_ok.1 h
    cases hkind
  split at h
  · obtain ⟨m, -, hkind⟩ := literal_eq_ok.1 h
    cases hkind
  split at h
  · obtain ⟨m, -, hkind⟩ := closed_eq_ok.1 h
    cases hkind
  · exact h

theorem operator_of_read (h : read c rest = .ok (.token (.operator binary unary) n)) :
    (∃ op ∈ Operator.symbols, c :: rest.take n = op.symbol.toList ∧
        binary = op.binary ∧ unary = op.unary) ∨
      SpellsOperator (c :: rest.take n) ∧ binary = true ∧ unary = false := by
  have hop := operatorOrWord_of_tokenAt (read_eq_token.1 h).2.2
  unfold operatorOrWord at hop
  split at hop
  · next op hmatch =>
    cases hop
    obtain ⟨hmem, hprefix⟩ := match?_eq_some hmatch
    have hpos : 0 < op.symbol.length := by
      rw [← String.length_toList]
      exact List.length_pos_of_ne_nil (symbol_ne_nil hmem)
    refine .inl ⟨op, hmem, ?_, rfl, rfl⟩
    rw [List.prefix_iff_eq_take.1 hprefix, String.length_toList, ← List.take_succ_cons,
      Nat.sub_add_cancel hpos]
  · split at hop
    · next m hword =>
      cases hop
      obtain ⟨ws, left, hws, hspelled, rfl, -⟩ := word?_eq_some hword
      obtain ⟨a, b, us, rfl⟩ := hspelled.exists_cons
      obtain ⟨rfl, rfl⟩ := List.cons.inj hws
      refine .inr ⟨?_, rfl, rfl⟩
      rwa [List.length_cons, Nat.add_sub_cancel, List.append_eq, List.take_left]
    · unfold word at hop
      split at hop
      · cases hop
      · cases hop

end Lexeme

namespace Token

variable {t : Token} {ts : List Token} {text : String} {x y : Role} {k : Keyword}
  {binary unary : Bool}

/-- An operator is spelled like one that takes as many operands. -/
def IsRegular (t : Token) : Prop :=
  ∀ binary unary, t.kind = .operator binary unary →
    (∃ op ∈ Lexeme.Operator.symbols, t.value = op.symbol ∧ binary = op.binary ∧ unary = op.unary) ∨
      t.value.toLower ∈ Lexeme.Operator.words ∧ binary = true ∧ unary = false

/-- So are all operators of a text. -/
theorem isRegular_of_tokenize (h : tokenize text = .ok ts) : ∀ t ∈ ts, t.IsRegular := by
  refine forall_of_stream (fun hread p => ?_) h
  intro binary unary hkind
  obtain rfl := hkind
  rcases Lexeme.operator_of_read hread with ⟨op, hop, hvalue, hbinary, hunary⟩ | ⟨hspelled, hfixed⟩
  · exact .inl ⟨op, hop, by rw [hvalue, String.ofList_toList], hbinary, hunary⟩
  · refine .inr ⟨Lexeme.spellsOperator_toList.1 ?_, hfixed⟩
    rwa [String.toList_ofList]

/-- The marks and their roles. -/
def marks : List (String × Role) :=
  [("(", .opening), (")", .closing), (",", .comma), (".", .point), ("*", .star), ("+", .sign),
    ("-", .sign)]

/-- The role of a token that is no operator. -/
def plainRole (t : Token) : Role :=
  if t.isLiteral then .value
  else ((marks.lookup t.value).or (t.keyword.map .keyword)).getD .value

theorem plainRole_of_is {symbol : String} (h : t.is symbol = true)
    (hx : marks.lookup symbol = some x) : t.plainRole = x := by
  obtain ⟨hliteral, hvalue⟩ := Bool.and_eq_true_iff.1 h
  rw [plainRole, if_neg (by simpa using hliteral), eq_of_beq hvalue, hx]
  rfl

/-- A mark is no keyword, no bind parameter and no name. -/
theorem marks_facts : ∀ m ∈ marks, Keyword.ofText? m.1.toLower = none ∧
    m.1.toList.head?.any parameterSigns.contains = false ∧
    Literal.Quoted.inside? m.1.toList = none ∧ m.1.toList.head?.any startsWord = false := by
  decide +kernel

theorem plainRole_of_not_mark (hliteral : t.isLiteral = false) (h : ∀ m ∈ marks, t.value ≠ m.1) :
    t.plainRole = (t.keyword.map .keyword).getD .value := by
  have hlookup : marks.lookup t.value = none :=
    List.lookup_eq_none_iff.2 fun m hm => bne_iff_ne.2 (h m hm)
  rw [plainRole, if_neg (by simp [hliteral]), hlookup, Option.none_or]

theorem plainRole_of_isKeyword (h : t.isKeyword k = true) : t.plainRole = .keyword k := by
  have hword := Bool.and_eq_true_iff.1 h
  have hliteral : t.isLiteral = false := by
    cases hkind : t.kind <;> simp [isWord, hkind] at hword <;> simp [isLiteral, hkind]
  rw [plainRole_of_not_mark hliteral, isKeyword_iff_keyword.1 h]
  · rfl
  · intro m hm hvalue
    have hnone := (marks_facts m hm).1
    rw [← hvalue, eq_of_beq hword.2, Keyword.ofText?_text] at hnone
    cases hnone

/-- Neither bind parameters nor names are keywords here or spelled like marks. -/
theorem plainRole_of_value
    (h : (t.isLiteral || t.isParameter || (t.isIdentifier && t.keyword.isNone)) = true) :
    t.plainRole = .value := by
  cases hliteral : t.isLiteral with
  | true => rw [plainRole, if_pos hliteral]
  | false =>
    rw [hliteral, Bool.false_or, Bool.or_eq_true_iff] at h
    have hkeyword : t.keyword = none := by
      rcases h with hparameter | hname
      · rw [Option.eq_none_iff_forall_ne_some]
        intro k hk
        rw [isParameter_of_isKeyword (isKeyword_iff_keyword.2 hk)] at hparameter
        cases hparameter
      · exact Option.isNone_iff_eq_none.1 (Bool.and_eq_true_iff.1 hname).2
    rw [plainRole_of_not_mark hliteral, hkeyword]
    · rfl
    · intro m hm hvalue
      obtain ⟨-, hparameter, hquoted, hname⟩ := marks_facts m hm
      rw [← hvalue] at hparameter hquoted hname
      have hnot : t.isParameter = false := by
        rw [isParameter, hparameter, Bool.and_false]
      simp [hnot, isIdentifier, isQuoted, hquoted, hname] at h

/-- All roles but those of operators exclude each other. -/
theorem HasRole.plainRole (h : t.HasRole x) (hunary : x ≠ .unary) (hbinary : x ≠ .binary) :
    t.plainRole = x := by
  cases h with
  | opening h => exact plainRole_of_is h rfl
  | closing h => exact plainRole_of_is h rfl
  | comma h => exact plainRole_of_is h rfl
  | point h => exact plainRole_of_is h rfl
  | star h => exact plainRole_of_is h rfl
  | sign h =>
    rcases Bool.or_eq_true_iff.1 h with h | h
    · exact plainRole_of_is h rfl
    · exact plainRole_of_is h rfl
  | unary => exact absurd rfl hunary
  | binary => exact absurd rfl hbinary
  | keyword h => exact plainRole_of_isKeyword h
  | value h => exact plainRole_of_value h

/-- Only operators are unary or binary. -/
theorem HasRole.exists_operator (h : t.HasRole x) (hx : x = .unary ∨ x = .binary) :
    ∃ binary unary, t.kind = .operator binary unary := by
  cases hkind : t.kind with
  | operator binary unary => exact ⟨binary, unary, rfl⟩
  | _ =>
    rcases hx with rfl | rfl
    · cases h with
      | unary h => simp [isUnary, hkind] at h
    · cases h with
      | binary h => simp [isBinary, hkind] at h

/-! ### Operators that are marks or keywords too -/

/-- The roles that a token can have together. -/
def overlapping : List (List Role) :=
  [[.unary, .binary, .sign], [.binary, .star], [.binary, .keyword .AND], [.binary, .keyword .OR]]

theorem symbols_facts : ∀ op ∈ Lexeme.Operator.symbols, ∃ l ∈ overlapping,
    (op.unary = true → Role.unary ∈ l) ∧ (op.binary = true → Role.binary ∈ l) ∧
      ((marks.lookup op.symbol).or ((Keyword.ofText? op.symbol.toLower).map .keyword)).all
        (· ∈ l) = true := by
  decide +kernel

theorem words_facts : ∀ w ∈ Lexeme.Operator.words, ∃ k, Keyword.ofText? w = some k ∧
    [.binary, .keyword k] ∈ overlapping := by
  decide +kernel

theorem isUnary_of_operator (h : t.kind = .operator binary unary) : t.isUnary = unary := by
  cases unary <;> simp [isUnary, h]

theorem isBinary_of_operator (h : t.kind = .operator binary unary) : t.isBinary = binary := by
  cases binary <;> simp [isBinary, h]

theorem roles_of_symbol {op : Lexeme.Operator} (hop : op ∈ Lexeme.Operator.symbols)
    (hkind : t.kind = .operator op.binary op.unary) (hvalue : t.value = op.symbol) :
    ∃ l ∈ overlapping, ∀ x, t.HasRole x → x ∈ l := by
  obtain ⟨l, hl, hunary, hbinary, hplain⟩ := symbols_facts op hop
  refine ⟨l, hl, fun x hx => ?_⟩
  by_cases hxu : x = .unary
  · subst hxu
    cases hx with
    | unary h => exact hunary ((isUnary_of_operator hkind).symm.trans h)
  by_cases hxb : x = .binary
  · subst hxb
    cases hx with
    | binary h => exact hbinary ((isBinary_of_operator hkind).symm.trans h)
  have hrole := hx.plainRole hxu hxb
  have hliteral : t.isLiteral = false := by simp [isLiteral, hkind]
  have hkeyword : t.keyword = Keyword.ofText? op.symbol.toLower := by
    simp [keyword, isWord, hkind, hvalue]
  rw [Token.plainRole, if_neg (by simp [hliteral]), hvalue, hkeyword] at hrole
  cases hmark : (marks.lookup op.symbol).or ((Keyword.ofText? op.symbol.toLower).map .keyword) with
  | some y =>
    rw [hmark] at hrole hplain
    obtain rfl : y = x := hrole
    simpa using hplain
  | none =>
    -- An operator is no value.
    rw [hmark] at hrole
    obtain rfl : Role.value = x := hrole
    cases hx with
    | value h => simp [hliteral, isParameter, isIdentifier, hkind] at h

theorem roles_of_word (hkind : t.kind = .operator true false)
    (hword : t.value.toLower ∈ Lexeme.Operator.words) :
    ∃ l ∈ overlapping, ∀ x, t.HasRole x → x ∈ l := by
  obtain ⟨k, hk, hmem⟩ := words_facts _ hword
  have hkeyword : t.isKeyword k = true :=
    isKeyword_iff_keyword.2 (by simp [keyword, isWord, hkind, hk])
  refine ⟨_, hmem, fun x hx => ?_⟩
  by_cases hxu : x = .unary
  · subst hxu
    cases hx with
    | unary h => cases (isUnary_of_operator hkind).symm.trans h
  by_cases hxb : x = .binary
  · exact hxb ▸ List.mem_cons_self
  rw [← hx.plainRole hxu hxb, plainRole_of_isKeyword hkeyword]
  exact List.mem_cons_of_mem _ List.mem_cons_self

/-- The roles of an operator are among those that a token can have together. -/
theorem IsRegular.roles (ht : t.IsRegular) (hkind : t.kind = .operator binary unary) :
    ∃ l ∈ overlapping, ∀ x, t.HasRole x → x ∈ l := by
  rcases ht binary unary hkind with ⟨op, hop, hvalue, rfl, rfl⟩ | ⟨hword, rfl, rfl⟩
  · exact roles_of_symbol hop hkind hvalue
  · exact roles_of_word hkind hword

/-- A token that is no operator has one role. -/
theorem HasRole.eq_of_not_operator (hkind : ∀ binary unary, t.kind ≠ .operator binary unary)
    (hx : t.HasRole x) (hy : t.HasRole y) : x = y := by
  have hplain {z : Role} (hz : t.HasRole z) : t.plainRole = z := by
    have hnot : ¬ (z = .unary ∨ z = .binary) := by
      intro h
      obtain ⟨binary, unary, hoperator⟩ := hz.exists_operator h
      exact hkind binary unary hoperator
    exact hz.plainRole (fun h => hnot (.inl h)) fun h => hnot (.inr h)
  rw [← hplain hx, hplain hy]

/-- A keyword that is no word operator has no other role. -/
theorem HasRole.eq_keyword (ht : t.IsRegular) (hx : t.HasRole x) (hk : t.isKeyword k = true)
    (hand : k ≠ .AND) (hor : k ≠ .OR) : x = .keyword k := by
  by_cases hkind : ∃ binary unary, t.kind = .operator binary unary
  · obtain ⟨binary, unary, hkind⟩ := hkind
    obtain ⟨l, hl, hroles⟩ := ht.roles hkind
    have hmem := hroles _ (.keyword hk)
    simp only [overlapping, List.mem_cons, List.not_mem_nil, or_false] at hl
    rcases hl with rfl | rfl | rfl | rfl <;> simp [hand, hor] at hmem
  · exact hx.eq_of_not_operator (fun b u h => hkind ⟨b, u, h⟩) (.keyword hk)

theorem IsRegular.isBinary_of_isKeyword (ht : t.IsRegular) (hk : t.isKeyword k = true)
    (hand : k ≠ .AND) (hor : k ≠ .OR) : t.isBinary = false := by
  rw [Bool.eq_false_iff]
  intro hbinary
  cases HasRole.eq_keyword ht (.binary hbinary) hk hand hor

theorem IsRegular.isBinary_of_close (ht : t.IsRegular) (hclose : t.is ")" = true) :
    t.isBinary = false := by
  rw [Bool.eq_false_iff]
  intro hbinary
  obtain ⟨binary, unary, hkind⟩ := HasRole.exists_operator (.binary hbinary) (.inr rfl)
  obtain ⟨l, hl, hroles⟩ := ht.roles hkind
  have hmem := hroles _ (.closing hclose)
  simp only [overlapping, List.mem_cons, List.not_mem_nil, or_false] at hl
  rcases hl with rfl | rfl | rfl | rfl <;> simp at hmem

end Token

namespace Place

variable {p q r : Place} {t : Token} {x y : Role}

/-- Of these roles only one leads anywhere, or all that do lead to the same place. -/
theorem step_overlapping : ∀ l ∈ Token.overlapping, ∀ x ∈ l, ∀ y ∈ l,
    p.step x = none ∨ p.step y = none ∨ p.step x = p.step y := by
  cases p <;> decide

/-- A token leads to one place only, whichever roles it has. -/
theorem step_unique (ht : t.IsRegular) (hx : t.HasRole x) (hy : t.HasRole y)
    (hq : p.step x = some q) (hr : p.step y = some r) : q = r := by
  by_cases hkind : ∃ binary unary, t.kind = .operator binary unary
  · obtain ⟨binary, unary, hkind⟩ := hkind
    obtain ⟨l, hl, hroles⟩ := ht.roles hkind
    have hagree := step_overlapping (p := p) l hl x (hroles x hx) y (hroles y hy)
    rw [hq, hr] at hagree
    rcases hagree with h | h | h
    · cases h
    · cases h
    · exact Option.some.inj h
  · obtain rfl := hx.eq_of_not_operator (fun b u h => hkind ⟨b, u, h⟩) hy
    rw [hq] at hr
    exact Option.some.inj hr

end Place

namespace Parser

variable {p q r : Place} {x y : Stretch} {xs ys : List Stretch} {w : Token}
  {rest rest' : List Token}

/-- A group is closed by one parenthesis only. -/
theorem Group.eq_of_append {g g' : Group} (h : g.tokens ++ rest = g'.tokens ++ rest') : g = g' := by
  obtain ⟨opening, inside, closing, opens, ends, closes⟩ := g
  obtain ⟨opening', inside', closing', opens', ends', closes'⟩ := g'
  simp only [tokens, List.cons_append, List.append_assoc, List.nil_append] at h
  obtain ⟨rfl, hinside⟩ := List.cons.inj h
  have hbalanced := closes rest
  rw [hinside, closes' rest'] at hbalanced
  obtain ⟨rfl, rfl⟩ := Prod.mk.inj (Option.some.inj hbalanced)
  obtain ⟨rfl, -⟩ := List.cons.inj (List.append_cancel_left hinside)
  rfl

/-- Behind its parenthesis a query is not read. -/
theorem not_path_opened (hpath : Place.Path .opened xs q)
    (hxs : xs.flatMap Stretch.tokens = w :: rest)
    (hw : (w.isKeyword .SELECT || w.isKeyword .WITH) = true) (ht : w.IsRegular) : False := by
  obtain ⟨k, hk, hstep, hand, hor, hexists⟩ : ∃ k, w.isKeyword k = true ∧
      Place.opened.step (.keyword k) = none ∧ k ≠ .AND ∧ k ≠ .OR ∧ k ≠ .EXISTS := by
    rcases Bool.or_eq_true_iff.1 hw with hw | hw
    · exact ⟨_, hw, by decide⟩
    · exact ⟨_, hw, by decide⟩
  cases hpath with
  | nil => cases hxs
  | cons hx hpath =>
    cases hx with
    | token hrole hq =>
      obtain ⟨rfl, -⟩ := List.cons.inj hxs
      rw [hrole.eq_keyword ht hk hand hor, hstep] at hq
      cases hq
    | existence word group hword =>
      obtain ⟨rfl, -⟩ := List.cons.inj hxs
      have heq := (Token.HasRole.keyword hword).eq_keyword ht hk hand hor
      exact hexists (Role.keyword.inj heq).symm
    | subquery group hfirst =>
      obtain ⟨rfl, -⟩ := List.cons.inj hxs
      cases (Token.HasRole.opening group.opens).eq_keyword ht hk hand hor

/-- `EXISTS` is not read without its group. -/
theorem not_step_exists {t : Token} {z : Role} (ht : t.IsRegular) (hrole : t.HasRole z)
    (hq : p.step z = some q) (hexists : t.isKeyword .EXISTS = true) (hp : p.startsOperand = true) :
    False := by
  rw [hrole.eq_keyword ht hexists (by decide) (by decide)] at hq
  cases p with
  | operand | base | opened => cases hq
  | _ => cases hp

/-- A parenthesis does not open an operand where its group is passed over. -/
theorem not_token_subquery {t : Token} {z : Role} {g : Group} (ht : t.IsRegular)
    (hg : Expr.startsSubquery g.tokens = true) (hp : (p.startsOperand || p == .target) = true)
    (hrole : t.HasRole z) (hq : p.step z = some q) (hpath : Place.Path q xs r)
    (htokens : t :: xs.flatMap Stretch.tokens = g.tokens ++ rest)
    (hregular : ∀ u ∈ xs.flatMap Stretch.tokens, u.IsRegular) : False := by
  rw [Group.tokens, List.cons_append] at htokens
  obtain ⟨rfl, htail⟩ := List.cons.inj htokens
  have hopened : p.step .opening = some .opened := by
    cases p with
    | operand | base | opened | target => rfl
    | _ => cases hp
  obtain rfl := Place.step_unique ht hrole (.opening g.opens) hq hopened
  obtain ⟨w, more, hinside⟩ := List.exists_cons_of_ne_nil
    (List.append_ne_nil_of_right_ne_nil g.inside (List.cons_ne_nil g.closing []))
  rw [Group.tokens, hinside] at hg
  have hread : xs.flatMap Stretch.tokens = w :: (more ++ rest) := by
    rw [htail, hinside, List.cons_append]
  have hw := (Bool.and_eq_true_iff.1 hg).2
  exact not_path_opened hpath hread hw (hregular w (by rw [hread]; exact List.mem_cons_self))

/-- Two paths through the same tokens start with the same stretch. It is told by its first token,
but for a parenthesis, which starts a group only if a query stands behind it. -/
theorem step_eq {q' r' : Place} (hx : p.Step x q) (hy : p.Step y r) (hxs : Place.Path q xs q')
    (hys : Place.Path r ys r')
    (h : (x :: xs).flatMap Stretch.tokens = (y :: ys).flatMap Stretch.tokens)
    (hregular : ∀ t ∈ (x :: xs).flatMap Stretch.tokens, t.IsRegular) : x = y ∧ q = r := by
  have hregular' := hregular
  rw [h] at hregular'
  rw [List.flatMap_cons, List.forall_mem_append] at hregular hregular'
  rw [List.flatMap_cons, List.flatMap_cons] at h
  cases hx with
  | @token _ t _ hrole hq =>
    have ht : t.IsRegular := hregular.1 t (List.mem_singleton_self t)
    cases hy with
    | token hrole' hr =>
      obtain ⟨rfl, -⟩ := List.cons.inj h
      exact ⟨rfl, Place.step_unique ht hrole hrole' hq hr⟩
    | existence word group hword hp =>
      obtain ⟨rfl, -⟩ := List.cons.inj h
      exact (not_step_exists ht hrole hq hword hp).elim
    | subquery group hfirst hp =>
      exact (not_token_subquery ht hfirst hp hrole hq hxs h hregular.2).elim
  | existence word group hword hp =>
    have ht : word.IsRegular := hregular.1 word List.mem_cons_self
    cases hy with
    | token hrole hr =>
      obtain ⟨rfl, -⟩ := List.cons.inj h
      exact (not_step_exists ht hrole hr hword hp).elim
    | existence word' group' hword' =>
      obtain ⟨rfl, hgroup⟩ := List.cons.inj h
      obtain rfl := Group.eq_of_append hgroup
      exact ⟨rfl, rfl⟩
    | subquery group' hfirst =>
      obtain ⟨rfl, -⟩ := List.cons.inj h
      cases (Token.HasRole.opening group'.opens).eq_keyword ht hword (by decide) (by decide)
  | subquery group hfirst hp =>
    have ht : group.opening.IsRegular := hregular.1 _ List.mem_cons_self
    cases hy with
    | @token _ t _ hrole hr =>
      have ht' : t.IsRegular := hregular'.1 t (List.mem_singleton_self t)
      exact (not_token_subquery ht' hfirst hp hrole hr hys h.symm hregular'.2).elim
    | existence word group' hword =>
      obtain ⟨rfl, -⟩ := List.cons.inj h
      cases (Token.HasRole.opening group.opens).eq_keyword ht hword (by decide) (by decide)
    | subquery group' hfirst' =>
      obtain rfl := Group.eq_of_append h
      exact ⟨rfl, rfl⟩

/-- There is one path through tokens, if any. -/
theorem path_unique (hxs : Place.Path p xs q) (hys : Place.Path p ys r)
    (h : xs.flatMap Stretch.tokens = ys.flatMap Stretch.tokens)
    (hregular : ∀ t ∈ xs.flatMap Stretch.tokens, t.IsRegular) : xs = ys := by
  induction hxs generalizing ys with
  | nil p =>
    cases hys with
    | nil => rfl
    | @cons _ _ _ y =>
      obtain ⟨t, ts, ht⟩ := y.exists_tokens
      rw [List.flatMap_cons, ht] at h
      cases h
  | @cons p q' q x xs hx hpath ih =>
    cases hys with
    | nil =>
      obtain ⟨t, ts, ht⟩ := x.exists_tokens
      rw [List.flatMap_cons, ht] at h
      cases h
    | @cons _ r' _ y ys hy hpath' =>
      obtain ⟨rfl, rfl⟩ := step_eq hx hy hpath hpath' h hregular
      rw [List.flatMap_cons, List.flatMap_cons] at h
      rw [List.flatMap_cons, List.forall_mem_append] at hregular
      rw [ih hpath' (List.append_cancel_left h) hregular.2]

end Parser
end SqliteSchema
