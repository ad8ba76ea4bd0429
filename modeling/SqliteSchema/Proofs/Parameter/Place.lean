import SqliteSchema.Proofs.Parameter.Stretch

/-!
Where an operand of an expression may start, told from the tokens in front of it. This decides
which groups in parentheses are passed over: a group that starts with the first word of a query is
one only where an operand or the right-hand side of an `IN` stands, and so is the group behind
`EXISTS`.
-/
namespace SqliteSchema

/-- What a token is to an expression. Literals, bind parameters and names that are no keywords are
all values. -/
inductive Role
  | opening | closing | comma | point | star | sign
  | unary | binary
  | keyword (k : Keyword)
  | value
  deriving DecidableEq, Repr

/-- A token can have several roles, such as a minus in front of an operand or behind it. -/
inductive Token.HasRole (t : Token) : Role → Prop
  | opening : t.is "(" = true → t.HasRole .opening
  | closing : t.is ")" = true → t.HasRole .closing
  | comma : t.is "," = true → t.HasRole .comma
  | point : t.is "." = true → t.HasRole .point
  | star : t.is "*" = true → t.HasRole .star
  | sign : (t.is "+" || t.is "-") = true → t.HasRole .sign
  | unary : t.isUnary = true → t.HasRole .unary
  | binary : t.isBinary = true → t.HasRole .binary
  | keyword {k : Keyword} : t.isKeyword k = true → t.HasRole (.keyword k)
  | value : (t.isLiteral || t.isParameter || (t.isIdentifier && t.keyword.isNone)) = true →
    t.HasRole .value

/-- Where a reader of an expression stands between two tokens. -/
inductive Place
  | /-- in front of an operand -/ operand
  | /-- behind `CASE` -/ base
  | /-- behind a parenthesis that stands for an operand or behind `IN` -/ opened
  | /-- behind `IN` -/ target
  | /-- behind `OVER` -/ windowed
  | /-- behind `OVER (` -/ window
  | /-- behind a point or `COLLATE` -/ name
  | /-- behind `AS` -/ type
  | /-- behind the parenthesis of a type's sizes -/ size
  | /-- behind an operand, or where no operand starts -/ done
  deriving DecidableEq, Repr

namespace Place

/-- Where a token leads that may start an operand. `EXISTS` is read together with its group. -/
def beforeOperand : Role → Option Place
  | .opening => some opened
  | .unary => some operand
  | .keyword .EXISTS => none
  | .keyword .CASE => some base
  | .keyword .NOT | .keyword .DISTINCT | .keyword .FROM | .keyword .BETWEEN | .keyword .WHERE =>
    some operand
  | .keyword _ | .value | .star | .closing => some done
  | _ => none

/-- Where a token leads that stands behind an operand. -/
def behindOperand : Role → Option Place
  | .opening | .comma | .binary => some operand
  | .keyword .AND | .keyword .OR | .keyword .LIKE | .keyword .GLOB | .keyword .REGEXP
  | .keyword .MATCH | .keyword .IS | .keyword .BETWEEN | .keyword .ESCAPE | .keyword .WHEN
  | .keyword .THEN | .keyword .ELSE | .keyword .BY | .keyword .RANGE | .keyword .ROWS
  | .keyword .GROUPS => some operand
  | .keyword .IN => some target
  | .keyword .OVER => some windowed
  | .keyword .AS => some type
  | .point | .keyword .COLLATE => some name
  | .keyword _ | .closing => some done
  | _ => none

/-- Where a token leads. The first word of a query does not lead anywhere behind a parenthesis,
since its group is passed over as a whole. -/
def step : Place → Role → Option Place
  | base, .keyword .WHEN => some operand
  | opened, .keyword .SELECT | opened, .keyword .WITH => none
  | operand, r | base, r | opened, r => beforeOperand r
  | target, .opening => some opened
  | windowed, .opening => some window
  | window, .keyword .RANGE | window, .keyword .ROWS | window, .keyword .GROUPS => some operand
  | window, .closing => some done
  | target, .keyword _ | windowed, .keyword _ | window, .keyword _ | name, .keyword _ => some done
  | target, .value | windowed, .value | window, .value | name, .value => some done
  | type, .keyword _ | type, .value => some type
  | type, .opening => some size
  | type, .closing | size, .closing => some done
  | size, .value | size, .comma | size, .sign => some size
  | done, r => behindOperand r
  | _, _ => none

def startsOperand (p : Place) : Bool := p matches operand | base | opened

/-- Where a stretch leads. -/
inductive Step : Place → Parser.Stretch → Place → Prop
  | token {p q : Place} {t : Token} {r : Role} :
    t.HasRole r → p.step r = some q → Step p (.token t) q
  | existence {p : Place} (word : Token) (group : Parser.Group)
    (hword : word.isKeyword .EXISTS = true) :
    p.startsOperand = true → Step p (.existence word group hword) done
  | subquery {p : Place} (group : Parser.Group)
    (hfirst : Expr.startsSubquery group.tokens = true) :
    (p.startsOperand || p == target) = true → Step p (.subquery group hfirst) done

/-- Where stretches lead, one after the other. -/
inductive Path : Place → List Parser.Stretch → Place → Prop
  | nil (p : Place) : Path p [] p
  | cons {p q r : Place} {x : Parser.Stretch} {xs : List Parser.Stretch} :
    Step p x q → Path q xs r → Path p (x :: xs) r

variable {p q r : Place} {xs ys : List Parser.Stretch}

theorem Path.trans (h : Path p xs q) (h' : Path q ys r) : Path p (xs ++ ys) r := by
  induction h with
  | nil => exact h'
  | cons hstep _ ih => exact .cons hstep (ih h')

end Place

namespace Token

variable {t : Token} {r : Role}

/-- Marks, operators and keywords are no bind parameters. -/
theorem HasRole.isParameter (h : t.HasRole r) (hr : r ≠ .value) : t.isParameter = false := by
  cases h with
  | opening h | closing h | comma h | point h | star h => exact isParameter_of_is h (by decide)
  | sign h => rcases Bool.or_eq_true_iff.1 h with h | h <;> exact isParameter_of_is h (by decide)
  | unary h =>
    refine isParameter_of_kind fun hkind => ?_
    simp [isUnary, hkind] at h
  | binary h => exact isParameter_of_isBinary h
  | keyword h => exact isParameter_of_isKeyword h
  | value => exact absurd rfl hr

theorem HasRole.of_isLiteral (h : t.isLiteral = true) : t.HasRole .value := .value (by simp [h])

theorem HasRole.of_isParameter (h : t.isParameter = true) : t.HasRole .value := .value (by simp [h])

/-- A name is a keyword or a value. -/
theorem HasRole.of_isIdentifier (h : t.isIdentifier = true) :
    t.HasRole .value ∨ ∃ k, t.keyword = some k ∧ t.HasRole (.keyword k) := by
  cases hk : t.keyword with
  | none => exact .inl (.value (by simp [h, hk]))
  | some k => exact .inr ⟨k, rfl, .keyword (isKeyword_iff_keyword.2 hk)⟩

end Token

/-- The role is that of every token which is spelled so. -/
structure Role.IsMark (x : Role) (symbol : String) : Prop where
  hasRole : ∀ t : Token, t.is symbol = true → t.HasRole x
  ne_value : x ≠ .value

namespace Role.IsMark

theorem opening : IsMark .opening "(" := ⟨fun _ => .opening, nofun⟩

theorem closing : IsMark .closing ")" := ⟨fun _ => .closing, nofun⟩

theorem comma : IsMark .comma "," := ⟨fun _ => .comma, nofun⟩

theorem point : IsMark .point "." := ⟨fun _ => .point, nofun⟩

theorem star : IsMark .star "*" := ⟨fun _ => .star, nofun⟩

end Role.IsMark

namespace Parser

variable {α β : Type} {s t u : ParseState} {p q r : Place}

/-- From one state and place to a later one: the tokens between them are cut into stretches that
lead from place to place, and the parameters are registered that are not passed over. -/
def Walks (p : Place) (s : ParseState) (q : Place) (t : ParseState) : Prop :=
  ∃ read : List Stretch, s.rest = read.flatMap Stretch.tokens ++ t.rest ∧ Place.Path p read q ∧
    s.parameters.registerAll (read.flatMap Stretch.shown) = .ok t.parameters

theorem Walks.passes (h : Walks p s q t) : Passes s t := by
  obtain ⟨read, hrest, -, hregister⟩ := h
  exact ⟨read, hrest, hregister⟩

/-- What holds of the place and the tokens ahead. -/
abbrev Assertion := Place → List Token → Prop

/-- A parser that, where `P` holds, reads along a path, registers the bind parameters outside the
groups that it passes over, and ends where `Q` holds. -/
def Scans (P : Assertion) (f : Parser α) (Q : α → Assertion) : Prop :=
  ∀ p s a t, P p s.rest → f s = .ok a t → ∃ q, Q a q t.rest ∧ Walks p s q t

def At (p : Place) : Assertion := fun q _ => q = p

/-- An operand may start here. -/
def Ready : Assertion := fun p ts =>
  p.startsOperand = true ∧
    ∀ t x, ts.head? = some t → t.HasRole x → p.step x = Place.beforeOperand x

/-- Behind a type name its sizes are closed, or there are none. -/
def Typed : Assertion := fun p _ => p = .type ∨ p = .done

/-- A token in this role leads to the place. -/
def Leads (P : Assertion) (x : Role) (q : Place) : Prop :=
  ∀ p t ts, P p (t :: ts) → t.HasRole x → p.step x = some q

theorem Leads.at {x : Role} (h : p.step x = some q) : Leads (At p) x q := by
  rintro _ t ts rfl -
  exact h

theorem Leads.ready {x : Role} (h : Place.beforeOperand x = some q) : Leads Ready x q :=
  fun _ t _ hp hx => (hp.2 t x rfl hx).trans h

theorem ready_at {ts : List Token} (h : At .operand p ts) : Ready p ts := by
  obtain rfl : p = .operand := h
  exact ⟨rfl, fun _ _ _ _ => rfl⟩

/-- Behind `CASE` an operand may start that is no `WHEN`. -/
theorem ready_base {ts : List Token}
    (h : p = .base ∧ ts.head?.any (·.isKeyword .WHEN) = false) : Ready p ts := by
  obtain ⟨rfl, hwhen⟩ := h
  refine ⟨rfl, fun t x ht hx => ?_⟩
  rw [ht, Option.any_some] at hwhen
  cases hx with
  | @keyword k hk =>
    cases k
    case WHEN => simp [hk] at hwhen
    all_goals rfl
  | _ => rfl

/-- Behind a parenthesis an operand may start that is not the first word of a query. -/
theorem ready_opened {w : Token} {ts : List Token} (hw : w.is "(" = true)
    (h : Expr.startsSubquery (w :: ts) = false) : Ready .opened ts := by
  refine ⟨rfl, fun t x ht hx => ?_⟩
  obtain ⟨ts, rfl⟩ := List.head?_eq_some_iff.1 ht
  simp only [Expr.startsSubquery, hw, Bool.true_and, Bool.or_eq_false_iff] at h
  cases hx with
  | @keyword k hk =>
    cases k
    case SELECT => simp [hk] at h
    case WITH => simp [hk] at h
    all_goals rfl
  | _ => rfl

/-- The token leads to the place, and it is no bind parameter. -/
def TokenLeads (P : Assertion) (g : Token → Bool) (q : Place) : Prop :=
  ∀ p t ts, P p (t :: ts) → g t = true →
    t.isParameter = false ∧ ∃ x, t.HasRole x ∧ p.step x = some q

namespace TokenLeads

variable {P : Assertion} {g : Token → Bool}

theorem of_role {x : Role} (hg : ∀ t, g t = true → t.HasRole x) (hx : x ≠ .value)
    (hq : Leads P x q) : TokenLeads P g q := by
  intro p t ts hp ht
  have hrole := hg t ht
  exact ⟨hrole.isParameter hx, x, hrole, hq p t ts hp hrole⟩

theorem of_keyword {k : Keyword} (hq : Leads P (.keyword k) q) :
    TokenLeads P (·.isKeyword k) q :=
  of_role (fun _ => .keyword) nofun hq

theorem of_mark {x : Role} {symbol : String} (hx : x.IsMark symbol) (hq : Leads P x q) :
    TokenLeads P (·.is symbol) q :=
  of_role hx.hasRole hx.ne_value hq

/-- A name leads to the place, whether it is a keyword or not. -/
theorem of_name (hg : ∀ t, g t = true → t.isIdentifier = true) (hvalue : Leads P .value q)
    (hkeyword : ∀ t k, g t = true → t.keyword = some k → Leads P (.keyword k) q) :
    TokenLeads P g q := by
  intro p t ts hp ht
  refine ⟨Token.isParameter_of_isIdentifier (hg t ht), ?_⟩
  rcases Token.HasRole.of_isIdentifier (hg t ht) with hrole | ⟨k, hk, hrole⟩
  · exact ⟨_, hrole, hvalue p t ts hp hrole⟩
  · exact ⟨_, hrole, hkeyword t k ht hk p t ts hp hrole⟩

end TokenLeads

/-- Any tokens can be read as those of an operand. -/
theorem Scans.collects {P : List Token → Prop} {f : Parser α} {Q : α → Assertion}
    (hf : Scans Ready f Q) : Collects P f := by
  intro s a t _ ha
  obtain ⟨q, -, hwalk⟩ := hf .operand s a t (ready_at rfl) ha
  exact hwalk.passes

end Parser
end SqliteSchema
