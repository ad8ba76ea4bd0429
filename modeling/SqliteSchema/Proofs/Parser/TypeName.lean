import SqliteSchema.Proofs.Lexeme.Rejoined
import SqliteSchema.Proofs.Parser.Ensures
import SqliteSchema.Proofs.Parser.Reads

/-!
Type names are normal forms. The text of a type is put together from the words and sizes that are
read, so that it has tokens of its own, and these are read as the same type.
-/
namespace SqliteSchema.Parser

open Token

variable {s t u : ParseState} {as bs words : List Token} {w b : Token} {a sizes type : String}
  {tail : List Char} {ns : List Note}

/-- A number, and the sign in front of it. -/
inductive SpellsSize : List Token → String → Prop
  | plain {number : Token} (h : number.kind = .number) : SpellsSize [number] number.value
  | signed {sign number : Token} (hs : sign.is "+" = true ∨ sign.is "-" = true)
    (h : number.kind = .number) : SpellsSize [sign, number] (sign.value ++ number.value)

/-- One or two sizes in parentheses, or none. -/
inductive SpellsSizes : List Token → String → Prop
  | none : SpellsSizes [] ""
  | one {o c : Token} {as : List Token} {a : String} (ho : o.is "(" = true)
    (ha : SpellsSize as a) (hc : c.is ")" = true) : SpellsSizes (o :: as ++ [c]) s!"({a})"
  | two {o comma c : Token} {as bs : List Token} {a b : String} (ho : o.is "(" = true)
    (ha : SpellsSize as a) (hcomma : comma.is "," = true) (hb : SpellsSize bs b)
    (hc : c.is ")" = true) : SpellsSizes (o :: as ++ comma :: bs ++ [c]) s!"({a},{b})"

/-- The words of a type, and its sizes behind them. -/
inductive SpellsType : List Token → String → Prop
  | intro {words as : List Token} {sizes : String} (hne : words ≠ [])
    (hw : ∀ w ∈ words, isTypeWord w = true) (h : SpellsSizes as sizes) :
    SpellsType (words ++ as) (" ".intercalate (words.map (·.value)) ++ sizes)

/-! ### What is read -/

/-- These tokens are read between two states, and nothing else changes. -/
def Consumes (s : ParseState) (as : List Token) (t : ParseState) : Prop :=
  s = { t with rest := as ++ t.rest }

theorem Consumes.refl (s : ParseState) : Consumes s [] s := rfl

theorem Consumes.trans (h : Consumes s as t) (h' : Consumes t bs u) : Consumes s (as ++ bs) u := by
  unfold Consumes at h h' ⊢
  subst h'
  rw [h, List.append_assoc]

theorem Consumes.token (hrest : s.rest = w :: t.rest) (ht : t = { s with rest := t.rest }) :
    Consumes s [w] t := by
  unfold Consumes
  rw [ht, List.singleton_append, ← hrest]

theorem signedNumber_eq_ok (h : signedNumber s = .ok (some a) t) :
    ∃ as, Consumes s as t ∧ SpellsSize as a := by
  obtain ⟨r, u, hsign, hnumber⟩ := bind_eq_ok h
  cases r with
  | some sign =>
    obtain ⟨number, v, hrequire, hv⟩ := bind_eq_ok hnumber
    cases hv
    obtain ⟨hrest, hsymbol, hu⟩ := accept_eq_some hsign
    obtain ⟨hurest, hkind, ht⟩ := require_eq_ok hrequire
    exact ⟨_, (Consumes.token hrest hu).trans (.token hurest ht),
      .signed (Bool.or_eq_true_iff.1 hsymbol) (eq_of_beq hkind)⟩
  | none =>
    obtain rfl := accept_eq_none hsign
    obtain ⟨r, v, haccept, hv⟩ := bind_eq_ok hnumber
    cases r with
    | none => cases hv
    | some number =>
      cases hv
      obtain ⟨hrest, hkind, ht⟩ := accept_eq_some haccept
      exact ⟨_, .token hrest ht, .plain (eq_of_beq hkind)⟩

theorem typeSize_eq_ok (h : typeSize s = .ok a t) : ∃ as, Consumes s as t ∧ SpellsSize as a := by
  obtain ⟨r, u, hsigned, hend⟩ := bind_eq_ok h
  cases r with
  | some number =>
    cases hend
    exact signedNumber_eq_ok hsigned
  | none =>
    obtain ⟨w, v, -, hfail⟩ := bind_eq_ok hend
    cases hfail

theorem typeSizes_eq_ok (h : typeSizes s = .ok sizes t) :
    ∃ as, Consumes s as t ∧ SpellsSizes as sizes := by
  obtain ⟨opened, u, hopen, hinside⟩ := bind_eq_ok h
  cases opened with
  | false =>
    obtain rfl := eat_eq_false hopen
    cases hinside
    exact ⟨[], .refl _, .none⟩
  | true =>
    obtain ⟨o, hrest, ho, hu⟩ := eat_eq_true hopen
    obtain ⟨a, v, hfirst, hmore⟩ := bind_eq_ok hinside
    obtain ⟨as, has, ha⟩ := typeSize_eq_ok hfirst
    obtain ⟨second, x, hcomma, hclosing⟩ := bind_eq_ok hmore
    have hfront := (Consumes.token hrest hu).trans has
    cases second with
    | false =>
      obtain rfl := eat_eq_false hcomma
      obtain ⟨c, y, hexpect, hy⟩ := bind_eq_ok hclosing
      cases hy
      obtain ⟨hxrest, hc, ht⟩ := require_eq_ok hexpect
      exact ⟨_, hfront.trans (.token hxrest ht), .one ho ha hc⟩
    | true =>
      obtain ⟨comma, hvrest, hcomma, hx⟩ := eat_eq_true hcomma
      obtain ⟨b, y, hsecond, hend⟩ := bind_eq_ok hclosing
      obtain ⟨bs, hbs, hb⟩ := typeSize_eq_ok hsecond
      obtain ⟨c, z, hexpect, hz⟩ := bind_eq_ok hend
      cases hz
      obtain ⟨hyrest, hc, ht⟩ := require_eq_ok hexpect
      refine ⟨_, ((hfront.trans (.token hvrest hx)).trans hbs).trans (.token hyrest ht), ?_⟩
      rw [List.append_assoc _ _ bs]
      exact .two ho ha hcomma hb hc

theorem typeName_eq_ok (h : typeName s = .ok (some type) t) :
    ∃ as, Consumes s as t ∧ SpellsType as type := by
  obtain ⟨values, u, hloop, hbehind⟩ := bind_eq_ok h
  -- The loop returns the texts of the words that it has read.
  have hinvariant : ∃ words, Consumes s words u ∧ (∀ w ∈ words, isTypeWord w = true) ∧
      values = words.map (·.value) := by
    refine loop_invariant (I := fun values u => ∃ words, Consumes s words u ∧
      (∀ w ∈ words, isTypeWord w = true) ∧ values = words.map (·.value)) ?_ ?_
      ⟨[], .refl s, nofun, rfl⟩ hloop
    · rintro values u v hwords hround
      obtain ⟨r, x, haccept, hx⟩ := bind_eq_ok hround
      cases r with
      | none =>
        cases hx
        exact accept_eq_none haccept ▸ hwords
      | some w => cases hx
    · rintro values more u v ⟨words, hconsumes, hw, rfl⟩ hround
      obtain ⟨r, x, haccept, hx⟩ := bind_eq_ok hround
      cases r with
      | none => cases hx
      | some w =>
        cases hx
        obtain ⟨hrest, hword, hv⟩ := accept_eq_some haccept
        refine ⟨words ++ [w], hconsumes.trans (.token hrest hv), fun v hv => ?_, by simp⟩
        rcases List.mem_append.1 hv with hv | hv
        · exact hw v hv
        · exact List.mem_singleton.1 hv ▸ hword
  obtain ⟨words, hwords, hw, rfl⟩ := hinvariant
  split at hbehind
  · cases hbehind
  · next hempty =>
    obtain ⟨sizes, v, hsizes, hv⟩ := bind_eq_ok hbehind
    cases hv
    obtain ⟨as, has, hspelled⟩ := typeSizes_eq_ok hsizes
    refine ⟨_, hwords.trans has, .intro ?_ hw hspelled⟩
    rintro rfl
    exact hempty rfl

/-! ### What is read again -/

theorem isTypeWord_of_is_open (h : w.is "(" = true) : isTypeWord w = false := by
  have hvalue := value_of_is h
  have hid : w.isIdentifier = false := by
    rw [isIdentifier, isQuoted, hvalue]
    have hinside : Literal.Quoted.inside? "(".toList = none := rfl
    have hstarts : "(".toList.head?.any startsWord = false := by decide
    rw [hinside, hstarts, Option.isSome_none, Bool.and_false, Bool.or_false, Bool.and_false]
  rw [isTypeWord, hid, Bool.false_and]

theorem reads_size (h : SpellsSize as a) : Reads typeSize ⟨as ++ bs, ns⟩ (· = a) ⟨bs, ns⟩ := by
  have hsigned : Reads signedNumber ⟨as ++ bs, ns⟩ (· = some a) ⟨bs, ns⟩ := by
    cases h with
    | @plain number hkind =>
      have hsign : (number.is "+" || number.is "-") = false := by
        have hliteral : number.isLiteral = true := by rw [isLiteral, hkind]
        rw [is_of_isLiteral hliteral, is_of_isLiteral hliteral, Bool.or_false]
      have hnumber : (number.kind == .number) = true := beq_iff_eq.2 hkind
      refine (Reads.accept_not (fun _ => rfl) hsign).seq ?_
      refine (Reads.accept (fun _ => rfl) hnumber).bind ?_
      rintro _ ⟨t, rfl, rfl⟩
      exact .pure rfl
    | @signed sign number hsign hkind =>
      have hnumber : (number.kind == .number) = true := beq_iff_eq.2 hkind
      refine (Reads.accept (fun _ => rfl) (Bool.or_eq_true_iff.2 hsign)).bind ?_
      rintro _ ⟨t, rfl, rfl⟩
      refine (Reads.require (fun _ => rfl) hnumber).bind ?_
      rintro u rfl
      exact .pure rfl
  exact hsigned.seq (.pure rfl)

theorem reads_sizes (h : SpellsSizes as sizes) (hb : ∀ b ∈ bs.head?, b.is "(" = false) :
    Reads typeSizes ⟨as ++ bs, ns⟩ (· = sizes) ⟨bs, ns⟩ := by
  cases h with
  | none => exact (Reads.eat_none hb).seq (.pure rfl)
  | @one o c as a ho ha hc =>
    have hnot : c.is "," = false := is_of_is hc
    rw [List.append_assoc, List.cons_append]
    refine (Reads.eat ho).seq ((reads_size ha).seq ?_)
    exact (Reads.eat_not hnot).seq ((Reads.expect hc).bind fun _ _ => .pure rfl)
  | @two o comma c as bs a b ho ha hcomma hb hc =>
    rw [List.append_assoc, List.append_assoc, List.cons_append, List.cons_append]
    refine (Reads.eat ho).seq ((reads_size ha).seq ?_)
    refine (Reads.eat hcomma).seq ((reads_size hb).seq ?_)
    exact (Reads.expect hc).bind fun _ _ => .pure rfl

/-- The words of a type are read up to a token that is none. -/
theorem reads_typeWords (done : List String) (hw : ∀ w ∈ words, isTypeWord w = true)
    (hb : ∀ b ∈ bs.head?, isTypeWord b = false) :
    Reads (loop (fun words => do return (← accept isTypeWord).map fun t => words ++ [t.value]) done)
      ⟨words ++ bs, ns⟩ (· = done ++ words.map (·.value)) ⟨bs, ns⟩ := by
  induction words generalizing done with
  | nil =>
    refine .loop_stop ((Reads.accept_none (fun _ => rfl) hb).seq (.pure rfl)) ?_
    rw [List.map_nil, List.append_nil]
  | cons w words ih =>
    rw [List.forall_mem_cons] at hw
    refine .loop_next (P := (· = done ++ [w.value]))
      ((Reads.accept (fun _ => rfl) hw.1).bind fun _ ⟨t, ht, hat⟩ => .pure ?_) ?_ ?_
    · exact ⟨done ++ [w.value], by rw [ht, ← hat]; rfl, rfl⟩
    · simp
    · rintro _ rfl
      have hrest := ih (done ++ [w.value]) hw.2
      rwa [List.append_assoc] at hrest

/-- A type is read up to a token with which it cannot go on. -/
theorem SpellsType.reads (h : SpellsType as type)
    (hb : ∀ b ∈ bs.head?, isTypeWord b = false ∧ b.is "(" = false) :
    Reads typeName ⟨as ++ bs, ns⟩ (· = some type) ⟨bs, ns⟩ := by
  obtain @⟨words, as, sizes, hne, hw, hsizes⟩ := h
  have hend : ∀ b ∈ (as ++ bs).head?, isTypeWord b = false := by
    cases hsizes with
    | none => exact fun b h => (hb b h).1
    | one ho => rintro _ ⟨⟩; exact isTypeWord_of_is_open ho
    | two ho => rintro _ ⟨⟩; exact isTypeWord_of_is_open ho
  rw [List.append_assoc]
  refine (reads_typeWords [] hw hend).seq ?_
  rw [List.nil_append, if_neg (by simpa using hne)]
  exact (reads_sizes hsizes fun b h => (hb b h).2).seq (.pure rfl)

/-- Tokens that spell a type and nothing else, wherever they stand. -/
theorem SpellsType.typeName_eq (h : SpellsType (as.map atStart) type) (ps : Parameters)
    (ws : List Warning) : typeName ⟨as, ps, ws⟩ = .ok (some type) ⟨[], ps, ws⟩ := by
  have hview : view ⟨as, ps, ws⟩ = ⟨as.map atStart ++ [], (view ⟨as, ps, ws⟩).notes⟩ := by
    rw [List.append_nil]
    rfl
  obtain ⟨r, t, hrun, rfl, -, hend⟩ := h.reads (by simp) ⟨as, ps, ws⟩ hview
  have hrest : t.rest = [] := List.map_eq_nil_iff.1 (congrArg View.ahead hend)
  obtain ⟨bs, hbs, -⟩ := typeName_eq_ok hrun
  have hparameters : ps = t.parameters := congrArg ParseState.parameters hbs
  have hwarnings : ws = t.warnings := congrArg ParseState.warnings hbs
  rw [hrun, hparameters, hwarnings, ← hrest]

/-! ### The text of a type -/

/-- A size is cut into its tokens in front of anything that ends it. -/
theorem SpellsSize.rejoined (h : SpellsSize as a) (hnumber : ∀ w ∈ as, w.kind = .number → w.Rereads)
    (ht : Lexeme.Ended tail) (htail : Rejoined tail bs) :
    ∃ as', SpellsSize as' a ∧ Rejoined (a.toList ++ tail) (as' ++ bs) := by
  cases h with
  | @plain number hkind =>
    have hread := hnumber number (List.mem_singleton_self _) hkind
    exact ⟨[number.atStart], .plain hkind, .token (hread tail ht) htail⟩
  | @signed sign number hsign hkind =>
    have hread := hnumber number (by simp) hkind tail ht
    have hrest := Rejoined.token hread htail
    obtain ⟨d, us, hvalue, hnumeral⟩ := hread
    rw [hkind] at hnumeral
    obtain ⟨hstart, -⟩ := Lexeme.readAs_of_read hnumeral
    obtain ⟨c, hc, hsigned⟩ : ∃ c, (c = '+' ∨ c = '-') ∧ sign.value = String.ofList [c] :=
      hsign.elim (fun h => ⟨'+', .inl rfl, value_of_is h⟩) fun h => ⟨'-', .inr rfl, value_of_is h⟩
    -- The sign has become an operator of its own here, whatever kind it had.
    have hbefore : ReadBefore ⟨sign.value, .operator true true, .start⟩
        (number.value.toList ++ tail) := by
      refine ⟨c, [], by rw [hsigned, String.toList_ofList], ?_⟩
      rw [hvalue]
      exact Lexeme.read_sign hc hstart
    refine ⟨[⟨sign.value, .operator true true, .start⟩, number.atStart],
      .signed (hsign.imp ?_ ?_) hkind, ?_⟩
    · intro h
      rw [Token.is, value_of_is h]
      rfl
    · intro h
      rw [Token.is, value_of_is h]
      rfl
    · rw [String.toList_append, List.append_assoc]
      exact .token hbefore hrest

theorem SpellsSizes.rejoined (h : SpellsSizes as sizes)
    (hnumber : ∀ w ∈ as, w.kind = .number → w.Rereads) :
    ∃ as', SpellsSizes as' sizes ∧ Rejoined sizes.toList as' ∧ Lexeme.Ended sizes.toList := by
  have hcomma : ',' ∈ Lexeme.punctuation := by decide
  have hclose : ')' ∈ Lexeme.punctuation := by decide
  have hopen : '(' ∈ Lexeme.punctuation := by decide
  have hend : Rejoined [')'] [ofMark ')'] := .token (readBefore_ofMark hclose []) .nil
  cases h with
  | none => exact ⟨[], .none, .nil, by simp [Lexeme.Ended]⟩
  | @one o c as a ho ha hc =>
    obtain ⟨as', ha', hrejoined⟩ :=
      ha.rejoined (fun w hw => hnumber w (by simp [hw])) (Lexeme.ended_mark hclose []) hend
    have htext : s!"({a})".toList = '(' :: (a.toList ++ [')']) := by
      simp [toString]
    rw [htext]
    exact ⟨ofMark '(' :: as' ++ [ofMark ')'], .one (by decide) ha' (by decide),
      .token (readBefore_ofMark hopen _) hrejoined, Lexeme.ended_mark hopen _⟩
  | @two o comma c as bs a b ho ha hc hb hc' =>
    obtain ⟨bs', hb', hsecond⟩ :=
      hb.rejoined (fun w hw => hnumber w (by simp [hw])) (Lexeme.ended_mark hclose []) hend
    obtain ⟨as', ha', hfirst⟩ :=
      ha.rejoined (fun w hw => hnumber w (by simp [hw])) (Lexeme.ended_mark hcomma _)
        (.token (readBefore_ofMark hcomma _) hsecond)
    have htext : s!"({a},{b})".toList = '(' :: (a.toList ++ ',' :: (b.toList ++ [')'])) := by
      simp [toString]
    rw [htext]
    refine ⟨ofMark '(' :: as' ++ ofMark ',' :: bs' ++ [ofMark ')'],
      .two (by decide) ha' (by decide) hb' (by decide), ?_, Lexeme.ended_mark hopen _⟩
    rw [List.append_assoc]
    exact .token (readBefore_ofMark hopen _) hfirst

theorem rejoined_words {cs : List Char} (hne : words ≠ []) (hw : ∀ w ∈ words, w.Rereads)
    (hcs : Lexeme.Ended cs) (h : Rejoined cs as) :
    Rejoined ((" ".intercalate (words.map (·.value))).toList ++ cs)
      (words.map atStart ++ as) := by
  induction words with
  | nil => exact absurd rfl hne
  | cons w words ih =>
    rw [List.forall_mem_cons] at hw
    cases words with
    | nil =>
      rw [List.map_singleton, String.intercalate_singleton]
      exact .token (hw.1 _ hcs) h
    | cons v words =>
      rw [List.map_cons, List.map_cons, String.intercalate_cons_cons, String.toList_append,
        String.toList_append, List.append_assoc, List.append_assoc]
      refine .token (hw.1 _ ?_) (.space (ih (List.cons_ne_nil _ _) hw.2))
      rintro d ⟨⟩
      exact .inl (by decide)

/-- The text of a type is cut into tokens that spell the type. -/
theorem SpellsType.rejoined (h : SpellsType as type)
    (hnumber : ∀ w ∈ as, w.kind = .number → w.Rereads)
    (hword : ∀ w ∈ as, isTypeWord w = true → w.Rereads) :
    ∃ as', SpellsType as' type ∧ Rejoined type.toList as' := by
  obtain @⟨words, as, sizes, hne, hw, hsizes⟩ := h
  obtain ⟨as', hspelled, hrejoined, hended⟩ :=
    hsizes.rejoined fun w hw => hnumber w (List.mem_append_right _ hw)
  have hvalues : (words.map atStart).map (·.value) = words.map (·.value) := by
    rw [List.map_map]
    rfl
  refine ⟨words.map atStart ++ as', ?_, ?_⟩
  · rw [← hvalues]
    refine .intro (by simpa using hne) (fun w hmem => ?_) hspelled
    obtain ⟨v, hv, rfl⟩ := List.mem_map.1 hmem
    exact hw v hv
  · rw [String.toList_append]
    exact rejoined_words hne
      (fun w hmem => hword w (List.mem_append_left _ hmem) (hw w hmem)) hended hrejoined

/-- A type that is read from the tokens of a text has a text of its own. If none of its words is
spelled like a word operator, this text has tokens, and all of them are read as the same type. -/
theorem typeName_normal {text : String} {ts read : List Token} (h : tokenize text = .ok ts)
    (hs : s.rest <:+ ts) (hrun : typeName s = .ok (some type) t) (hread : s.rest = read ++ t.rest)
    (hwords : ∀ w ∈ read, isTypeWord w = true → w.value.toLower ∉ Lexeme.Operator.words) :
    ∃ us, tokenize type = .ok us ∧
      ∀ ps ws, typeName ⟨us, ps, ws⟩ = .ok (some type) ⟨[], ps, ws⟩ := by
  obtain ⟨as, hconsumes, hspelled⟩ := typeName_eq_ok hrun
  obtain rfl : as = read := by
    have hrest := congrArg ParseState.rest hconsumes
    exact List.append_cancel_right (hrest.symm.trans hread)
  have hmem : ∀ w ∈ as, w ∈ ts := fun w hw =>
    hs.subset (hread ▸ List.mem_append_left _ hw)
  have hnumber : ∀ w ∈ as, w.kind = .number → w.Rereads := fun w hw hkind =>
    rereads_of_stream h w (hmem w hw) (.inr hkind)
  have hword : ∀ w ∈ as, isTypeWord w = true → w.Rereads := fun w hw htype =>
    rereads_of_stream h w (hmem w hw)
      (.inl ⟨(Bool.and_eq_true_iff.1 htype).1, hwords w hw htype⟩)
  obtain ⟨as', hspelled', hrejoined⟩ := hspelled.rejoined hnumber hword
  obtain ⟨us, hus, rfl⟩ := hrejoined.exists_stream .start
  exact ⟨us, hus, hspelled'.typeName_eq⟩

/-- Signs, a word in quotes and a comment behind it, and a word behind the type that is none of
it. -/
theorem typeName_normal_signs :
    let text := "a\"b c\"--\nBig\t(-.5 , + 0x1F)not"
    let type := "\"b c\" Big(-.5,+0x1F)"
    (∃ ts t, tokenize text = .ok ts ∧ typeName { rest := ts.drop 1 } = .ok (some type) t) ∧
      ∃ us, tokenize type = .ok us ∧
        ∀ ps ws, typeName ⟨us, ps, ws⟩ = .ok (some type) ⟨[], ps, ws⟩ := by
  intro text type
  let read : List Token := [⟨"\"b c\"", .other, ⟨1, 0, 1⟩⟩, ⟨"Big", .other, ⟨9, 1, 0⟩⟩,
    ⟨"(", .other, ⟨13, 1, 4⟩⟩, ⟨"-", .operator true true, ⟨14, 1, 5⟩⟩, ⟨".5", .number, ⟨15, 1, 6⟩⟩,
    ⟨",", .other, ⟨18, 1, 9⟩⟩, ⟨"+", .operator true true, ⟨20, 1, 11⟩⟩,
    ⟨"0x1F", .number, ⟨22, 1, 13⟩⟩, ⟨")", .other, ⟨26, 1, 17⟩⟩]
  let behind : Token := ⟨"not", .other, ⟨27, 1, 18⟩⟩
  have htext : tokenize text = .ok (⟨"a", .other, .start⟩ :: (read ++ [behind])) := by
    decide +kernel
  have hrun : typeName { rest := read ++ [behind] } = .ok (some type) { rest := [behind] } :=
    eq_ok_of_success? (by decide +kernel)
  have hwords : ∀ w ∈ read, isTypeWord w = true → w.value.toLower ∉ Lexeme.Operator.words := by
    decide +kernel
  exact ⟨⟨_, _, htext, hrun⟩, typeName_normal htext (List.suffix_cons _ _) hrun rfl hwords⟩

end SqliteSchema.Parser
