import SqliteSchema.Proofs.Parser.Ensures

/-!
Where errors and warnings point. `Points ts held V p` says that `p`, run on tokens of `ts`, returns
a value that satisfies `V` or fails at one of these tokens or where they end, and that it reports
warnings at the tokens that it reads, in their order. It may also report at the tokens `held`, which
were read right before. Warnings that were reported earlier are kept and not looked at, and where no
token is a bind parameter the parameters stay as they are.
-/
namespace SqliteSchema

/-- The error is at one of the tokens, or it says that they ended too early. -/
inductive ParseError.PointsInto (ts : List Token) : ParseError → Prop
  | token {t : Token} (fault : Fault) (ht : t ∈ ts) (hf : fault.code ≠ .unexpectedEndOfInput) :
    PointsInto ts (.atToken fault t)
  | ending (expected : String) : PointsInto ts (.endOfInput expected)

namespace Parser

/-- The warnings are at tokens of the list and stand in the order of the tokens. -/
inductive Noted : List Token → List Warning → Prop
  | nil : Noted [] []
  | skip {t : Token} {ts : List Token} {ws : List Warning} (h : Noted ts ws) : Noted (t :: ts) ws
  | note {t : Token} {ts : List Token} {ws : List Warning} (code : WarningCode) (message : String)
      (h : Noted (t :: ts) ws) : Noted (t :: ts) (.atToken code message t :: ws)

variable {ts us held : List Token} {ws vs : List Warning}

theorem noted_nil (ts : List Token) : Noted ts [] := by
  induction ts with
  | nil => exact .nil
  | cons t ts ih => exact .skip ih

theorem Noted.append (h : Noted ts ws) (h' : Noted us vs) : Noted (ts ++ us) (ws ++ vs) := by
  induction h with
  | nil => exact h'
  | skip _ ih => exact .skip ih
  | note code message _ ih => exact .note code message ih

/-- More reports at the first token. -/
theorem Noted.again {t : Token} (h : Noted [t] ws) (h' : Noted (t :: us) vs) :
    Noted (t :: us) (ws ++ vs) := by
  generalize hts : [t] = ts at h
  induction h with
  | nil => cases hts
  | skip h =>
    cases hts
    cases h
    exact h'
  | note code message _ ih =>
    cases hts
    exact .note code message (ih rfl)

/-- A run that points into `ts`. Its warnings are put behind those that there were before. -/
inductive Pointing {α : Type} (ts held : List Token) (V : α → Prop) (p : Parser α)
    (s : ParseState) : Prop
  | ok {a : α} {t : ParseState} (read : List Token) (hs : s.rest = read ++ t.rest)
      (hrun : ∀ ws, p { s with warnings := ws } = .ok a { t with warnings := ws ++ t.warnings })
      (hnoted : Noted (held ++ read) t.warnings)
      (hparameters : (∀ t ∈ ts, t.isParameter = false) → t.parameters = s.parameters) (hV : V a)
  | error {e : ParseError} {t : ParseState} (read left : List Token) (hs : s.rest = read ++ left)
      (hrun : ∀ ws, p { s with warnings := ws } = .error e { t with warnings := ws ++ t.warnings })
      (hnoted : Noted (held ++ read) t.warnings) (he : e.PointsInto ts)

def Points {α : Type} (ts held : List Token) (V : α → Prop) (p : Parser α) : Prop :=
  ∀ s, s.rest ⊆ ts → Pointing ts held V p s

/-- The parser points into `ts`, whatever it returns. -/
abbrev PointsInto {α : Type} (ts : List Token) (p : Parser α) : Prop :=
  Points ts [] (fun _ => True) p

/-- The parser reads nothing and reports at `t` only. -/
def Notes (t : Token) (p : Parser Unit) : Prop :=
  ∀ s : ParseState, ∃ ws, Noted [t] ws ∧
    ∀ vs, p { s with warnings := vs } = .ok () { s with warnings := vs ++ ws }

namespace Notes

variable {t : Token} {p q : Parser Unit}

theorem pure : Notes t (pure ()) := by
  refine fun s => ⟨[], noted_nil [t], fun vs => ?_⟩
  rw [List.append_nil]
  rfl

theorem warn (code : WarningCode) (message : String) : Notes t (warn code message t) :=
  fun _ => ⟨[.atToken code message t], .note code message (noted_nil [t]), fun _ => rfl⟩

theorem ite {c : Prop} [Decidable c] (h : Notes t p) (h' : Notes t q) :
    Notes t (if c then p else q) := by
  split
  · exact h
  · exact h'

end Notes

namespace Points

variable {α β : Type} {V V' : α → Prop} {U : β → Prop} {p q : Parser α} {f : α → Parser β}
  {t : Token} {test : Token → Bool} {expected : String}

theorem imp (hp : Points ts held V p) (h : ∀ a, V a → V' a) : Points ts held V' p := by
  intro s hs
  cases hp s hs with
  | error read left hsplit hrun hnoted he => exact .error read left hsplit hrun hnoted he
  | ok read hsplit hrun hnoted hparameters hV =>
    exact .ok read hsplit hrun hnoted hparameters (h _ hV)

theorem any (hp : Points ts held V p) : Points ts held (fun _ => True) p :=
  hp.imp fun _ _ => trivial

theorem of_eq_ok (hp : Points ts held V p) {s t : ParseState} {a : α} (hs : s.rest ⊆ ts)
    (h : p s = .ok a t) : V a := by
  cases hp s hs with
  | ok read hsplit hrun hnoted hparameters hV =>
    obtain ⟨rfl, -⟩ := EStateM.Result.ok.inj (h.symm.trans (hrun s.warnings))
    exact hV
  | error read left hsplit hrun hnoted he => cases h.symm.trans (hrun s.warnings)

/-- Parameters come from tokens only. -/
theorem parameters_eq (hp : Points ts held V p) {s t : ParseState} {a : α} (hs : s.rest ⊆ ts)
    (hnone : ∀ t ∈ ts, t.isParameter = false) (h : p s = .ok a t) :
    t.parameters = s.parameters := by
  cases hp s hs with
  | ok read hsplit hrun hnoted hparameters hV =>
    obtain ⟨rfl, rfl⟩ := EStateM.Result.ok.inj (h.symm.trans (hrun s.warnings))
    exact hparameters hnone
  | error read left hsplit hrun hnoted he => cases h.symm.trans (hrun s.warnings)

/-- What is reported does not depend on what was reported before. -/
theorem reported (hp : Points ts held V p) {s t : ParseState} {a : α} (hs : s.rest ⊆ ts)
    (h : p s = .ok a t) : ∃ vs, t.warnings = s.warnings ++ vs ∧
      ∀ ws, p { s with warnings := ws } = .ok a { t with warnings := ws ++ vs } := by
  cases hp s hs with
  | @ok _ u read hsplit hrun hnoted hparameters hV =>
    obtain ⟨rfl, rfl⟩ := EStateM.Result.ok.inj (h.symm.trans (hrun s.warnings))
    exact ⟨u.warnings, rfl, hrun⟩
  | error read left hsplit hrun hnoted he => cases h.symm.trans (hrun s.warnings)

/-- Reporting at a held token is not required. -/
theorem hold (hp : Points ts [] V p) : Points ts held V p := by
  intro s hs
  have hheld {read : List Token} {ws : List Warning} (h : Noted ([] ++ read) ws) :
      Noted (held ++ read) ws := (noted_nil held).append h
  cases hp s hs with
  | error read left hsplit hrun hnoted he => exact .error read left hsplit hrun (hheld hnoted) he
  | ok read hsplit hrun hnoted hparameters hV =>
    exact .ok read hsplit hrun (hheld hnoted) hparameters hV

theorem bind (hp : Points ts held V p) (hf : ∀ a, V a → Points ts [] U (f a)) :
    Points ts held U (p >>= f) := by
  intro s hs
  cases hp s hs with
  | error read left hsplit hrun hnoted he =>
    exact .error read left hsplit (fun ws => by rw [bind_apply, hrun]) hnoted he
  | @ok a t read hsplit hrun hnoted hparameters hV =>
    have ht : t.rest ⊆ ts := fun x hx => hs (hsplit ▸ List.mem_append_right read hx)
    cases hf a hV t ht with
    | @error e u read' left hsplit' hrun' hnoted' he =>
      refine .error (t := { u with warnings := t.warnings ++ u.warnings }) (read ++ read') left ?_
        (fun ws => ?_) ?_ he
      · rw [hsplit, hsplit', List.append_assoc]
      · rw [bind_apply, hrun]
        dsimp only
        rw [hrun', List.append_assoc]
      · rw [← List.append_assoc]
        exact hnoted.append hnoted'
    | @ok b u read' hsplit' hrun' hnoted' hparameters' hU =>
      refine .ok (t := { u with warnings := t.warnings ++ u.warnings }) (read ++ read') ?_
        (fun ws => ?_) ?_ (fun hnone => (hparameters' hnone).trans (hparameters hnone)) hU
      · rw [hsplit, hsplit', List.append_assoc]
      · rw [bind_apply, hrun]
        dsimp only
        rw [hrun', List.append_assoc]
      · rw [← List.append_assoc]
        exact hnoted.append hnoted'

/-- Behind a parser whose value does not matter. -/
theorem seq (hp : Points ts held V p) (hf : ∀ a, Points ts [] U (f a)) :
    Points ts held U (p >>= f) :=
  hp.bind fun a _ => hf a

theorem pure {a : α} (h : V a) : Points ts held V (pure a) := by
  intro s _
  refine .ok (t := { s with warnings := [] }) [] rfl (fun ws => ?_) (noted_nil _) (fun _ => rfl) h
  rw [List.append_nil]
  rfl

theorem fail {e : ParseError} (he : e.PointsInto ts) : Points ts held V (fail e) := by
  intro s _
  refine .error (t := { s with warnings := [] }) [] s.rest rfl (fun ws => ?_) (noted_nil _) he
  rw [List.append_nil]
  rfl

/-- A failure at a token. -/
theorem failAt {fault : Fault} (ht : t ∈ ts) (hf : fault.code ≠ .unexpectedEndOfInput) :
    Points ts held V (Parser.fail (.atToken fault t)) :=
  fail (.token fault ht hf)

theorem unexpected (ht : t ∈ ts) : Points ts held V (Parser.fail (.unexpected expected t)) :=
  failAt ht nofun

theorem ofExcept {r : Except ParseError α} (he : ∀ e, r = .error e → e.PointsInto ts)
    (hV : ∀ a, r = .ok a → V a) : Points ts held V (ofExcept r) := by
  cases r with
  | error e => exact fail (he e rfl)
  | ok a => exact pure (hV a rfl)

theorem ite {c : Prop} [Decidable c] (h : c → Points ts held V p) (h' : ¬c → Points ts held V q) :
    Points ts held V (if c then p else q) := by
  split
  · next hc => exact h hc
  · next hc => exact h' hc

/-! ### The next tokens -/

theorem look {f : List Token → α} (hf : ∀ us, us ⊆ ts → V (f us)) :
    Points ts held V (look f) := by
  intro s hs
  refine .ok (t := { s with warnings := [] }) [] rfl (fun ws => ?_) (noted_nil _) (fun _ => rfl)
    (hf s.rest hs)
  rw [List.append_nil]
  rfl

theorem lookAny {f : List Token → α} : Points ts held (fun _ => True) (Parser.look f) :=
  look fun _ _ => trivial

theorem peek : Points ts held (fun r => ∀ t, r = some t → t ∈ ts) peek :=
  look fun _ hus _ ht => hus (List.mem_of_mem_head? ht)

/-- Reads one token, at which the parser behind it may report too. -/
theorem acceptThen {f : Option Token → Parser β}
    (hsome : ∀ t ∈ ts, test t = true → Points ts [t] U (f (some t)))
    (hnone : Points ts [] U (f none)) : Points ts [] U (accept test >>= f) := by
  intro s hs
  obtain ⟨rest, parameters, warnings⟩ := s
  have hstop (h : ∀ ws, accept test ⟨rest, parameters, ws⟩ = .ok none ⟨rest, parameters, ws⟩) :
      Pointing ts [] U (accept test >>= f) ⟨rest, parameters, warnings⟩ := by
    cases hnone ⟨rest, parameters, warnings⟩ hs with
    | error read left hsplit hrun hnoted he =>
      exact .error read left hsplit (fun ws => by rw [bind_apply, h, ← hrun]) hnoted he
    | ok read hsplit hrun hnoted hparameters hU =>
      exact .ok read hsplit (fun ws => by rw [bind_apply, h, ← hrun]) hnoted hparameters hU
  cases rest with
  | nil => exact hstop fun _ => rfl
  | cons t rest =>
    by_cases ht : test t = true
    · have hnext (ws : List Warning) : accept test ⟨t :: rest, parameters, ws⟩ =
          .ok (some t) ⟨rest, parameters, ws⟩ := by
        simp only [accept, ht, if_true]
      cases hsome t (hs List.mem_cons_self) ht ⟨rest, parameters, warnings⟩
        fun x hx => hs (List.mem_cons_of_mem t hx) with
      | @error e u read left hsplit hrun hnoted he =>
        refine .error (t := u) (t :: read) left (congrArg (t :: ·) hsplit) (fun ws => ?_) hnoted he
        rw [bind_apply, hnext, ← hrun]
      | @ok b u read hsplit hrun hnoted hparameters hU =>
        refine .ok (t := u) (t :: read) (congrArg (t :: ·) hsplit) (fun ws => ?_) hnoted
          hparameters hU
        rw [bind_apply, hnext, ← hrun]
    · refine hstop fun ws => ?_
      simp only [accept, ht, if_false, Bool.false_eq_true]

theorem accept :
    Points ts [] (fun r => ∀ t, r = some t → t ∈ ts ∧ test t = true) (accept test) := by
  have heq : Parser.accept test = Parser.accept test >>= Pure.pure := by
    funext s
    rw [bind_apply]
    cases Parser.accept test s <;> rfl
  rw [heq]
  refine acceptThen (fun t ht htest => pure ?_) (pure nofun)
  rintro _ ⟨⟩
  exact ⟨ht, htest⟩

theorem current : Points ts held (· ∈ ts) (current expected) := by
  intro s hs
  obtain ⟨rest, parameters, warnings⟩ := s
  cases rest with
  | nil =>
    refine .error (t := ⟨[], parameters, []⟩) [] [] rfl (fun ws => ?_) (noted_nil _)
      (.ending expected)
    rw [List.append_nil]
    rfl
  | cons t rest =>
    refine .ok (t := ⟨t :: rest, parameters, []⟩) [] rfl (fun ws => ?_) (noted_nil _)
      (fun _ => rfl) (hs List.mem_cons_self)
    rw [List.append_nil]
    rfl

theorem requireThen {f : Token → Parser β} (h : ∀ t ∈ ts, test t = true → Points ts [t] U (f t)) :
    Points ts [] U (require expected test >>= f) := by
  let refuse : Parser β := Parser.current expected >>= fun t => Parser.fail (.unexpected expected t)
  have heq : (Parser.require expected test >>= f) =
      Parser.accept test >>= fun t => t.elim refuse f := by
    funext s
    obtain ⟨rest, parameters, warnings⟩ := s
    rw [bind_apply, bind_apply]
    cases rest with
    | nil => rfl
    | cons t rest =>
      unfold Parser.require Parser.accept
      by_cases ht : test t = true
      · simp only [ht, if_true]
        rfl
      · simp only [ht]
        rfl
  rw [heq]
  exact acceptThen h (current.bind fun t ht => unexpected ht)

theorem require :
    Points ts [] (fun t => t ∈ ts ∧ test t = true) (require expected test) := by
  have heq : Parser.require expected test = Parser.require expected test >>= Pure.pure := by
    funext s
    rw [bind_apply]
    cases Parser.require expected test s <;> rfl
  rw [heq]
  exact requireThen fun t ht htest => pure ⟨ht, htest⟩

theorem advance : Points ts [] (· ∈ ts) (advance expected) := require.imp fun _ h => h.1

theorem expect {symbol : String} : Points ts [] (· ∈ ts) (expect symbol) :=
  require.imp fun _ h => h.1

theorem expectKeyword {k : Keyword} : Points ts [] (· ∈ ts) (expectKeyword k) :=
  require.imp fun _ h => h.1

theorem expectIdentifier : Points ts [] (· ∈ ts) (expectIdentifier expected) :=
  require.imp fun _ h => h.1

theorem eat {symbol : String} : PointsInto ts (eat symbol) := accept.seq fun _ => pure trivial

theorem eatKeyword {k : Keyword} : PointsInto ts (eatKeyword k) :=
  accept.seq fun _ => pure trivial

theorem eatAnyKeyword {ks : List Keyword} : PointsInto ts (eatAnyKeyword ks) := by
  rw [eatAnyKeyword_eq]
  exact accept.seq fun _ => pure trivial

theorem expectAnyKeyword {ks : List Keyword} : PointsInto ts (expectAnyKeyword ks) := by
  refine current.bind fun t ht => eatAnyKeyword.seq fun k => ?_
  cases k with
  | none => exact unexpected ht
  | some k => exact pure trivial

theorem skipBalanced : PointsInto ts skipBalanced := by
  refine expect.seq fun _ s _ => ?_
  obtain ⟨rest, parameters, warnings⟩ := s
  cases hb : balanced 0 rest with
  | none =>
    refine .error (t := ⟨[], parameters, []⟩) [] rest rfl (fun ws => ?_) (noted_nil _)
      (.ending "')'")
    simp only [hb, List.append_nil]
  | some r =>
    obtain ⟨read, hread⟩ := suffix_of_balanced hb
    refine .ok (a := r.1) (t := ⟨r.2, parameters, []⟩) read hread.symm (fun ws => ?_) (noted_nil _)
      (fun _ => rfl) trivial
    simp only [hb, List.append_nil]

/-! ### Reports -/

/-- Goes on at the same token. -/
theorem notes {p : Parser Unit} {f : Unit → Parser β} (hp : Notes t p)
    (hf : Points ts [t] U (f ())) : Points ts [t] U (p >>= f) := by
  intro s hs
  obtain ⟨ws, hnoted, hnotes⟩ := hp s
  cases hf s hs with
  | @error e u read left hsplit hrun hnoted' he =>
    refine .error (t := { u with warnings := ws ++ u.warnings }) read left hsplit (fun vs => ?_)
      (hnoted.again hnoted') he
    rw [bind_apply, hnotes]
    dsimp only
    rw [hrun, List.append_assoc]
  | @ok b u read hsplit hrun hnoted' hparameters hU =>
    refine .ok (t := { u with warnings := ws ++ u.warnings }) read hsplit (fun vs => ?_)
      (hnoted.again hnoted') hparameters hU
    rw [bind_apply, hnotes]
    dsimp only
    rw [hrun, List.append_assoc]

/-- A report at the held token behind one more token, which is the only one to be read. -/
theorem requireNotes {f : Token → Parser Unit} (hf : ∀ u, Notes t (f u)) :
    Points ts [t] (fun _ => True) (Parser.require expected test >>= f) := by
  intro s hs
  obtain ⟨rest, parameters, warnings⟩ := s
  cases rest with
  | nil =>
    refine .error (t := ⟨[], parameters, []⟩) [] [] rfl (fun ws => ?_) (noted_nil _)
      (.ending expected)
    rw [bind_apply, List.append_nil]
    rfl
  | cons u rest =>
    by_cases hu : test u = true
    · obtain ⟨ws, hnoted, hrun⟩ := hf u ⟨rest, parameters, warnings⟩
      have hnoted' : Noted ([t] ++ [u]) (ws ++ []) := hnoted.append (noted_nil [u])
      rw [List.append_nil] at hnoted'
      refine .ok (a := ()) (t := ⟨rest, parameters, ws⟩) [u] rfl (fun vs => ?_) hnoted'
        (fun _ => rfl) trivial
      rw [bind_apply]
      simp only [Parser.require, hu, if_true]
      exact hrun vs
    · refine .error (t := ⟨u :: rest, parameters, []⟩) [] (u :: rest) rfl (fun ws => ?_)
        (noted_nil _) (.token (.unexpected expected u.value) (hs List.mem_cons_self) nofun)
      rw [bind_apply, List.append_nil]
      simp only [Parser.require, hu, Bool.false_eq_true, if_false]
      rfl

/-! ### Bind parameters -/

theorem register (ht : t ∈ ts) (hparameter : t.isParameter = true) :
    PointsInto ts (register t) := by
  intro s _
  cases hr : s.parameters.register t.value with
  | error fault =>
    have hcode : (Fault.parameter fault).code ≠ .unexpectedEndOfInput := by
      cases fault <;> nofun
    refine .error (t := { s with warnings := [] }) [] s.rest rfl (fun ws => ?_) (noted_nil _)
      (.token (.parameter fault) ht hcode)
    unfold Parser.register
    simp only [hr, List.append_nil]
  | ok r =>
    refine .ok (a := r.1) (t := ⟨s.rest, r.2, []⟩) [] rfl (fun ws => ?_) (noted_nil _)
      (fun hnone => ?_) trivial
    · unfold Parser.register
      simp only [hr, List.append_nil]
    · exact absurd hparameter (Bool.eq_false_iff.1 (hnone t ht))

/-! ### Loops -/

theorem loop {round : α → Parser (Option α)}
    (h : ∀ a, V a → Points ts [] (fun r => ∀ b, r = some b → V b) (round a)) {a : α} (ha : V a) :
    Points ts [] V (loop round a) := by
  intro s
  induction hn : s.rest.length using Nat.strongRecOn generalizing s a with
  | ind n ih =>
    intro hs
    cases h a ha s hs with
    | error read left hsplit hrun hnoted he =>
      exact .error read left hsplit (fun ws => by rw [Parser.loop, hrun]) hnoted he
    | @ok r t read hsplit hrun hnoted hparameters hV =>
      cases r with
      | none =>
        exact .ok read hsplit (fun ws => by rw [Parser.loop, hrun]) hnoted hparameters ha
      | some b =>
        have hb : V b := hV b rfl
        by_cases hl : t.rest.length < s.rest.length
        · have hnext (ws : List Warning) : Parser.loop round a { s with warnings := ws } =
              Parser.loop round b { t with warnings := ws ++ t.warnings } := by
            rw [Parser.loop, hrun]
            simp only [hl, if_true]
          have ht : t.rest ⊆ ts := fun x hx => hs (hsplit ▸ List.mem_append_right read hx)
          cases ih _ (hn ▸ hl) hb t rfl ht with
          | @error e u read' left hsplit' hrun' hnoted' he =>
            refine .error (t := { u with warnings := t.warnings ++ u.warnings }) (read ++ read')
              left ?_ (fun ws => ?_) (hnoted.append hnoted') he
            · rw [hsplit, hsplit', List.append_assoc]
            · rw [hnext, hrun', List.append_assoc]
          | @ok c u read' hsplit' hrun' hnoted' hparameters' hV' =>
            refine .ok (t := { u with warnings := t.warnings ++ u.warnings }) (read ++ read') ?_
              (fun ws => ?_) (hnoted.append hnoted')
              (fun hnone => (hparameters' hnone).trans (hparameters hnone)) hV'
            · rw [hsplit, hsplit', List.append_assoc]
            · rw [hnext, hrun', List.append_assoc]
        · refine .ok read hsplit (fun ws => ?_) hnoted hparameters hb
          rw [Parser.loop, hrun]
          simp only [hl, if_false]

theorem separated (hp : Points ts [] V p) :
    Points ts [] (fun items => ∀ a ∈ items, V a) (separated p) := by
  refine hp.bind fun a ha => loop (fun items hitems => eat.seq fun _ => ?_) (by simpa using ha)
  refine .ite (fun _ => hp.bind fun b hb => pure ?_) fun _ => pure nofun
  rintro _ ⟨⟩ c hc
  rcases List.mem_append.1 hc with hc | hc
  · exact hitems c hc
  · exact List.mem_singleton.1 hc ▸ hb

/-! ### Values and type names -/

theorem literalValue : PointsInto ts literalValue := accept.any

theorem signedNumber : PointsInto ts signedNumber := by
  refine accept.seq fun sign => ?_
  cases sign with
  | some sign => exact require.seq fun _ => pure trivial
  | none => exact accept.seq fun _ => pure trivial

theorem typeSize : PointsInto ts typeSize := by
  refine signedNumber.seq fun number => ?_
  cases number with
  | some number => exact pure trivial
  | none => exact current.bind fun t ht => unexpected ht

theorem typeSizes : PointsInto ts typeSizes :=
  eat.seq fun _ => .ite
    (fun _ => typeSize.seq fun _ => eat.seq fun _ => .ite
      (fun _ => typeSize.seq fun _ => expect.seq fun _ => pure trivial)
      (fun _ => expect.seq fun _ => pure trivial))
    (fun _ => pure trivial)

theorem typeName : PointsInto ts typeName :=
  (loop (V := fun _ => True) (fun _ _ => accept.seq fun _ => pure fun _ _ => trivial) trivial).seq
    fun _ => .ite (fun _ => pure trivial) fun _ => typeSizes.seq fun _ => pure trivial

/-- All remarks on a collation are at its name. -/
theorem collation {affinity : Option Affinity} : PointsInto ts (collation affinity) := by
  refine requireThen fun t _ _ => notes (.ite .pure (.warn _ _)) (notes ?_ (pure trivial))
  unfold warnNotText
  split
  · exact .pure
  · exact .warn _ _
  · exact .pure

end Points

end Parser

end SqliteSchema
