import Mathlib.Data.List.Nodup
import SqliteSchema.Parser.Basic

/-!
The numbers of bind parameters. Parameters that are spelled in different ways share one range of
numbers and one set of output names; registrations in any order, failing ones among them, keep both
free of clashes, and a spelling that is not a bare `?` keeps the number that it once got.
-/
namespace SqliteSchema

namespace Parameters

/-- What holds of the parameters of a text at any time. -/
structure Lawful (ps : Parameters) : Prop where
  ascending : ps.entries.Pairwise (·.number < ·.number)
  inRange : ∀ p ∈ ps.entries, 1 ≤ p.number ∧ p.number ≤ Parameter.maximum
  highest_le : ∀ p ∈ ps.entries, p.number ≤ ps.highest
  highest_mem : ps.entries = [] ∧ ps.highest = 0 ∨ ∃ p ∈ ps.entries, p.number = ps.highest
  outputNames : (ps.entries.map (·.outputName)).Nodup
  sqlNames : (ps.entries.filterMap (·.sqlName)).Nodup

variable {ps ps' ps'' : Parameters} {p q : Parameter} {s : String} {n : Nat}

theorem lawful_empty : Lawful {} where
  ascending := .nil
  inRange := nofun
  highest_le := nofun
  highest_mem := .inl ⟨rfl, rfl⟩
  outputNames := .nil
  sqlNames := .nil

/-! ### A new entry -/

theorem perm_insert (ps : Parameters) (p : Parameter) :
    (ps.insert p).entries.Perm (p :: ps.entries) := by
  have h := @List.perm_middle _ p (ps.entries.takeWhile (·.number < p.number))
    (ps.entries.dropWhile (·.number < p.number))
  rwa [List.takeWhile_append_dropWhile] at h

theorem mem_insert : q ∈ (ps.insert p).entries ↔ q = p ∨ q ∈ ps.entries := by
  rw [(perm_insert ps p).mem_iff, List.mem_cons]

theorem sublist_insert (ps : Parameters) (p : Parameter) :
    ps.entries.Sublist (ps.insert p).entries := by
  have h := (List.sublist_cons_self p (ps.entries.dropWhile (·.number < p.number))).append_left
    (ps.entries.takeWhile (·.number < p.number))
  rwa [List.takeWhile_append_dropWhile] at h

theorem length_insert (ps : Parameters) (p : Parameter) :
    (ps.insert p).entries.length = ps.entries.length + 1 :=
  (perm_insert ps p).length_eq

/-- The entries in front of the new one have lower numbers, and those behind it have higher ones if
its number is free. -/
theorem ascending_insert (h : ps.entries.Pairwise (·.number < ·.number))
    (hn : ∀ q ∈ ps.entries, q.number ≠ p.number) :
    (ps.insert p).entries.Pairwise (·.number < ·.number) := by
  obtain ⟨entries, highest⟩ := ps
  induction entries with
  | nil => simp [insert]
  | cons a entries ih =>
    obtain ⟨ha, hs⟩ := List.pairwise_cons.1 h
    have hrest : ∀ q ∈ entries, q.number ≠ p.number :=
      fun q hq => hn q (List.mem_cons_of_mem a hq)
    by_cases hlt : a.number < p.number
    · have htail := ih hs hrest
      have hcons : (insert ⟨a :: entries, highest⟩ p).entries =
          a :: (insert ⟨entries, highest⟩ p).entries := by
        simp [insert, hlt]
      rw [hcons, List.pairwise_cons]
      refine ⟨fun q hq => ?_, htail⟩
      rcases mem_insert.1 hq with rfl | hq
      · exact hlt
      · exact ha q hq
    · have hne := hn a List.mem_cons_self
      have hcons : (insert ⟨a :: entries, highest⟩ p).entries = p :: a :: entries := by
        simp [insert, hlt]
      rw [hcons, List.pairwise_cons]
      refine ⟨fun q hq => ?_, h⟩
      rcases List.mem_cons.1 hq with rfl | hq
      · omega
      · have := ha q hq
        omega

/-- What makes an entry new: its number, its output name and its spelling are free. -/
structure Fresh (ps : Parameters) (p : Parameter) : Prop where
  inRange : 1 ≤ p.number ∧ p.number ≤ Parameter.maximum
  number : ∀ q ∈ ps.entries, q.number ≠ p.number
  outputName : ∀ q ∈ ps.entries, q.outputName ≠ p.outputName
  sqlName : ∀ q ∈ ps.entries, ∀ s, p.sqlName = some s → q.sqlName ≠ some s

theorem Lawful.insert (h : ps.Lawful) (hp : ps.Fresh p) : (ps.insert p).Lawful where
  ascending := ascending_insert h.ascending hp.number
  inRange := by
    intro q hq
    rcases mem_insert.1 hq with rfl | hq
    · exact hp.inRange
    · exact h.inRange q hq
  highest_le := by
    intro q hq
    change q.number ≤ max ps.highest p.number
    rcases mem_insert.1 hq with rfl | hq
    · omega
    · have := h.highest_le q hq
      omega
  highest_mem := by
    right
    change ∃ q ∈ (ps.insert p).entries, q.number = max ps.highest p.number
    rcases Nat.le_total ps.highest p.number with hle | hle
    · exact ⟨p, mem_insert.2 (.inl rfl), by omega⟩
    · rcases h.highest_mem with ⟨-, h0⟩ | ⟨q, hq, hn⟩
      · exact ⟨p, mem_insert.2 (.inl rfl), by omega⟩
      · exact ⟨q, mem_insert.2 (.inr hq), by omega⟩
  outputNames := by
    rw [((perm_insert ps p).map _).nodup_iff, List.map_cons, List.nodup_cons]
    refine ⟨?_, h.outputNames⟩
    intro hm
    obtain ⟨q, hq, he⟩ := List.mem_map.1 hm
    exact hp.outputName q hq he
  sqlNames := by
    rw [((perm_insert ps p).filterMap _).nodup_iff]
    cases hs : p.sqlName with
    | none => simpa [hs] using h.sqlNames
    | some s =>
      rw [List.filterMap_cons_some hs, List.nodup_cons]
      refine ⟨?_, h.sqlNames⟩
      intro hm
      obtain ⟨q, hq, he⟩ := List.mem_filterMap.1 hm
      exact hp.sqlName q hq s hs he

/-! ### Registrations that succeed -/

/-- A registration finds an entry or adds a new one. -/
inductive Registers (ps : Parameters) (n : Nat) : Parameters → Prop
  | found {p : Parameter} (hp : p ∈ ps.entries) (hn : p.number = n) : Registers ps n ps
  | added {p : Parameter} (hp : ps.Lawful → ps.Fresh p) (hn : p.number = n) :
      Registers ps n (ps.insert p)

theorem add_eq_ok (h : ps.add s p = .ok (n, ps')) :
    n = p.number ∧ ps' = ps.insert p ∧ ∀ q ∈ ps.entries, q.outputName ≠ p.outputName := by
  unfold add at h
  split at h
  · cases h
  · next hnone =>
    cases h
    refine ⟨rfl, rfl, fun q hq => ?_⟩
    simpa using List.find?_eq_none.1 hnone q hq

theorem addNext_eq_ok {outputName : Nat → String} {sqlName : Option String}
    (h : ps.addNext s outputName sqlName = .ok (n, ps')) :
    ∃ p, p.number = n ∧ p.outputName = outputName n ∧ p.sqlName = sqlName ∧ ps' = ps.insert p ∧
      ((∀ q ∈ ps.entries, ∀ s, sqlName = some s → q.sqlName ≠ some s) → ps.Lawful →
        ps.Fresh p) := by
  unfold addNext at h
  dsimp only at h
  split at h
  · next hle =>
    obtain ⟨hn, hins, hout⟩ := add_eq_ok h
    refine ⟨_, hn.symm, by rw [hn], rfl, hins, fun hs hl => ?_⟩
    refine ⟨⟨Nat.le_add_left 1 _, hle⟩, fun q hq => ?_, hout, hs⟩
    have := hl.highest_le q hq
    dsimp only
    omega
  · cases h

/-- The digits of a number that a parameter can have. -/
structure Numeral (digits : List Char) : Prop where
  digit : digits.isEmpty = false ∧ digits.all Char.isDigit = true
  inRange : 1 ≤ decimalValue digits ∧ decimalValue digits ≤ Parameter.maximum

theorem addNumbered_of_numeral {digits : List Char} (h : Numeral digits) :
    ps.addNumbered s digits =
      if (ps.find? (decimalValue digits)).isSome then .ok (decimalValue digits, ps)
      else ps.add s ⟨decimalValue digits, numberedName (decimalValue digits), none⟩ := by
  obtain ⟨⟨hne, hall⟩, hpos, hle⟩ := h
  have hsize : ¬ UInt32.size ≤ decimalValue digits := by
    have : Parameter.maximum < UInt32.size := by decide
    omega
  have hzero : decimalValue digits ≠ 0 := by omega
  unfold addNumbered
  simp only [hne, hall, hsize, hzero, Nat.not_lt.2 hle, Bool.not_true, Bool.or_false,
    Bool.false_eq_true, if_false]

theorem numeral_of_addNumbered {digits : List Char} (h : ps.addNumbered s digits = .ok (n, ps')) :
    Numeral digits := by
  unfold addNumbered at h
  dsimp only at h
  split at h
  · cases h
  · next hdigits =>
    split at h
    · cases h
    · split at h
      · cases h
      · next hzero =>
        split at h
        · cases h
        · next hmax =>
          simp only [Bool.or_eq_true, Bool.not_eq_true', not_or, Bool.not_eq_true,
            Bool.not_eq_false] at hdigits
          exact ⟨hdigits, by omega, by omega⟩

theorem find?_isSome_iff : (ps.find? n).isSome = true ↔ ∃ p ∈ ps.entries, p.number = n := by
  simp [find?, List.find?_isSome]

theorem registers_of_addNumbered {digits : List Char}
    (h : ps.addNumbered s digits = .ok (n, ps')) :
    n = decimalValue digits ∧ ps.Registers n ps' := by
  have hd := numeral_of_addNumbered h
  rw [addNumbered_of_numeral hd] at h
  split at h
  · next hfound =>
    cases h
    obtain ⟨p, hp, hn⟩ := find?_isSome_iff.1 hfound
    exact ⟨rfl, .found hp hn⟩
  · next hnone =>
    obtain ⟨rfl, rfl, hout⟩ := add_eq_ok h
    refine ⟨rfl, .added (fun _ => ⟨hd.inRange, fun q hq he => ?_, hout, by simp⟩) rfl⟩
    exact hnone (find?_isSome_iff.2 ⟨q, hq, he⟩)

/-- A named parameter has its spelling afterwards. -/
theorem registers_of_addNamed {name : List Char} (h : ps.addNamed s name = .ok (n, ps')) :
    name.isEmpty = false ∧ ps.Registers n ps' ∧
      ∃ p ∈ ps'.entries, p.sqlName = some s ∧ p.number = n := by
  unfold addNamed at h
  split at h
  · cases h
  · next hname =>
    refine ⟨by simpa using hname, ?_⟩
    split at h
    · next p hp =>
      cases h
      have hmem := List.mem_of_find?_eq_some hp
      exact ⟨.found hmem rfl, p, hmem, by simpa using List.find?_some hp, rfl⟩
    · next hnone =>
      have hfree : ∀ q ∈ ps.entries, ∀ t, some s = some t → q.sqlName ≠ some t := by
        rintro q hq t ⟨⟩
        simpa using List.find?_eq_none.1 hnone q hq
      obtain ⟨p, hn, -, hs, rfl, hp⟩ := addNext_eq_ok h
      exact ⟨.added (hp hfree) hn, p, mem_insert.2 (.inl rfl), hs, hn⟩

theorem registers_of_register (h : ps.register s = .ok (n, ps')) : ps.Registers n ps' := by
  unfold register at h
  split at h
  · obtain ⟨p, hn, -, -, rfl, hp⟩ := addNext_eq_ok h
    exact .added (hp (by simp)) hn
  · exact (registers_of_addNumbered h).2
  · exact (registers_of_addNamed h).2.1

/-- An entry that a registration adds is called after its number or its spelling. -/
theorem outputName_of_register (h : ps.register s = .ok (n, ps')) (hp : p ∈ ps'.entries) :
    p ∈ ps.entries ∨ p.outputName = numberedName p.number ∨
      p.outputName = Name.parameter (String.ofList s.toList.tail) := by
  unfold register at h
  split at h
  · obtain ⟨q, rfl, hname, -, rfl, -⟩ := addNext_eq_ok h
    rcases mem_insert.1 hp with rfl | hp
    · exact .inr (.inl hname)
    · exact .inl hp
  · rw [addNumbered_of_numeral (numeral_of_addNumbered h)] at h
    split at h
    · cases h
      exact .inl hp
    · obtain ⟨-, rfl, -⟩ := add_eq_ok h
      rcases mem_insert.1 hp with rfl | hp
      · exact .inr (.inl rfl)
      · exact .inl hp
  · unfold addNamed at h
    split at h
    · cases h
    · split at h
      · cases h
        exact .inl hp
      · obtain ⟨q, -, hname, -, rfl, -⟩ := addNext_eq_ok h
        rcases mem_insert.1 hp with rfl | hp
        · exact .inr (.inr hname)
        · exact .inl hp

theorem Registers.lawful (h : ps.Registers n ps') (hl : ps.Lawful) : ps'.Lawful := by
  cases h with
  | found => exact hl
  | added hp => exact hl.insert (hp hl)

theorem Registers.mem (h : ps.Registers n ps') : ∃ p ∈ ps'.entries, p.number = n := by
  cases h with
  | found hp hn => exact ⟨_, hp, hn⟩
  | added _ hn => exact ⟨_, mem_insert.2 (.inl rfl), hn⟩

theorem Registers.sublist (h : ps.Registers n ps') : ps.entries.Sublist ps'.entries := by
  cases h with
  | found => exact List.Sublist.refl _
  | added => exact sublist_insert ps _

theorem Registers.length_le (h : ps.Registers n ps') :
    ps'.entries.length ≤ ps.entries.length + 1 := by
  cases h with
  | found => omega
  | added => exact Nat.le_of_eq (length_insert ps _)

/-! ### Spellings that are known -/

/-- No two entries have one spelling. -/
theorem Lawful.eq_of_sqlName (h : ps.Lawful) (hp : p ∈ ps.entries) (hq : q ∈ ps.entries)
    (hs : p.sqlName = some s) (hs' : q.sqlName = some s) : p = q := by
  have hnodup := h.sqlNames
  generalize ps.entries = entries at hp hq hnodup
  induction entries with
  | nil => cases hp
  | cons a l ih =>
    have hmem {r : Parameter} (hr : r ∈ l) (hrs : r.sqlName = some s) : a.sqlName ≠ some s := by
      intro ha
      rw [List.filterMap_cons_some ha, List.nodup_cons] at hnodup
      exact hnodup.1 (List.mem_filterMap.2 ⟨r, hr, hrs⟩)
    rcases List.mem_cons.1 hp with rfl | hpl <;> rcases List.mem_cons.1 hq with rfl | hql
    · rfl
    · exact absurd hs (hmem hql hs')
    · exact absurd hs' (hmem hpl hs)
    · exact ih hpl hql (hnodup.sublist ((List.sublist_cons_self a l).filterMap _))

/-- A spelling with a number or a name of its own is found again wherever its entry is kept. -/
theorem register_again (h : ps.register s = .ok (n, ps')) (hs : s ≠ "?")
    (hl : ps''.Lawful) (hsub : ps'.entries ⊆ ps''.entries) : ps''.register s = .ok (n, ps'') := by
  unfold register at h ⊢
  split at h
  · next hq => exact absurd (String.toList_inj.1 hq) hs
  · next digits _ hd =>
    have hnumeral := numeral_of_addNumbered h
    obtain ⟨rfl, hr⟩ := registers_of_addNumbered h
    obtain ⟨p, hp, hn⟩ := hr.mem
    have hfound : (ps''.find? (decimalValue digits)).isSome = true :=
      find?_isSome_iff.2 ⟨p, hsub hp, hn⟩
    rw [addNumbered_of_numeral hnumeral, if_pos hfound]
  · obtain ⟨hname, -, p, hp, hsql, rfl⟩ := registers_of_addNamed h
    cases hf : ps''.entries.find? (·.sqlName == some s) with
    | none => simpa [hsql] using List.find?_eq_none.1 hf p (hsub hp)
    | some q =>
      have hq : q.sqlName = some s := by simpa using List.find?_some hf
      have hqp := hl.eq_of_sqlName (List.mem_of_find?_eq_some hf) (hsub hp) hq hsql
      simp [addNamed, hname, hf, hqp]

end Parameters

namespace Parser

/-- The state that a registration leaves behind, whether it succeeds or not. -/
def registered (s : ParseState) (t : Token) : ParseState :=
  match register t s with
  | .ok _ s' => s'
  | .error _ s' => s'

/-- The state that registrations of these tokens leave behind, one after the other. -/
def registeredAll (s : ParseState) (ts : List Token) : ParseState := ts.foldl registered s

variable {s s' : ParseState} {t : Token} {n : Nat}

theorem register_eq_ok (h : register t s = .ok n s') :
    s.parameters.register t.value = .ok (n, s'.parameters) ∧
      s' = { s with parameters := s'.parameters } := by
  unfold register at h
  split at h
  · next hr =>
    cases h
    exact ⟨hr, rfl⟩
  · cases h

theorem register_eq_error {e : ParseError} (h : register t s = .error e s') : s' = s := by
  unfold register at h
  split at h
  · cases h
  · cases h
    rfl

/-- One registration more keeps what holds of the parameters, and it keeps their entries. -/
theorem lawful_registered (h : s.parameters.Lawful) (t : Token) :
    (registered s t).parameters.Lawful ∧
      s.parameters.entries.Sublist (registered s t).parameters.entries := by
  unfold registered
  split
  · next hr =>
    have hregisters := Parameters.registers_of_register (register_eq_ok hr).1
    exact ⟨hregisters.lawful h, hregisters.sublist⟩
  · next hr =>
    rw [register_eq_error hr]
    exact ⟨h, List.Sublist.refl _⟩

theorem lawful_registeredAll (h : s.parameters.Lawful) (ts : List Token) :
    (registeredAll s ts).parameters.Lawful ∧
      s.parameters.entries.Sublist (registeredAll s ts).parameters.entries := by
  induction ts generalizing s with
  | nil => exact ⟨h, List.Sublist.refl _⟩
  | cons t ts ih =>
    obtain ⟨hl, hsub⟩ := lawful_registered h t
    obtain ⟨hl', hsub'⟩ := ih hl
    exact ⟨hl', hsub.trans hsub'⟩

/-- Parameters that are registered from none on are lawful at any time. One registration more
either fails and changes nothing, or it returns the number of an entry, keeps all earlier entries
and adds at most one; a spelling other than a bare `?` has then got its number for good. -/
theorem register_lawful (s : ParseState) (ts : List Token) (t : Token) :
    let now := registeredAll { s with parameters := {} } ts
    now.parameters.Lawful ∧
    (∀ e next, register t now = .error e next → next = now) ∧
    ∀ n next, register t now = .ok n next →
      (∃ p ∈ next.parameters.entries, p.number = n) ∧
      now.parameters.entries.Sublist next.parameters.entries ∧
      next.parameters.entries.length ≤ now.parameters.entries.length + 1 ∧
      ∀ us u, t.value ≠ "?" → u.value = t.value →
        register u (registeredAll next us) = .ok n (registeredAll next us) := by
  intro now
  have hnow : now.parameters.Lawful :=
    (lawful_registeredAll (s := { s with parameters := {} }) Parameters.lawful_empty ts).1
  refine ⟨hnow, fun e next h => register_eq_error h, fun n next h => ?_⟩
  obtain ⟨hregister, -⟩ := register_eq_ok h
  have hregisters := Parameters.registers_of_register hregister
  refine ⟨hregisters.mem, hregisters.sublist, hregisters.length_le, fun us u ht hu => ?_⟩
  obtain ⟨hl, hsub⟩ := lawful_registeredAll (hregisters.lawful hnow) us
  have hagain := Parameters.register_again hregister ht hl hsub.subset
  unfold register
  rw [hu, hagain]

example :
    let words := [":b", "?", ":param2", "?9", "?1", "$c", ":b"]
    let tokens := words.map fun word => (⟨word, .other, .start⟩ : Token)
    (registeredAll { rest := [] } tokens).parameters =
      ⟨[⟨1, "b", some ":b"⟩, ⟨2, "param2", none⟩, ⟨9, "param9", none⟩, ⟨10, "c", some "$c"⟩],
        10⟩ := by
  decide +kernel

end Parser

end SqliteSchema
