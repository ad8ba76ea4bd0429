import SqliteSchema.Proofs.Query.Distinct

/-!
Which names the columns of a query get. Names are numbered group by group, in the order in which
the groups begin; a number is passed over only where its name belongs to a column that keeps its
name or to a group that began earlier.
-/
namespace SqliteSchema

namespace Projected

variable {base : String} {names finals taken : List String} {n : Nat}

/-- From `n` up to the number that is found all names are taken. -/
theorem mem_taken_of_lt_freeNumber {m : Nat} (hn : n ≤ m) (hm : m < freeNumber taken base n) :
    s!"{base}{m}" ∈ taken := by
  fun_induction freeNumber taken base n with
  | case1 taken n h ih =>
    by_cases he : m = n
    · rw [he]
      exact h
    · have hmem := ih (by omega) hm
      exact List.mem_of_mem_erase hmem
  | case2 taken n h => omega

/-! ### The order of the groups -/

/-- Names that a test keeps stand in the same order when the others are left out. -/
theorem idxOf_lt_of_filter {a b : String} {q : String → Bool} (ha : q a = true) (hb : q b = true)
    (h : (names.filter q).idxOf a < (names.filter q).idxOf b) :
    names.idxOf a < names.idxOf b := by
  induction names with
  | nil => simp at h
  | cons x names ih =>
    by_cases hxb : x = b
    · subst hxb
      simp [hb] at h
    · by_cases hxa : x = a
      · subst hxa
        rw [List.idxOf_cons_self, List.idxOf_cons_ne _ hxb]
        exact Nat.succ_pos _
      · rw [List.idxOf_cons_ne _ hxa, List.idxOf_cons_ne _ hxb]
        apply Nat.succ_lt_succ
        apply ih
        by_cases hx : q x = true
        · rw [List.filter_cons_of_pos hx, List.idxOf_cons_ne _ hxa, List.idxOf_cons_ne _ hxb] at h
          exact Nat.lt_of_succ_lt_succ h
        · rwa [List.filter_cons_of_neg hx] at h

/-- Repetitions are dropped behind the first occurrence. -/
theorem pairwise_eraseDups (names : List String) :
    names.eraseDups.Pairwise fun a b => names.idxOf a < names.idxOf b := by
  induction hn : names.length using Nat.strongRecOn generalizing names with
  | ind n ih =>
    cases names with
    | nil => exact .nil
    | cons x names =>
      have hlength : (names.filter fun a => !a == x).length < n := by
        have hle := List.length_filter_le (fun a => !a == x) names
        rw [List.length_cons] at hn
        omega
      have hkept {a : String} (ha : a ∈ (names.filter fun a => !a == x).eraseDups) :
          (!a == x) = true := by
        rw [List.mem_eraseDups] at ha
        exact (List.mem_filter.1 ha).2
      have hne {a : String} (ha : a ∈ (names.filter fun a => !a == x).eraseDups) : x ≠ a := by
        intro he
        have h := hkept ha
        rw [he, beq_self_eq_true] at h
        cases h
      rw [List.eraseDups_cons, List.pairwise_cons]
      constructor
      · intro a ha
        rw [List.idxOf_cons_self, List.idxOf_cons_ne _ (hne ha)]
        exact Nat.succ_pos _
      · apply (ih _ hlength _ rfl).imp_of_mem
        intro a b ha hb hab
        rw [List.idxOf_cons_ne _ (hne ha), List.idxOf_cons_ne _ (hne hb)]
        exact Nat.succ_lt_succ (idxOf_lt_of_filter (hkept ha) (hkept hb) hab)

theorem mem_sharedNames_iff {name : String} :
    name ∈ sharedNames names ↔ 1 < names.count name := by
  rw [sharedNames, List.mem_eraseDups, List.mem_filter]
  constructor
  · intro h
    simpa using h.2
  · intro h
    exact ⟨List.count_pos_iff.1 (by omega), by simpa using h⟩

/-- Shared names are numbered in the order of their first columns. -/
theorem pairwise_sharedNames (names : List String) :
    (sharedNames names).Pairwise fun a b => names.idxOf a < names.idxOf b := by
  apply (pairwise_eraseDups _).imp_of_mem
  intro a b ha hb hab
  have hshared {c : String} (hc : c ∈ sharedNames names) : decide (names.count c > 1) = true := by
    simpa using mem_sharedNames_iff.1 hc
  exact idxOf_lt_of_filter (hshared ha) (hshared hb) hab

/-! ### One group -/

/-- What numbering the columns called `base` from `n` on does to their names, which are `olds`
before and `news` after. -/
structure GroupNumbered (base : String) (n : Nat) (taken taken' names olds news : List String)
    (number : Nat → Nat) : Prop where
  others : ∀ (i : Nat) (a : String), names[i]? = some a → a ≠ base → news[i]? = olds[i]?
  members : ∀ i : Nat, names[i]? = some base →
    n ≤ number i ∧ news[i]? = some s!"{base}{number i}"
  increasing : ∀ i j : Nat, i < j → names[i]? = some base → names[j]? = some base →
    number i < number j
  skipped : ∀ i m : Nat, names[i]? = some base → n ≤ m → m < number i →
    (∀ j < i, names[j]? = some base → number j < m) → s!"{base}{m}" ∈ taken
  taken : ∀ x ∈ taken', x ∈ taken ∨ ∃ i : Nat, names[i]? = some base ∧ news[i]? = some x

variable {taken' olds news : List String} {number : Nat → Nat}

/-- The first number of a list that has one more column in front. -/
def withFirst (k : Nat) (number : Nat → Nat) : Nat → Nat
  | 0 => k
  | i + 1 => number i

/-- A column of another name in front is left alone. -/
theorem GroupNumbered.consOther {a old : String} (ha : a ≠ base)
    (h : GroupNumbered base n taken taken' names olds news number) :
    GroupNumbered base n taken taken' (a :: names) (old :: olds) (old :: news)
      (withFirst 0 number) := by
  have hfirst : (a :: names)[0]? ≠ some base := by simpa using ha
  constructor
  case others =>
    intro i b hb hne
    cases i with
    | zero => rfl
    | succ i => exact h.others i b hb hne
  case members =>
    intro i hi
    cases i with
    | zero => exact absurd hi hfirst
    | succ i => exact h.members i hi
  case increasing =>
    intro i j hij hi hj
    cases i with
    | zero => exact absurd hi hfirst
    | succ i =>
      cases j with
      | zero => omega
      | succ j => exact h.increasing i j (by omega) hi hj
  case skipped =>
    intro i m hi hn hm hbefore
    cases i with
    | zero => exact absurd hi hfirst
    | succ i =>
      apply h.skipped i m hi hn hm
      intro j hj hmember
      exact hbefore (j + 1) (by omega) hmember
  case taken =>
    intro x hx
    apply (h.taken x hx).imp_right
    rintro ⟨i, hi, hnew⟩
    exact ⟨i + 1, hi, hnew⟩

/-- A column of the name in front gets the number `k`, and those behind it higher ones. -/
theorem GroupNumbered.consMember {k : Nat} {old : String} (hk : n ≤ k)
    (hskip : ∀ m, n ≤ m → m < k → s!"{base}{m}" ∈ taken)
    (h : GroupNumbered base (k + 1) (s!"{base}{k}" :: taken) taken' names olds news number) :
    GroupNumbered base n taken taken' (base :: names) (old :: olds) (s!"{base}{k}" :: news)
      (withFirst k number) := by
  constructor
  case others =>
    intro i a ha hne
    cases i with
    | zero =>
      have he : base = a := by simpa using ha
      exact absurd he.symm hne
    | succ i => exact h.others i a ha hne
  case members =>
    intro i hi
    cases i with
    | zero => exact ⟨hk, rfl⟩
    | succ i =>
      obtain ⟨hle, hnew⟩ := h.members i hi
      have hn : n ≤ number i := by omega
      exact ⟨hn, hnew⟩
  case increasing =>
    intro i j hij hi hj
    cases j with
    | zero => omega
    | succ j =>
      cases i with
      | zero => exact (h.members j hj).1
      | succ i => exact h.increasing i j (by omega) hi hj
  case skipped =>
    intro i m hi hn hm hbefore
    cases i with
    | zero => exact hskip m hn hm
    | succ i =>
      have hkm : k < m := hbefore 0 (by omega) rfl
      have hmem : s!"{base}{m}" ∈ s!"{base}{k}" :: taken := by
        apply h.skipped i m hi (by omega) hm
        intro j hj hmember
        exact hbefore (j + 1) (by omega) hmember
      rcases List.mem_cons.1 hmem with he | hmem
      · rw [numbered_inj] at he
        omega
      · exact hmem
  case taken =>
    intro x hx
    rcases h.taken x hx with hmem | ⟨i, hi, hnew⟩
    · rcases List.mem_cons.1 hmem with rfl | hmem
      · exact .inr ⟨0, rfl, rfl⟩
      · exact .inl hmem
    · exact .inr ⟨i + 1, hi, hnew⟩

theorem groupNumbered_numberGroup (base : String) (taken : List String) (n : Nat)
    (pairs : List (String × String)) :
    ∃ number, GroupNumbered base n taken (numberGroup base taken n pairs).1 (pairs.map (·.1))
      (pairs.map (·.2)) ((numberGroup base taken n pairs).2.map (·.2)) number := by
  induction pairs generalizing taken n with
  | nil => exact ⟨fun _ => 0, by simp, by simp, by simp, by simp, by simp [numberGroup]⟩
  | cons pair rest ih =>
    obtain ⟨old, new⟩ := pair
    rw [numberGroup]
    split
    · next hold =>
      subst hold
      have hfree := (freeNumber_spec taken old n).1
      obtain ⟨number, h⟩ := ih (s!"{old}{freeNumber taken old n}" :: taken)
        (freeNumber taken old n + 1)
      exact ⟨_, h.consMember hfree fun m hn hm => mem_taken_of_lt_freeNumber hn hm⟩
    · next hold =>
      obtain ⟨number, h⟩ := ih taken n
      exact ⟨_, h.consOther hold⟩

/-! ### All groups -/

/-- The names of the columns when the groups of `done` are numbered, in this order. -/
structure NumberedIn (done names finals taken : List String) (number : Nat → Nat) : Prop where
  kept : ∀ (i : Nat) (a : String), names[i]? = some a → a ∉ done → finals[i]? = some a
  numbered : ∀ (i : Nat) (a : String), names[i]? = some a → a ∈ done →
    0 < number i ∧ finals[i]? = some s!"{a}{number i}"
  increasing : ∀ (i j : Nat) (a : String), i < j → names[i]? = some a → names[j]? = some a →
    a ∈ done → number i < number j
  skipped : ∀ (i m : Nat) (a : String), names[i]? = some a → a ∈ done → 0 < m → m < number i →
    (∀ j < i, names[j]? = some a → number j < m) → names.count s!"{a}{m}" = 1 ∨
      ∃ (j : Nat) (b : String), names[j]? = some b ∧ b ∈ done ∧
        names.idxOf b < names.idxOf a ∧ finals[j]? = some s!"{a}{m}"
  taken : ∀ x ∈ taken, names.count x = 1 ∨
    ∃ (j : Nat) (b : String), names[j]? = some b ∧ b ∈ done ∧ finals[j]? = some x

/-- One more group, which begins behind the others. -/
theorem NumberedIn.step {done : List String} {finals' : List String} {g : Nat → Nat}
    (h : NumberedIn done names finals taken number)
    (hdone : ∀ b ∈ done, names.idxOf b < names.idxOf base)
    (hg : GroupNumbered base 1 taken taken' names finals finals' g) :
    ∃ number', NumberedIn (done ++ [base]) names finals' taken' number' := by
  have hnew : base ∉ done := fun hm => Nat.lt_irrefl _ (hdone base hm)
  have hne {a : String} (ha : a ∈ done) : a ≠ base := fun he => hnew (he ▸ ha)
  let number' : Nat → Nat := fun i => if names[i]? = some base then g i else number i
  have hmember {i : Nat} (hi : names[i]? = some base) : number' i = g i := if_pos hi
  have hother {i : Nat} {a : String} (hi : names[i]? = some a) (ha : a ≠ base) :
      number' i = number i := by
    apply if_neg
    rw [hi, Option.some_inj]
    exact ha
  -- The names of the groups before stay as they are.
  have hstays {j : Nat} {b : String} (hb : names[j]? = some b) (hd : b ∈ done) :
      finals'[j]? = finals[j]? := hg.others j b hb (hne hd)
  have htaken (x : String) (hx : x ∈ taken) : names.count x = 1 ∨
      ∃ (j : Nat) (b : String), names[j]? = some b ∧ b ∈ done ∧ finals'[j]? = some x := by
    apply (h.taken x hx).imp_right
    rintro ⟨j, b, hb, hbd, hfinal⟩
    exact ⟨j, b, hb, hbd, (hstays hb hbd).trans hfinal⟩
  refine ⟨number', ?kept, ?numbered, ?increasing, ?skipped, ?taken⟩
  case kept =>
    intro i a ha hd
    rw [List.mem_append, List.mem_singleton, not_or] at hd
    rw [hg.others i a ha hd.2]
    exact h.kept i a ha hd.1
  case numbered =>
    intro i a ha hd
    rcases List.mem_append.1 hd with hd | hd
    · rw [hother ha (hne hd), hstays ha hd]
      exact h.numbered i a ha hd
    · obtain rfl := List.mem_singleton.1 hd
      rw [hmember ha]
      exact hg.members i ha
  case increasing =>
    intro i j a hij hi hj hd
    rcases List.mem_append.1 hd with hd | hd
    · rw [hother hi (hne hd), hother hj (hne hd)]
      exact h.increasing i j a hij hi hj hd
    · obtain rfl := List.mem_singleton.1 hd
      rw [hmember hi, hmember hj]
      exact hg.increasing i j hij hi hj
  case skipped =>
    intro i m a ha hd hpos hm hbefore
    rcases List.mem_append.1 hd with hd | hd
    · rw [hother ha (hne hd)] at hm
      have hold : ∀ j < i, names[j]? = some a → number j < m := by
        intro j hj hja
        rw [← hother hja (hne hd)]
        exact hbefore j hj hja
      apply (h.skipped i m a ha hd hpos hm hold).imp_right
      rintro ⟨j, b, hb, hbd, hlt, hfinal⟩
      exact ⟨j, b, hb, List.mem_append_left _ hbd, hlt, (hstays hb hbd).trans hfinal⟩
    · obtain rfl := List.mem_singleton.1 hd
      rw [hmember ha] at hm
      have hmem : s!"{a}{m}" ∈ taken := by
        apply hg.skipped i m ha hpos hm
        intro j hj hja
        rw [← hmember hja]
        exact hbefore j hj hja
      apply (htaken _ hmem).imp_right
      rintro ⟨j, b, hb, hbd, hfinal⟩
      exact ⟨j, b, hb, List.mem_append_left _ hbd, hdone b hbd, hfinal⟩
  case taken =>
    intro x hx
    rcases hg.taken x hx with hmem | ⟨i, hi, hnew⟩
    · apply (htaken x hmem).imp_right
      rintro ⟨j, b, hb, hbd, hfinal⟩
      exact ⟨j, b, hb, List.mem_append_left _ hbd, hfinal⟩
    · exact .inr ⟨i, base, hi, List.mem_append_right _ List.mem_cons_self, hnew⟩

/-- All groups, one after the other. -/
theorem NumberedIn.foldl {done : List String} (bases : List String)
    (start : List String × List (String × String))
    (h : NumberedIn done (start.2.map (·.1)) (start.2.map (·.2)) start.1 number)
    (horder : (done ++ bases).Pairwise fun a b =>
      (start.2.map (·.1)).idxOf a < (start.2.map (·.1)).idxOf b) :
    let last := bases.foldl (fun (taken, pairs) base => numberGroup base taken 1 pairs) start
    ∃ number', NumberedIn (done ++ bases) (start.2.map (·.1)) (last.2.map (·.2)) last.1
      number' := by
  induction bases generalizing done start number with
  | nil =>
    rw [List.append_nil]
    exact ⟨number, h⟩
  | cons base bases ih =>
    have holds := (numberGroup_spec base start.1 1 start.2).olds
    have hdone : ∀ b ∈ done, (start.2.map (·.1)).idxOf b < (start.2.map (·.1)).idxOf base := by
      intro b hb
      exact (List.pairwise_append.1 horder).2.2 b hb base List.mem_cons_self
    obtain ⟨g, hg⟩ := groupNumbered_numberGroup base start.1 1 start.2
    obtain ⟨number', h'⟩ := h.step hdone hg
    rw [← List.singleton_append, ← List.append_assoc] at horder ⊢
    rw [← holds] at h' horder ⊢
    exact ih _ h' horder

/-! ### The names of a query -/

/-- How shared names are told apart: `names` are the names before and `finals` those after, and a
column of a shared name has its number behind it. -/
structure Numbered (names finals : List String) (number : Nat → Nat) : Prop where
  length : finals.length = names.length
  single : ∀ (i : Nat) (a : String), names[i]? = some a → names.count a = 1 →
    finals[i]? = some a
  shared : ∀ (i : Nat) (a : String), names[i]? = some a → 1 < names.count a →
    0 < number i ∧ finals[i]? = some s!"{a}{number i}"
  increasing : ∀ (i j : Nat) (a : String), i < j → names[i]? = some a → names[j]? = some a →
    number i < number j
  /-- A number is passed over only where a column keeps the name, or where a column of a group
  that begins further in front has got it. -/
  skipped : ∀ (i m : Nat) (a : String), names[i]? = some a → 1 < names.count a → 0 < m →
    m < number i → (∀ j < i, names[j]? = some a → number j < m) →
    ∃ (j : Nat) (b : String), names[j]? = some b ∧ finals[j]? = some s!"{a}{m}" ∧
      (names.count b = 1 ∨ 1 < names.count b ∧ names.idxOf b < names.idxOf a)

/-- A name that stands at two places is shared. -/
theorem one_lt_count {i j : Nat} {a : String} (hij : i < j) (hi : names[i]? = some a)
    (hj : names[j]? = some a) : 1 < names.count a := by
  have hfront : a ∈ names.take j := by
    apply List.mem_of_getElem? (i := i)
    rw [List.getElem?_take_of_lt hij, hi]
  have hback : a ∈ names.drop j := by
    apply List.mem_of_getElem? (i := 0)
    rw [List.getElem?_drop, Nat.add_zero, hj]
  have hsum := congrArg (List.count a) (List.take_append_drop j names)
  rw [List.count_append] at hsum
  have hpos := List.count_pos_iff.2 hfront
  have hpos' := List.count_pos_iff.2 hback
  omega

theorem numbered_numberNames (names : List String) :
    ∃ number, Numbered names (numberNames names) number := by
  have hpairs : (names.map fun name => (name, name)).map (·.1) = names := by
    rw [List.map_map]
    exact List.map_id names
  have hpairs' : (names.map fun name => (name, name)).map (·.2) = names := by
    rw [List.map_map]
    exact List.map_id names
  have hstart : NumberedIn [] ((names.map fun name => (name, name)).map (·.1))
      ((names.map fun name => (name, name)).map (·.2))
      (names.filter fun name => names.count name == 1) (fun _ => 0) := by
    rw [hpairs, hpairs']
    refine ⟨fun i a ha _ => ha, by simp, by simp, by simp, fun x hx => .inl ?_⟩
    simpa using (List.mem_filter.1 hx).2
  obtain ⟨number, h⟩ := NumberedIn.foldl (sharedNames names)
    (names.filter fun name => names.count name == 1, names.map fun name => (name, name)) hstart
    (by rw [hpairs]; exact pairwise_sharedNames names)
  rw [hpairs, List.nil_append] at h
  have hfinal (i : Nat) (a : String) (ha : names[i]? = some a) (hc : names.count a = 1) :
      (numberNames names)[i]? = some a := by
    apply h.kept i a ha
    rw [mem_sharedNames_iff]
    omega
  refine ⟨number, (numberNames_spec names).1, hfinal, ?_, ?_, ?_⟩
  · intro i a ha hc
    exact h.numbered i a ha (mem_sharedNames_iff.2 hc)
  · intro i j a hij hi hj
    exact h.increasing i j a hij hi hj (mem_sharedNames_iff.2 (one_lt_count hij hi hj))
  · intro i m a ha hc hpos hm hbefore
    rcases h.skipped i m a ha (mem_sharedNames_iff.2 hc) hpos hm hbefore with hone | hgroup
    · obtain ⟨j, hj⟩ := List.mem_iff_getElem?.1 (List.count_pos_iff.1 (by rw [hone]; omega))
      exact ⟨j, _, hj, hfinal j _ hj hone, .inl hone⟩
    · obtain ⟨j, b, hb, hd, hlt, hname⟩ := hgroup
      exact ⟨j, b, hb, hname, .inr ⟨mem_sharedNames_iff.1 hd, hlt⟩⟩

/-- The name of a column before names are numbered. Without an alias a column that shares its name
with one of another `FROM` entry has the name of its table in front. -/
def qualifiedName (ps : List Projected) (p : Projected) : String :=
  if p.aliased = false ∧ ∃ q ∈ ps, q.entry ≠ p.entry ∧ q.name = p.name then p.owner ++ p.name
  else p.name

theorem name_qualify (ps : List Projected) (p : Projected) :
    (qualify ps p).name = qualifiedName ps p := by
  have hclashes : p.clashes ps = true ↔
      p.aliased = false ∧ ∃ q ∈ ps, q.entry ≠ p.entry ∧ q.name = p.name := by
    simp [clashes]
  unfold qualify qualifiedName
  rw [if_congr hclashes rfl rfl]
  split <;> rfl

/-- The names of the columns are the qualified ones, numbered where they are shared. -/
theorem outputNames_distinct (ps : List Projected) :
    (distinct ps).map (·.outputName) = numberNames (ps.map (qualifiedName ps)) := by
  rw [names_distinct, List.map_map]
  congr 1
  exact List.map_congr_left fun p _ => name_qualify ps p

end Projected

/-- The alias of a column in a select list. -/
def SelectItem.newName? : SelectItem → Option String
  | .column _ _ newName => newName
  | _ => none

namespace Query

/-- A column that stands for an entry of a select list: it is one of a `FROM` entry's table, or the
row number under the name that the query gives it, and an alias is its name. -/
structure StandsFor (sources : List Source) (item : SelectItem) (p : Projected) (s : Source)
    (c : Column) : Prop where
  source : sources[p.entry]? = some s
  column : c ∈ s.table.columns ∨
    ∃ qualifier column newName, item = .column qualifier column newName ∧
      c = s.table.rowid column.unquoted
  owner : p.owner = s.table.outputName
  aliased : p.aliased = item.newName?.isSome
  name : p.name = (item.newName?.map Name.output).getD c.outputName

variable {sources : List Source} {i : Nat} {s : Source}

theorem standsFor_project {item : SelectItem} {c : Column} (hs : sources[i]? = some s)
    (hc : c ∈ s.table.columns ∨ ∃ qualifier column newName,
      item = .column qualifier column newName ∧ c = s.table.rowid column.unquoted) :
    StandsFor sources item (project i s item.newName? c) s c := by
  constructor
  · exact hs
  · exact hc
  · rfl
  · rfl
  · cases h : item.newName? <;> simp [Projected.name, project]

/-- `*` or `table.*` stands for the declared columns. -/
theorem standsFor_of_mem_allOf {item : SelectItem} {p : Projected} (hitem : item.newName? = none)
    (hs : sources[i]? = some s) (hp : p ∈ allOf i s) : ∃ c, StandsFor sources item p s c := by
  obtain ⟨c, hc, rfl⟩ := List.mem_map.1 hp
  rw [← hitem]
  exact ⟨c, standsFor_project hs (.inl hc)⟩

theorem getElem?_of_entry {qualifier : Token} (h : entry sources qualifier = .ok (i, s)) :
    sources[i]? = some s := by
  unfold entry at h
  split at h
  · next found hfound =>
    obtain rfl := Except.ok.inj h
    obtain ⟨j, -, hj⟩ := Option.bind_eq_some_iff.1 hfound
    obtain ⟨t, ht, he⟩ := Option.map_eq_some_iff.1 hj
    cases he
    exact ht
  · cases h

theorem mem_or_rowid_of_columnOrRowid? {t : Table} {name : String} {c : Column}
    (h : t.columnOrRowid? name = some c) : c ∈ t.columns ∨ c = t.rowid name := by
  unfold Table.columnOrRowid? at h
  split at h
  · next hfound =>
    cases h
    exact .inl (List.mem_of_find?_eq_some hfound)
  · split at h
    · cases h
      exact .inr rfl
    · cases h

/-- A column that a name means belongs to the entry with the index that comes with it. -/
theorem resolveColumn_spec {qualifier : Option Token} {column : Token} {c : Column}
    (h : resolveColumn sources qualifier column = .ok ((i, s), c)) :
    sources[i]? = some s ∧ s.table.columnOrRowid? column.unquoted = some c := by
  unfold resolveColumn at h
  split at h
  · split at h
    · cases h
    · next hentry =>
      split at h
      · next hcolumn =>
        cases h
        exact ⟨getElem?_of_entry hentry, hcolumn⟩
      · cases h
  · split at h
    · cases h
    · next hsingle =>
      cases h
      have hmem : ((i, s), c) ∈ candidates sources column.unquoted := by
        rw [hsingle]
        exact List.mem_singleton_self _
      obtain ⟨⟨t, j⟩, ht, hfound⟩ := List.mem_filterMap.1 hmem
      obtain ⟨d, hd, he⟩ := Option.map_eq_some_iff.1 hfound
      cases he
      exact ⟨List.mem_zipIdx_iff_getElem?.1 ht, hd⟩
    · cases h

/-- Every column that an entry of a select list resolves to stands for it. -/
theorem standsFor_of_resolve {item : SelectItem} {ps : List Projected}
    (h : resolve sources item = .ok ps) :
    ∀ p ∈ ps, ∃ s c, StandsFor sources item p s c := by
  intro p hp
  cases item with
  | allColumns =>
    cases h
    obtain ⟨⟨s, i⟩, hs, hp⟩ := List.mem_flatMap.1 hp
    exact ⟨s, standsFor_of_mem_allOf rfl (List.mem_zipIdx_iff_getElem?.1 hs) hp⟩
  | allColumnsOf table =>
    obtain ⟨i, s, hentry, rfl⟩ := resolve_allColumnsOf_eq_ok.1 h
    exact ⟨s, standsFor_of_mem_allOf rfl (getElem?_of_entry hentry) hp⟩
  | column qualifier column newName =>
    obtain ⟨i, s, c, hcolumn, rfl⟩ := resolve_column_eq_ok.1 h
    obtain rfl := List.mem_singleton.1 hp
    obtain ⟨hs, hc⟩ := resolveColumn_spec hcolumn
    refine ⟨s, c, standsFor_project hs ?_⟩
    apply (mem_or_rowid_of_columnOrRowid? hc).imp_right
    intro he
    exact ⟨qualifier, column, newName, rfl, he⟩

/-- The columns of a select list come entry by entry. -/
theorem standsFor_of_resolveAll {items : List SelectItem} {ps : List Projected}
    (h : resolveAll sources items = .ok ps) :
    ∃ groups : List (List Projected), ps = groups.flatten ∧
      List.Forall₂ (fun item group => ∀ p ∈ group, ∃ s c, StandsFor sources item p s c)
        items groups := by
  induction items generalizing ps with
  | nil =>
    cases h
    exact ⟨[], rfl, .nil⟩
  | cons item items ih =>
    obtain ⟨first, more, hfirst, hmore, rfl⟩ := resolveAll_cons_eq_ok.1 h
    obtain ⟨groups, rfl, hgroups⟩ := ih hmore
    exact ⟨first :: groups, rfl, .cons (standsFor_of_resolve hfirst) hgroups⟩

/-- How the columns of a query are called. The columns come from the entries of the select list;
`qualifiedName` is what a column is called when names are told apart by their tables, and names
that are shared even then are numbered. -/
theorem process_names {q q' : Query} (h : q.process = .ok q') :
    (q.projection.isSome ∧ q' = q) ∨
    ∃ ps : List Projected, q.projection = none ∧ resolveAll q.sources q.items = .ok ps ∧
      (∃ groups : List (List Projected), ps = groups.flatten ∧
        List.Forall₂ (fun item group => ∀ p ∈ group, ∃ s c, StandsFor q.sources item p s c)
          q.items groups) ∧
      ∃ number, Projected.Numbered (ps.map (Projected.qualifiedName ps))
        (q'.columns.map (·.outputName)) number := by
  obtain hdone | ⟨ps, hnone, hps, rfl⟩ := process_eq_ok h
  · exact .inl hdone
  · have hnumbered := Projected.numbered_numberNames (ps.map (Projected.qualifiedName ps))
    rw [← Projected.outputNames_distinct] at hnumbered
    exact .inr ⟨ps, hnone, hps, standsFor_of_resolveAll hps, hnumbered⟩

/-- Columns of both sides of a self-join and an alias: the number 1 is passed over, because the
alias is the name that it makes. -/
theorem process_names_selfJoin :
    ∃ q q' : Query, q.process = .ok q' ∧
      q'.columns.map (·.outputName) = ["AX2", "AX3", "AX1"] ∧
      ∃ ps : List Projected, resolveAll q.sources q.items = .ok ps ∧
        ps.map (Projected.qualifiedName ps) = ["AX", "AX", "AX1"] ∧
        ∃ number, Projected.Numbered ["AX", "AX", "AX1"] ["AX2", "AX3", "AX1"] number := by
  let x : Column := .declare 0 "x" "TEXT"
  let a : Table := { Table.named 0 "a" with columns := [x] }
  let word (value : String) (n : Nat) : Token := ⟨value, .other, ⟨n, 0, n⟩⟩
  let q : Query := {
    sources := [⟨"p", a⟩, ⟨"q", a⟩]
    items := [.column (some (word "p" 7)) (word "x" 9) none,
      .column (some (word "q" 12)) (word "x" 14) none,
      .column (some (word "p" 17)) (word "x" 19) (some "aX1")] }
  let q' : Query := { q with
    projection := some (["AX2", "AX3", "AX1"].map fun name => { x with outputName := name }) }
  let ps : List Projected := [project 0 ⟨"p", a⟩ none x, project 1 ⟨"q", a⟩ none x,
    project 0 ⟨"p", a⟩ (some "aX1") x]
  have hq : q.process = .ok q' := by decide +kernel
  have hps : resolveAll q.sources q.items = .ok ps := by decide +kernel
  have hnames : ps.map (Projected.qualifiedName ps) = ["AX", "AX", "AX1"] := by decide +kernel
  have hfinals : q'.columns.map (·.outputName) = ["AX2", "AX3", "AX1"] := rfl
  refine ⟨q, q', hq, hfinals, ps, hps, hnames, ?_⟩
  obtain ⟨hsome, -⟩ | ⟨ps', -, hps', -, hnumbered⟩ := process_names hq
  · cases hsome
  · rw [hps] at hps'
    obtain rfl := Except.ok.inj hps'
    rw [hnames, hfinals] at hnumbered
    exact hnumbered

end Query

end SqliteSchema
