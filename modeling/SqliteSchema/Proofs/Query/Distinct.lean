import Mathlib.Data.List.Nodup
import SqliteSchema.Proofs.Parser.Ensures
import SqliteSchema.Query.Select

/-!
The columns of a query have distinct names. Whatever the names are at first, those that occur once
are taken, and every number is chosen so that its name is not taken yet.
-/
namespace SqliteSchema

namespace Projected

variable {base : String} {taken : List String} {pairs : List (String × String)} {n : Nat}

theorem numbered_inj {m : Nat} : s!"{base}{m}" = s!"{base}{n}" ↔ m = n := by
  refine ⟨fun h => ?_, fun h => by rw [h]⟩
  have hd : Nat.toDigits 10 m = Nat.toDigits 10 n := by
    rw [String.append_right_inj, Nat.toString_eq_ofList_toDigits,
      Nat.toString_eq_ofList_toDigits] at h
    exact String.ofList_injective h
  rw [← Nat.ofDigitChars_ten_toDigits (n := m), hd, Nat.ofDigitChars_ten_toDigits]

/-- The number that is found is not too small, and its name is free. -/
theorem freeNumber_spec (taken : List String) (base : String) (n : Nat) :
    n ≤ freeNumber taken base n ∧ s!"{base}{freeNumber taken base n}" ∉ taken := by
  fun_induction freeNumber taken base n with
  | case1 taken n h ih =>
    generalize freeNumber (taken.erase s!"{base}{n}") base (n + 1) = k at ih ⊢
    obtain ⟨hle, hfree⟩ := ih
    refine ⟨by omega, fun hm => hfree ?_⟩
    -- The erased name is the one with the number `n`, which is smaller.
    have hne : s!"{base}{k}" ≠ s!"{base}{n}" := by
      rw [Ne, numbered_inj]
      omega
    exact (List.mem_erase_of_ne hne).2 hm
  | case2 taken n h => exact ⟨Nat.le_refl n, h⟩

/-- What numbering one name does: the other names stay, and the new ones were not taken. -/
structure Numbers (base : String) (taken taken' : List String)
    (pairs pairs' : List (String × String)) : Prop where
  olds : pairs'.map (·.1) = pairs.map (·.1)
  kept : taken ⊆ taken'
  others : ∀ p ∈ pairs', p.1 ≠ base → p ∈ pairs
  fresh : ∀ p ∈ pairs', p.1 = base → p.2 ∈ taken' ∧ p.2 ∉ taken

theorem numberGroup_spec (base : String) (taken : List String) (n : Nat)
    (pairs : List (String × String)) :
    Numbers base taken (numberGroup base taken n pairs).1 pairs
      (numberGroup base taken n pairs).2 := by
  induction pairs generalizing taken n with
  | nil => exact ⟨rfl, fun _ h => h, nofun, nofun⟩
  | cons pair rest ih =>
    obtain ⟨old, new⟩ := pair
    rw [numberGroup]
    split
    · next hold =>
      have hfree := (freeNumber_spec taken base n).2
      have h := ih (s!"{base}{freeNumber taken base n}" :: taken) (freeNumber taken base n + 1)
      refine ⟨congrArg (old :: ·) h.olds, fun x hx => h.kept (List.mem_cons_of_mem _ hx), ?_, ?_⟩
      · intro p hp hne
        rcases List.mem_cons.1 hp with rfl | hp
        · exact absurd hold hne
        · exact List.mem_cons_of_mem _ (h.others p hp hne)
      · intro p hp he
        rcases List.mem_cons.1 hp with rfl | hp
        · exact ⟨h.kept List.mem_cons_self, hfree⟩
        · obtain ⟨hm, hn⟩ := h.fresh p hp he
          exact ⟨hm, fun ht => hn (List.mem_cons_of_mem _ ht)⟩
    · next hold =>
      have h := ih taken n
      refine ⟨congrArg (old :: ·) h.olds, h.kept, ?_, ?_⟩
      · intro p hp hne
        rcases List.mem_cons.1 hp with rfl | hp
        · exact List.mem_cons_self
        · exact List.mem_cons_of_mem _ (h.others p hp hne)
      · intro p hp he
        rcases List.mem_cons.1 hp with rfl | hp
        · exact absurd he hold
        · exact h.fresh p hp he

/-- The names of settled columns are taken, and they are distinct. -/
structure Settled (done : String → Prop) (taken : List String)
    (pairs : List (String × String)) : Prop where
  taken : ∀ p ∈ pairs, done p.1 → p.2 ∈ taken
  distinct : pairs.Pairwise fun p q => done p.1 → done q.1 → p.2 ≠ q.2

theorem Settled.tail {done : String → Prop} {taken' : List String} {p : String × String}
    (h : Settled done taken (p :: pairs)) (ht : taken ⊆ taken') : Settled done taken' pairs :=
  ⟨fun q hq hd => ht (h.taken q (List.mem_cons_of_mem _ hq) hd), h.distinct.tail⟩

/-- The new names differ from each other and from those that were settled before. -/
theorem Settled.pairwise_numberGroup {done : String → Prop} (h : Settled done taken pairs) :
    (numberGroup base taken n pairs).2.Pairwise fun p q =>
      done p.1 ∨ p.1 = base → done q.1 ∨ q.1 = base → p.2 ≠ q.2 := by
  induction pairs generalizing taken n with
  | nil => exact .nil
  | cons pair rest ih =>
    obtain ⟨old, new⟩ := pair
    rw [Projected.numberGroup]
    split
    · next hold =>
      have hfree := (freeNumber_spec taken base n).2
      have hrest : Settled done (s!"{base}{freeNumber taken base n}" :: taken) rest :=
        h.tail fun x hx => List.mem_cons_of_mem _ hx
      refine List.pairwise_cons.2 ⟨fun q hq _ hdone he => ?_, ih hrest⟩
      have he : s!"{base}{freeNumber taken base n}" = q.2 := he
      have hs := numberGroup_spec base (s!"{base}{freeNumber taken base n}" :: taken)
        (freeNumber taken base n + 1) rest
      by_cases hb : q.1 = base
      · exact (hs.fresh q hq hb).2 (he ▸ List.mem_cons_self)
      · have hm : q.2 ∈ taken :=
          h.taken q (List.mem_cons_of_mem _ (hs.others q hq hb)) (hdone.resolve_right hb)
        exact hfree (he ▸ hm)
    · next hold =>
      refine List.pairwise_cons.2 ⟨fun q hq hp hdone he => ?_, ih (h.tail fun _ hx => hx)⟩
      have hs := numberGroup_spec base taken n rest
      have hp : done old := hp.resolve_right hold
      by_cases hb : q.1 = base
      · exact (hs.fresh q hq hb).2 (he ▸ h.taken (old, new) List.mem_cons_self hp)
      · exact List.rel_of_pairwise_cons h.distinct (hs.others q hq hb) hp
          (hdone.resolve_right hb) he

/-- One more name is settled by numbering it. -/
theorem Settled.numberGroup {done : String → Prop} (h : Settled done taken pairs) :
    Settled (fun name => done name ∨ name = base) (numberGroup base taken n pairs).1
      (numberGroup base taken n pairs).2 := by
  refine ⟨fun p hp hdone => ?_, h.pairwise_numberGroup⟩
  have hs := numberGroup_spec base taken n pairs
  by_cases hb : p.1 = base
  · exact (hs.fresh p hp hb).1
  · exact hs.kept (h.taken p (hs.others p hp hb) (hdone.resolve_right hb))

/-- All names that are numbered are settled in the end, together with those that were before. -/
theorem Settled.foldl {done : String → Prop} (bases : List String)
    (start : List String × List (String × String)) (h : Settled done start.1 start.2) :
    let last := bases.foldl (fun (taken, pairs) base => Projected.numberGroup base taken 1 pairs)
      start
    last.2.map (·.1) = start.2.map (·.1) ∧
      Settled (fun name => done name ∨ name ∈ bases) last.1 last.2 := by
  induction bases generalizing done start with
  | nil => exact ⟨rfl, by simpa using h⟩
  | cons base bases ih =>
    obtain ⟨holds, hlast⟩ := ih _ h.numberGroup
    refine ⟨holds.trans (numberGroup_spec base start.1 1 start.2).olds, ?_⟩
    simpa only [List.foldl_cons, List.mem_cons, or_assoc] using hlast

/-- At first the names that occur once are settled. -/
theorem settled_start (names : List String) :
    Settled (fun name => names.count name = 1) (names.filter fun name => names.count name == 1)
      (names.map fun name => (name, name)) := by
  constructor
  · intro p hp hdone
    obtain ⟨name, hname, rfl⟩ := List.mem_map.1 hp
    exact List.mem_filter.2 ⟨hname, by simpa using hdone⟩
  · have hn : (names.filter fun name => names.count name == 1).Nodup := by
      apply List.nodup_iff_count.2
      intro name
      by_cases hm : name ∈ names.filter fun name => names.count name == 1
      · have hc : names.count name = 1 := by simpa using (List.mem_filter.1 hm).2
        exact hc ▸ List.filter_sublist.count_le name
      · rw [List.count_eq_zero_of_not_mem hm]
        exact Nat.zero_le 1
    refine List.pairwise_map.2 ((List.pairwise_filter.1 hn).imp fun h ha hb => ?_)
    exact h (by simpa using ha) (by simpa using hb)

theorem mem_sharedNames {names : List String} {name : String} (hm : name ∈ names)
    (hc : names.count name ≠ 1) : name ∈ sharedNames names := by
  have hpos := List.count_pos_iff.2 hm
  rw [sharedNames, List.mem_eraseDups, List.mem_filter]
  exact ⟨hm, by simp; omega⟩

/-- There are as many names as before, and they are distinct. -/
theorem numberNames_spec (names : List String) :
    (numberNames names).length = names.length ∧ (numberNames names).Nodup := by
  obtain ⟨holds, hs⟩ := Settled.foldl (sharedNames names) (_, _) (settled_start names)
  rw [List.map_map, Function.comp_def, List.map_id'] at holds
  constructor
  · have hl := congrArg List.length holds
    rw [List.length_map] at hl
    rw [numberNames, List.length_map]
    exact hl
  · have hdone : ∀ name ∈ names, names.count name = 1 ∨ name ∈ sharedNames names := by
      intro name hm
      by_cases hc : names.count name = 1
      · exact .inl hc
      · exact .inr (mem_sharedNames hm hc)
    refine List.pairwise_map.2 (hs.distinct.imp_of_mem fun hp hq h => ?_)
    exact h (hdone _ (holds ▸ List.mem_map_of_mem hp)) (hdone _ (holds ▸ List.mem_map_of_mem hq))

/-- The columns have the numbered names. -/
theorem names_distinct (ps : List Projected) :
    (distinct ps).map (·.outputName) = numberNames ((ps.map (qualify ps)).map name) := by
  have hlength := (numberNames_spec ((ps.map (qualify ps)).map name)).1
  rw [distinct, List.map_zipWith]
  refine (List.map_zip_eq_zipWith (f := Prod.snd)).symm.trans (List.map_snd_zip ?_)
  exact Nat.le_of_eq (by rw [hlength, List.length_map])

/-- However the columns are called and wherever they come from, their names become distinct. -/
theorem nodup_distinct (ps : List Projected) : ((distinct ps).map (·.outputName)).Nodup := by
  rw [names_distinct]
  exact (numberNames_spec _).2

end Projected

namespace Query

variable {q q' : Query}

theorem nodup_process (hp : q.projection = none) (h : q.process = .ok q') :
    (q'.columns.map (·.outputName)).Nodup := by
  obtain ⟨hdone, -⟩ | ⟨ps, -, -, rfl⟩ := process_eq_ok h
  · rw [hp] at hdone
    cases hdone
  · exact Projected.nodup_distinct ps

theorem ensures_select (registry : Registry) :
    Parser.Ensures (select registry) fun q => (q.columns.map (·.outputName)).Nodup := by
  refine .after fun _ => .after fun distinct => .after fun items => .after fun sources => ?_
  refine .after fun _ => .after fun _ => .after fun _ => .after fun _ => .after fun parameters => ?_
  exact Parser.Ensures.ofExcept.imp fun q h => nodup_process rfl h

/-- No two columns of a query share an output name, also not under other owners' names. -/
theorem outputNames_nodup :
    (∀ ps, ((Projected.distinct ps).map (·.outputName)).Nodup) ∧
    (∀ q q' : Query, q.projection = none → q.process = .ok q' →
      (q'.columns.map (·.outputName)).Nodup) ∧
    ∀ registry text q ws, ofText registry text = .ok (q, ws) →
      (q.columns.map (·.outputName)).Nodup := by
  refine ⟨Projected.nodup_distinct, fun q q' => nodup_process, fun registry text q ws h => ?_⟩
  unfold ofText at h
  split at h
  · cases h
  · unfold Parser.run at h
    split at h
    · next hs =>
      cases h
      exact ensures_select registry _ _ _ hs
    · cases h

/-- A self-join whose qualified names meet an alias. -/
theorem outputNames_nodup_selfJoin :
    ∃ q q' : Query, q.projection = none ∧ q.process = .ok q' ∧
      (q'.columns.map (·.outputName)).Nodup ∧
      ∃ registry, ofText registry "SELECT p.x, q.x, p.x AS aX1 FROM a AS p, a AS q;" =
        .ok (q', []) ∧ (q'.columns.map (·.outputName)).Nodup := by
  let x : Column := .declare 0 "x" "TEXT"
  let a : Table := { Table.named 0 "a" with columns := [x] }
  let word (value : String) (n : Nat) : Token := ⟨value, .other, ⟨n, 0, n⟩⟩
  let q : Query := {
    sources := [⟨"p", a⟩, ⟨"q", a⟩]
    items := [.column (some (word "p" 7)) (word "x" 9) none,
      .column (some (word "q" 12)) (word "x" 14) none,
      .column (some (word "p" 17)) (word "x" 19) (some "aX1")] }
  let q' : Query := { q with
    projection := some (["AX2", "AX3", "AX1"].map fun name => { x with outputName := name }) }
  have hq : q.process = .ok q' := by decide +kernel
  have hs : ofText ⟨[a]⟩ "SELECT p.x, q.x, p.x AS aX1 FROM a AS p, a AS q;" = .ok (q', []) := by
    decide +kernel
  exact ⟨q, q', rfl, hq, outputNames_nodup.2.1 q q' rfl hq, ⟨[a]⟩, hs,
    outputNames_nodup.2.2 _ _ _ _ hs⟩

end Query

end SqliteSchema
