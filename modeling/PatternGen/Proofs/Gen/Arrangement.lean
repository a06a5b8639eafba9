import Mathlib.Algebra.BigOperators.Field
import Mathlib.Algebra.Field.Rat
import Mathlib.Data.List.Permutation
import Mathlib.Data.Set.Card
import PatternGen.Proofs.Gen.Shuffle

namespace PatternGen.Gen

variable {α β σ : Type} {g : Gen α} {items l : List α} {slots : List Nat}

/-- The mean of a number that depends on the value drawn, where all answers to a draw are equally
likely whatever the answers to the draws before it. -/
def mean : Gen α → (α → ℚ) → ℚ
  | constant a, f => f a
  | draw d next, f => (∑ i, (next i).mean f) / d.size

/-- How likely a value is drawn, where all answers to a draw are equally likely. -/
def chance [DecidableEq α] (g : Gen α) (a : α) : ℚ := g.mean fun b => if b = a then 1 else 0

theorem mean_bind (g : Gen α) (h : α → Gen β) (f : β → ℚ) :
    (g.bind h).mean f = g.mean fun a => (h a).mean f := by
  induction g with
  | constant a => rfl
  | draw d next ih =>
    rw [bind, mean, mean]
    simp only [ih]

theorem mean_congr {f f' : α → ℚ} (h : ∀ a, g.Yields a → f a = f' a) : g.mean f = g.mean f' := by
  induction g with
  | constant a => exact h a rfl
  | draw d next ih =>
    rw [mean, mean]
    congr 1
    apply Finset.sum_congr rfl
    intro i _
    exact ih i fun a ha => h a ⟨i, ha⟩

theorem mean_div (g : Gen α) (f : α → ℚ) (x : ℚ) : (g.mean fun a => f a / x) = g.mean f / x := by
  induction g with
  | constant a => rfl
  | draw d next ih =>
    rw [mean, mean]
    simp only [ih, ← Finset.sum_div, div_right_comm]

/-- A slot for each of `n` items, among those of the items before it and its own. -/
structure Slots (n : Nat) (slots : List Nat) : Prop where
  length_eq : slots.length = n
  le : ∀ i j : Nat, slots[i]? = some j → j ≤ i

def arranged (items : List α) (slots : List Nat) : List α :=
  (items.zip slots).foldl (fun done x => land done x.1 x.2) []

theorem slots_zero_iff : Slots 0 slots ↔ slots = [] := by
  constructor
  · intro h
    exact List.length_eq_zero_iff.1 h.length_eq
  · rintro rfl
    exact ⟨rfl, by simp⟩

theorem slots_succ_iff :
    Slots (n + 1) slots ↔ ∃ s j, slots = s ++ [j] ∧ Slots n s ∧ j ≤ n := by
  constructor
  · intro h
    rcases List.eq_nil_or_concat slots with rfl | ⟨s, j, rfl⟩
    · cases h.length_eq
    · rw [List.concat_eq_append] at h ⊢
      have hn : s.length = n := by simpa using h.length_eq
      refine ⟨s, j, rfl, ⟨hn, ?_⟩, ?_⟩
      · intro i k hk
        obtain ⟨hi, -⟩ := List.getElem?_eq_some_iff.1 hk
        exact h.le i k (by rw [List.getElem?_append_left hi, hk])
      · exact hn ▸ h.le s.length j (by simp)
  · intro h
    obtain ⟨s, j, rfl, hs, hj⟩ := h
    refine ⟨by simp [hs.length_eq], ?_⟩
    intro i k hk
    rcases Nat.lt_or_ge i s.length with hi | hi
    · exact hs.le i k (by rwa [List.getElem?_append_left hi] at hk)
    · rw [List.getElem?_append_right hi, List.getElem?_singleton] at hk
      split at hk
      · cases hk
        have hn := hs.length_eq
        omega
      · cases hk

theorem arranged_append_singleton (h : Slots items.length slots) (a : α)
    (j : Nat) : arranged (items ++ [a]) (slots ++ [j]) = land (arranged items slots) a j := by
  rw [arranged, List.zip_append h.length_eq.symm, List.foldl_append]
  rfl

theorem shuffle_append_singleton (items : List α) (a : α) :
    shuffle (items ++ [a]) = (shuffle items).bind fun done =>
      draw (.below .word64 (done.length + 1)) fun slot => constant (land done a slot) := by
  rw [shuffle, shuffleOnto_append]
  rfl

theorem arranged_perm (h : Slots items.length slots) : (arranged items slots).Perm items := by
  induction items using List.reverseRecOn generalizing slots with
  | nil =>
    cases slots_zero_iff.1 h
    exact .nil
  | append_singleton items a ih =>
    rw [List.length_append] at h
    obtain ⟨s, j, rfl, hs, -⟩ := slots_succ_iff.1 h
    rw [arranged_append_singleton hs]
    exact (perm_land _ a j).trans ((ih hs).append_right [a])

theorem run_shuffle_append_singleton {m : Sampler σ} (h : (shuffle items).run m s = some (done, t))
    (a : α) :
    (shuffle (items ++ [a])).run m s =
      let answer := m.draw (.below .word64 (done.length + 1)) (Nat.succ_pos _) t
      some (land done a answer.1, answer.2) := by
  have hpos : 0 < (Draw.below .word64 (done.length + 1)).size := Nat.succ_pos _
  rw [shuffle_append_singleton, run_bind, h, Option.bind_some, run, dif_pos hpos]
  rfl

/-- Whatever the source, a shuffle draws a slot for each item and puts the items there. -/
theorem exists_run_shuffle (items : List α) (m : Sampler σ) (s : σ) :
    ∃ slots t, Slots items.length slots ∧
      (shuffle items).run m s = some (arranged items slots, t) := by
  induction items using List.reverseRecOn with
  | nil => exact ⟨[], s, slots_zero_iff.2 rfl, rfl⟩
  | append_singleton items a ih =>
    obtain ⟨slots, t, hslots, hrun⟩ := ih
    have hlength := (arranged_perm hslots).length_eq
    let answer := m.draw (.below .word64 ((arranged items slots).length + 1)) (Nat.succ_pos _) t
    have hj : answer.1.val < (arranged items slots).length + 1 := answer.1.isLt
    refine ⟨slots ++ [answer.1.val], answer.2, ?_, ?_⟩
    · rw [List.length_append]
      exact slots_succ_iff.2 ⟨slots, _, rfl, hslots, by omega⟩
    · rw [run_shuffle_append_singleton hrun, arranged_append_singleton hslots]

/-- The source that answers with these slots is asked for them and for nothing else. -/
theorem run_scripted_shuffle (h : Slots items.length slots) (rest : List Nat) :
    (shuffle items).run scripted (slots ++ rest) = some (arranged items slots, rest) := by
  induction items using List.reverseRecOn generalizing slots rest with
  | nil =>
    cases slots_zero_iff.1 h
    rfl
  | append_singleton items a ih =>
    rw [List.length_append] at h
    obtain ⟨s, j, rfl, hs, hj⟩ := slots_succ_iff.1 h
    have hlength := (arranged_perm hs).length_eq
    have hmod : j % ((arranged items s).length + 1) = j := Nat.mod_eq_of_lt (by omega)
    rw [List.append_assoc, run_shuffle_append_singleton (ih hs ([j] ++ rest)),
      arranged_append_singleton hs]
    change some (land (arranged items s) a (j % ((arranged items s).length + 1)), rest) = _
    rw [hmod]

/-- The place of an item tells the slot that it has landed on, and what was there before. -/
theorem land_inj {done done' : List α} {slot slot' : Nat} (ha : a ∉ done)
    (hslot : slot ≤ done.length) (hslot' : slot' ≤ done'.length)
    (h : land done a slot = land done' a slot') : done = done' ∧ slot = slot' := by
  rcases land_cases hslot a with ⟨rfl, hl⟩ | ⟨u, v, b, rfl, rfl, hl⟩ <;>
    rcases land_cases hslot' a with ⟨rfl, hl'⟩ | ⟨u', v', b', rfl, rfl, hl'⟩ <;>
      rw [hl, hl'] at h
  · cases (List.append_left_inj [a]).1 h
    exact ⟨rfl, rfl⟩
  · obtain ⟨-, -, hnil⟩ := (List.append_cons_inj_of_notMem ha List.not_mem_nil).1 h
    simp at hnil
  · have hu : a ∉ u := fun hu => ha (List.mem_append_left _ hu)
    have hv : a ∉ v ++ [b] := by grind
    obtain ⟨-, -, hnil⟩ := (List.append_cons_inj_of_notMem hu hv).1 h
    simp at hnil
  · have hu : a ∉ u := fun hu => ha (List.mem_append_left _ hu)
    have hv : a ∉ v ++ [b] := by grind
    obtain ⟨rfl, -, hvb⟩ := (List.append_cons_inj_of_notMem hu hv).1 h
    obtain ⟨rfl, hb⟩ := List.append_inj' hvb rfl
    cases hb
    exact ⟨rfl, rfl⟩

theorem not_mem_of_perm {d : List α} (h : (items ++ [a]).Nodup) (hd : d.Perm items) : a ∉ d := by
  rw [hd.mem_iff]
  intro ha
  exact List.disjoint_of_nodup_append h ha (List.mem_singleton_self a)

theorem injOn_arranged (h : items.Nodup) :
    Set.InjOn (arranged items) {slots | Slots items.length slots} := by
  induction items using List.reverseRecOn with
  | nil =>
    intro s hs s' hs' _
    rw [slots_zero_iff.1 hs, slots_zero_iff.1 hs']
  | append_singleton items a ih =>
    intro r hr r' hr' heq
    rw [Set.mem_ofPred_eq, List.length_append] at hr hr'
    obtain ⟨s, j, rfl, hs, hj⟩ := slots_succ_iff.1 hr
    obtain ⟨s', j', rfl, hs', hj'⟩ := slots_succ_iff.1 hr'
    rw [arranged_append_singleton hs, arranged_append_singleton hs'] at heq
    have ha := not_mem_of_perm h (arranged_perm hs)
    have hl := (arranged_perm hs).length_eq
    have hl' := (arranged_perm hs').length_eq
    obtain ⟨hdone, rfl⟩ := land_inj ha (by omega) (by omega) heq
    rw [ih h.of_append_left hs hs' hdone]

theorem surjOn_arranged (items : List α) :
    Set.SurjOn (arranged items) {slots | Slots items.length slots} {l | l.Perm items} := by
  induction items using List.reverseRecOn with
  | nil =>
    intro l hl
    exact ⟨[], slots_zero_iff.2 rfl, (List.perm_nil.1 hl).symm⟩
  | append_singleton items a ih =>
    intro l hl
    obtain ⟨done, slot, hdone, rfl⟩ := exists_land hl
    obtain ⟨s, hs, rfl⟩ := ih hdone
    have hslot := slot.isLt
    have hlength := (arranged_perm hs).length_eq
    refine ⟨s ++ [slot.val], ?_, arranged_append_singleton hs a slot⟩
    rw [Set.mem_ofPred_eq, List.length_append]
    exact slots_succ_iff.2 ⟨s, slot, rfl, hs, by omega⟩

theorem bijOn_arranged (h : items.Nodup) :
    Set.BijOn (arranged items) {slots | Slots items.length slots} {l | l.Perm items} :=
  ⟨fun _ => arranged_perm, injOn_arranged h, surjOn_arranged items⟩

theorem ncard_perm (h : items.Nodup) :
    {l : List α | l.Perm items}.ncard = items.length.factorial := by
  classical
  have hset : {l : List α | l.Perm items} = items.permutations.toFinset := by
    ext l
    simp
  rw [hset, Set.ncard_coe_finset, List.toFinset_card_of_nodup (List.nodup_permutations _ h),
    List.length_permutations]

/-- Of the slots for one more item, just one leads to an arrangement if the others stand as they
have to, and none if they do not. -/
theorem mean_land [DecidableEq α] {d done : List α} {slot : Nat} (ha : a ∉ d)
    (hd : d.length = done.length) (hslot : slot ≤ done.length) :
    (draw (.below .word64 (d.length + 1)) fun j => constant (land d a j)).mean
      (fun b => if b = land done a slot then 1 else 0) =
        (if d = done then 1 else 0) / (done.length + 1) := by
  have hlt : slot < d.length + 1 := Nat.lt_succ_of_le (hd ▸ hslot)
  have hland (j : Fin (d.length + 1)) :
      land d a j = land done a slot ↔ d = done ∧ j = ⟨slot, hlt⟩ := by
    constructor
    · intro h
      obtain ⟨hdone, hj⟩ := land_inj ha (Nat.le_of_lt_succ j.isLt) hslot h
      exact ⟨hdone, Fin.ext hj⟩
    · rintro ⟨rfl, rfl⟩
      rfl
  change (∑ j : Fin (d.length + 1), if land d a j = land done a slot then (1 : ℚ) else 0) /
    ((d.length + 1 : Nat) : ℚ) = _
  simp only [hland, hd]
  by_cases h : d = done <;> simp [h]

theorem chance_shuffle [DecidableEq α] (h : items.Nodup) (hl : l.Perm items) :
    (shuffle items).chance l = 1 / items.length.factorial := by
  induction items using List.reverseRecOn generalizing l with
  | nil =>
    cases List.perm_nil.1 hl
    simp [shuffle, shuffleOnto, chance, mean]
  | append_singleton items a ih =>
    obtain ⟨done, slot, hdone, rfl⟩ := exists_land hl
    calc (shuffle (items ++ [a])).chance (land done a slot)
      _ = (shuffle items).mean fun d => (if d = done then 1 else 0) / (done.length + 1) := by
        rw [chance, shuffle_append_singleton, mean_bind]
        apply mean_congr
        intro d hd
        have hperm := yields_shuffle_iff.1 hd
        have ha := not_mem_of_perm h hperm
        exact mean_land ha (hperm.trans hdone.symm).length_eq (Nat.le_of_lt_succ slot.isLt)
      _ = (shuffle items).chance done / (done.length + 1) := mean_div _ _ _
      _ = 1 / (items ++ [a]).length.factorial := by
        rw [ih h.of_append_left hdone, hdone.length_eq, div_div, List.length_append,
          List.length_singleton, Nat.factorial_succ, Nat.cast_mul, Nat.cast_succ, mul_comm]

/-- With any slots, the items are rearranged. Items without repeats have as many arrangements as
there are slots to choose, each from slots of its own, and so all are equally likely. -/
theorem shuffle_uniform [DecidableEq α] (items : List α) :
    (∀ slots, Slots items.length slots →
      (shuffle items).run scripted slots = some (arranged items slots, []) ∧
        (arranged items slots).Perm items) ∧
    (∀ (σ : Type) (m : Sampler σ) (s : σ), ∃ slots t, Slots items.length slots ∧
      (shuffle items).run m s = some (arranged items slots, t)) ∧
    (items.Nodup →
      Set.BijOn (arranged items) {slots | Slots items.length slots} {l | l.Perm items} ∧
      {l : List α | l.Perm items}.ncard = items.length.factorial ∧
      ∀ l, l.Perm items → (shuffle items).chance l = 1 / items.length.factorial) := by
  refine ⟨?_, fun σ m s => exists_run_shuffle items m s, ?_⟩
  · intro slots h
    have hrun := run_scripted_shuffle h []
    rw [List.append_nil] at hrun
    exact ⟨hrun, arranged_perm h⟩
  · intro h
    exact ⟨bijOn_arranged h, ncard_perm h, fun l => chance_shuffle h⟩

/-- Of three items, the third can move the first one to the end. -/
theorem shuffle_uniform_three :
    Slots 3 [0, 1, 0] ∧ ['a', 'b', 'c'].Nodup ∧
      (shuffle ['a', 'b', 'c']).run scripted [0, 1, 0] = some (['c', 'b', 'a'], []) ∧
      (shuffle ['a', 'b', 'c']).chance ['c', 'b', 'a'] = 1 / Nat.factorial 3 := by
  have hslots : Slots 3 [0, 1, 0] :=
    slots_succ_iff.2 ⟨[0, 1], 0, rfl, slots_succ_iff.2 ⟨[0], 1, rfl, slots_succ_iff.2
      ⟨[], 0, rfl, slots_zero_iff.2 rfl, by decide⟩, by decide⟩, by decide⟩
  have hnodup : ['a', 'b', 'c'].Nodup := by decide
  obtain ⟨hall, -, huniform⟩ := shuffle_uniform ['a', 'b', 'c']
  obtain ⟨hrun, hperm⟩ := hall [0, 1, 0] hslots
  obtain ⟨-, -, hchance⟩ := huniform hnodup
  exact ⟨hslots, hnodup, hrun, hchance _ hperm⟩

end PatternGen.Gen
