import Mathlib.Data.List.Induction
import PatternGen.Proofs.Gen.Outcomes

namespace PatternGen.Gen

variable {α β : Type} {items l : List α}

theorem land_length (u : List α) (a : α) : land u a u.length = u ++ [a] := by
  rw [land, List.getElem?_eq_none (Nat.le_refl _)]

theorem land_append (u v : List α) (a b : α) :
    land (u ++ b :: v) a u.length = u ++ a :: (v ++ [b]) := by
  simp [land]

theorem perm_exchange (u v : List α) (a b : α) :
    (u ++ a :: (v ++ [b])).Perm ((u ++ b :: v) ++ [a]) := by
  rw [List.append_assoc, List.cons_append]
  apply List.Perm.append_left
  calc
    (a :: (v ++ [b])).Perm (a :: b :: v) := (List.perm_append_singleton b v).cons a
    List.Perm _ (b :: a :: v) := .swap b a v
    List.Perm _ (b :: (v ++ [a])) := (List.perm_append_singleton a v).symm.cons b

/-- An item lands after all the others, or in place of one of them. -/
theorem land_cases {done : List α} (h : slot ≤ done.length) (a : α) :
    (slot = done.length ∧ land done a slot = done ++ [a]) ∨
      ∃ u v b, done = u ++ b :: v ∧ slot = u.length ∧ land done a slot = u ++ a :: (v ++ [b]) := by
  rcases Nat.lt_or_eq_of_le h with h | rfl
  · obtain ⟨u, v, b, rfl, rfl⟩ : ∃ u v b, done = u ++ b :: v ∧ slot = u.length := by
      refine ⟨done.take slot, done.drop (slot + 1), done[slot], ?_, ?_⟩
      · rw [← List.drop_eq_getElem_cons h, List.take_append_drop]
      · rw [List.length_take_of_le (Nat.le_of_lt h)]
    exact .inr ⟨u, v, b, rfl, rfl, land_append u v a b⟩
  · exact .inl ⟨rfl, land_length done a⟩

theorem perm_land (done : List α) (a : α) (slot : Nat) : (land done a slot).Perm (done ++ [a]) := by
  by_cases h : slot ≤ done.length
  · rcases land_cases h a with ⟨-, hland⟩ | ⟨u, v, b, rfl, -, hland⟩
    · rw [hland]
    · rw [hland]
      exact perm_exchange u v a b
  · rw [land, List.getElem?_eq_none (Nat.le_of_not_le h)]

/-- Where an item stands in an arrangement, it can have landed there as the last one. -/
theorem exists_land (h : l.Perm (items ++ [a])) :
    ∃ done, ∃ slot : Fin (done.length + 1), done.Perm items ∧ land done a slot = l := by
  have ha : a ∈ l := h.mem_iff.2 (List.mem_append_right items (List.mem_singleton_self a))
  obtain ⟨u, v, rfl⟩ := List.append_of_mem ha
  rcases List.eq_nil_or_concat v with rfl | ⟨v, b, rfl⟩
  · refine ⟨u, ⟨u.length, Nat.lt_succ_self _⟩, ?_, land_length u a⟩
    exact (List.perm_append_right_iff [a]).1 h
  · rw [List.concat_eq_append] at h ⊢
    have hslot : u.length < (u ++ b :: v).length + 1 := by
      rw [List.length_append]
      omega
    refine ⟨u ++ b :: v, ⟨u.length, hslot⟩, ?_, land_append u v a b⟩
    exact (List.perm_append_right_iff [a]).1 ((perm_exchange u v a b).symm.trans h)

theorem shuffleOnto_append (done xs ys : List α) :
    shuffleOnto done (xs ++ ys) = (shuffleOnto done xs).bind fun d => shuffleOnto d ys := by
  induction xs generalizing done with
  | nil => rfl
  | cons x xs ih =>
    rw [List.cons_append, shuffleOnto, shuffleOnto, bind_assoc]
    simp only [ih]

theorem yields_shuffle_append_singleton_iff :
    (shuffle (items ++ [a])).Yields l ↔
      ∃ done, (shuffle items).Yields done ∧
        ∃ slot : Fin (done.length + 1), land done a slot = l := by
  rw [shuffle, shuffleOnto_append, yields_bind_iff]
  apply exists_congr
  intro done
  apply and_congr_right
  intro _
  rw [shuffleOnto, yields_bind_iff]
  constructor
  · intro h
    obtain ⟨slot, -, h⟩ := h
    exact ⟨slot, h.symm⟩
  · intro h
    obtain ⟨slot, h⟩ := h
    exact ⟨slot, yields_choose _ slot, h.symm⟩

theorem yields_shuffle_iff : (shuffle items).Yields l ↔ l.Perm items := by
  induction items using List.reverseRecOn generalizing l with
  | nil => exact List.perm_nil.symm
  | append_singleton items a ih =>
    rw [yields_shuffle_append_singleton_iff]
    simp only [ih]
    constructor
    · intro h
      obtain ⟨done, hdone, slot, rfl⟩ := h
      exact (perm_land done a slot).trans (hdone.append_right [a])
    · intro h
      obtain ⟨done, slot, hdone, hl⟩ := exists_land h
      exact ⟨done, hdone, slot, hl⟩

theorem answerable_shuffle (items : List α) : (shuffle items).Answerable := by
  have honto (done : List α) : (shuffleOnto done items).Answerable := by
    induction items generalizing done with
    | nil => trivial
    | cons a items ih =>
      apply (answerable_choose _ (Nat.succ_pos _)).bind
      intro slot _
      exact ih _
  exact honto []

theorem land_map (f : α → β) (done : List α) (a : α) (slot : Nat) :
    land (done.map f) (f a) slot = (land done a slot).map f := by
  rw [land, land, List.getElem?_map]
  cases done[slot]? with
  | none => simp
  | some b => simp [List.map_set]

/-- The slots are drawn without a look at the items. -/
theorem shuffle_map (f : α → β) (items : List α) :
    shuffle (items.map f) = (shuffle items).map (List.map f) := by
  have honto (done : List α) :
      shuffleOnto (done.map f) (items.map f) = (shuffleOnto done items).map (List.map f) := by
    induction items generalizing done with
    | nil => rfl
    | cons a items ih =>
      rw [List.map_cons, shuffleOnto, shuffleOnto, List.length_map, map, bind_assoc]
      simp only [land_map, ih]
      rfl
  exact honto []

end PatternGen.Gen
