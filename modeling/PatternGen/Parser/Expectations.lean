namespace PatternGen

structure Expectations where
  items : List String
  ascending : items.Pairwise (· < ·)
  deriving DecidableEq

namespace Expectations

instance : Membership String Expectations where
  mem e s := s ∈ e.items

theorem mem_def {s : String} {e : Expectations} : s ∈ e ↔ s ∈ e.items := Iff.rfl

/-- An ascending list with one more description, at its place. -/
def place (s : String) : List String → List String
  | [] => [s]
  | t :: ts => if s < t then s :: t :: ts else if s = t then t :: ts else t :: place s ts

theorem mem_place {r s : String} {ts : List String} : r ∈ place s ts ↔ r = s ∨ r ∈ ts := by
  induction ts with
  | nil => simp [place]
  | cons t ts ih =>
    rw [place]
    split
    · simp
    · split
      · next h => simp [h]
      · simp only [List.mem_cons, ih]
        exact or_left_comm

theorem pairwise_place {s : String} {ts : List String} (h : ts.Pairwise (· < ·)) :
    (place s ts).Pairwise (· < ·) := by
  induction ts with
  | nil => simp [place]
  | cons t ts ih =>
    obtain ⟨ht, hts⟩ := List.pairwise_cons.1 h
    rw [place]
    split
    · next hs =>
      refine List.pairwise_cons.2 ⟨fun r hr => ?_, h⟩
      cases List.mem_cons.1 hr with
      | inl hr => exact hr ▸ hs
      | inr hr => exact String.lt_trans hs (ht r hr)
    · split
      · exact h
      · next hs hne =>
        refine List.pairwise_cons.2 ⟨fun r hr => ?_, ih hts⟩
        cases mem_place.1 hr with
        | inl hr =>
          rw [hr]
          exact String.not_le.1 fun hle => hne (String.le_antisymm hle (String.not_lt.1 hs))
        | inr hr => exact ht r hr

def empty : Expectations := ⟨[], .nil⟩

def insert (s : String) (e : Expectations) : Expectations :=
  ⟨place s e.items, pairwise_place e.ascending⟩

def singleton (s : String) : Expectations := ⟨[s], List.pairwise_singleton _ s⟩

def ofList (items : List String) : Expectations := items.foldr insert empty

def union (d e : Expectations) : Expectations := e.items.foldr insert d

theorem mem_insert {r s : String} {e : Expectations} : r ∈ e.insert s ↔ r = s ∨ r ∈ e := mem_place

theorem mem_foldr_insert {r : String} {items : List String} {e : Expectations} :
    r ∈ items.foldr insert e ↔ r ∈ items ∨ r ∈ e := by
  induction items with
  | nil => simp
  | cons s items ih => simp only [List.foldr_cons, mem_insert, ih, List.mem_cons, or_assoc]

theorem mem_union {r : String} {d e : Expectations} : r ∈ d.union e ↔ r ∈ d ∨ r ∈ e :=
  mem_foldr_insert.trans or_comm

theorem eq_of_pairwise {s t : List String} (hs : s.Pairwise (· < ·)) (ht : t.Pairwise (· < ·))
    (h : ∀ r, r ∈ s ↔ r ∈ t) : s = t := by
  induction s generalizing t with
  | nil => exact (List.eq_nil_iff_forall_not_mem.2 fun r hr => by simpa using (h r).2 hr).symm
  | cons a s ih =>
    cases t with
    | nil => simpa using (h a).1 List.mem_cons_self
    | cons b t =>
      obtain ⟨ha, hs'⟩ := List.pairwise_cons.1 hs
      obtain ⟨hb, ht'⟩ := List.pairwise_cons.1 ht
      have hab : a = b := by
        have hab := (h a).1 List.mem_cons_self
        have hba := (h b).2 List.mem_cons_self
        cases List.mem_cons.1 hab with
        | inl hab => exact hab
        | inr hab =>
          cases List.mem_cons.1 hba with
          | inl hba => exact hba.symm
          | inr hba => exact (String.lt_asymm (hb a hab) (ha b hba)).elim
      subst hab
      congr 1
      refine ih hs' ht' fun r => ?_
      have hr := h r
      simp only [List.mem_cons] at hr
      constructor
      · intro hrs
        cases hr.1 (.inr hrs) with
        | inl he => exact (String.lt_irrefl a (he ▸ ha r hrs)).elim
        | inr hrt => exact hrt
      · intro hrt
        cases hr.2 (.inr hrt) with
        | inl he => exact (String.lt_irrefl a (he ▸ hb r hrt)).elim
        | inr hrs => exact hrs

theorem eq_of_mem_iff {d e : Expectations} (h : ∀ r, r ∈ d ↔ r ∈ e) : d = e := by
  obtain ⟨s, hs⟩ := d
  obtain ⟨t, ht⟩ := e
  obtain rfl : s = t := eq_of_pairwise hs ht h
  rfl

end Expectations

end PatternGen
