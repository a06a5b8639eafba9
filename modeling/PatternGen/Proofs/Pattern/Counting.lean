import Mathlib.Data.List.Nodup
import PatternGen.Proofs.Pattern.Listing

namespace PatternGen

open Text

/-- The number of indices below `n` at which a look-up finds the value. -/
def timesFound {α : Type} [DecidableEq α] (get : Nat → Option α) (n : Nat) (a : α) : Nat :=
  (List.range n).countP fun i => get i = some a

section Found

variable {α : Type} {get : Nat → Option α} {l : List α}

theorem map_range_eq_map_some (h : ∀ i, get i = l[i]?) :
    (List.range l.length).map get = l.map some := by
  apply List.ext_getElem
  · rw [List.length_map, List.length_range, List.length_map]
  · intro i hi _
    rw [List.length_map, List.length_range] at hi
    rw [List.getElem_map, List.getElem_range, h, List.getElem_map, List.getElem?_eq_getElem hi]

theorem filterMap_range_eq (h : ∀ i, get i = l[i]?) :
    (List.range l.length).filterMap get = l := by
  have hfound := congrArg (List.filterMap id) (map_range_eq_map_some h)
  rwa [List.filterMap_map, List.filterMap_map, Function.id_comp, Function.id_comp,
    List.filterMap_some] at hfound

/-- A value is found as often as it stands in the list that is looked up. -/
theorem timesFound_eq_count [DecidableEq α] (h : ∀ i, get i = l[i]?) (a : α) :
    timesFound get l.length a = l.count a := by
  have hfound := congrArg (List.countP fun o => decide (o = some a)) (map_range_eq_map_some h)
  rw [List.countP_map, List.countP_map] at hfound
  rw [List.count_eq_countP]
  refine hfound.trans (List.countP_congr ?_)
  intro b _
  simp

end Found

namespace ClassItem

theorem ordinal_of_get?_range (h : (range first last).get? i = some c) :
    ordinal c = ordinal first + i := by
  rw [get?_range] at h
  split at h
  · exact ofOrdinal?_eq_some_iff.1 h
  · cases h

theorem lt_of_get?_range (hij : i < j) (hc : (range first last).get? i = some c)
    (hd : (range first last).get? j = some d) : c < d := by
  rw [← ordinal_lt_iff, ordinal_of_get?_range hc, ordinal_of_get?_range hd]
  exact Nat.add_lt_add_left hij _

theorem ascending_chars (e : ClassItem) : e.chars.Pairwise (· < ·) := by
  cases e with
  | single c => exact List.pairwise_singleton _ _
  | range first last =>
    rw [List.pairwise_iff_getElem]
    intro i j hi hj hij
    apply lt_of_get?_range hij
    · rw [← getElem?_chars, List.getElem?_eq_getElem hi]
    · rw [← getElem?_chars, List.getElem?_eq_getElem hj]

/-- An item lists no character twice. -/
theorem count_chars (e : ClassItem) (c : Char) :
    e.chars.count c = if e.contains c then 1 else 0 := by
  have hnodup : e.chars.Nodup := (ascending_chars e).imp fun h => Char.ne_of_lt h
  simp only [hnodup.count, mem_chars_iff]

/-- The number of surrogates among the code points of a range. -/
def surrogatesIn (first last : Char) : Nat :=
  if first.toNat < 0xd800 ∧ 0xe000 ≤ last.toNat then 0x800 else 0

/-- A range counts its code points without the surrogates. -/
theorem count_range (first last : Char) :
    (range first last).count = last.toNat + 1 - first.toNat - surrogatesIn first last := by
  have hf : first.toNat < 0xd800 ∨ 0xdfff < first.toNat ∧ first.toNat < 0x110000 := first.valid
  have hl : last.toNat < 0xd800 ∨ 0xdfff < last.toNat ∧ last.toNat < 0x110000 := last.valid
  rw [count, ordinal, ordinal, surrogatesIn]
  split <;> split <;> split <;> omega

def codeAt (first : Char) (i : Nat) : Nat :=
  if first.toNat < 0xd800 ∧ 0xd800 ≤ first.toNat + i then first.toNat + i + 0x800
  else first.toNat + i

theorem toNat_of_get?_range (h : (range first last).get? i = some c) :
    c.toNat = codeAt first i := by
  have hc := ordinal_of_get?_range h
  have hf : first.toNat < 0xd800 ∨ 0xdfff < first.toNat ∧ first.toNat < 0x110000 := first.valid
  have hv : c.toNat < 0xd800 ∨ 0xdfff < c.toNat ∧ c.toNat < 0x110000 := c.valid
  rw [ordinal, ordinal] at hc
  rw [codeAt]
  split at hc <;> split at hc <;> split <;> omega

end ClassItem

/-- A look-up finds the characters from `first` to `last` in ascending order, and their code points
are those of the range without the surrogates. -/
structure Enumerates (get : Nat → Option Char) (first last : Char) (n : Nat) : Prop where
  isSome_iff : ∀ i, (get i).isSome ↔ i < n
  mem_iff : ∀ c, (∃ i, get i = some c) ↔ first ≤ c ∧ c ≤ last
  ascending : ∀ {i j c d}, i < j → get i = some c → get j = some d → c < d
  toNat_eq : ∀ {i c}, get i = some c → c.toNat = ClassItem.codeAt first i
  count_eq : n = last.toNat + 1 - first.toNat - ClassItem.surrogatesIn first last

theorem ClassItem.enumerates_range (first last : Char) :
    Enumerates (range first last).get? first last (range first last).count where
  isSome_iff _ := isSome_get?_iff
  mem_iff c := by
    rw [exists_get?_eq_some_iff, contains, Bool.and_eq_true, decide_eq_true_eq, decide_eq_true_eq]
  ascending hij hc hd := lt_of_get?_range hij hc hd
  toNat_eq h := toNat_of_get?_range h
  count_eq := count_range first last

namespace CharClass

def timesListed (k : CharClass) (c : Char) : Nat := k.items.countP (·.contains c)

theorem timesListed_pos_iff {k : CharClass} : 0 < k.timesListed c ↔ k.contains c := by
  rw [timesListed, List.countP_pos_iff, contains_iff]

theorem count_flatMap_chars (items : List ClassItem) (c : Char) :
    (items.flatMap ClassItem.chars).count c = items.countP (·.contains c) := by
  induction items with
  | nil => rfl
  | cons e items ih =>
    rw [List.flatMap_cons, List.count_append, ClassItem.count_chars, ih, List.countP_cons,
      Nat.add_comm]

theorem timesFound_getItem? (items : List ClassItem) (c : Char) :
    timesFound (getItem? items) (countItems items) c = items.countP (·.contains c) := by
  have hget (i : Nat) : getItem? items i = (items.flatMap ClassItem.chars)[i]? :=
    (getElem?_flatMap_chars items i).symm
  rw [← length_flatMap_chars, timesFound_eq_count hget, count_flatMap_chars]

/-- The indices of an item come after those of the items before it. -/
theorem getItem?_append_cons {e : ClassItem} (before after : List ClassItem) (h : i < e.count) :
    getItem? (before ++ e :: after) (countItems before + i) = e.get? i := by
  rw [← getElem?_flatMap_chars, List.flatMap_append, ← length_flatMap_chars,
    List.getElem?_append_right (Nat.le_add_right _ _), Nat.add_sub_cancel_left,
    getElem?_flatMap_chars, getItem?, if_pos h]

/-- The indices of a class are those below its count, each item has its own in a row, those of a
range ascend, and each character has as many as there are items that contain it. -/
theorem indices_agree (k : CharClass) :
    (∀ i, (k.get? i).isSome ↔ i < k.count) ∧
    (∀ before e after, k.items = before ++ e :: after →
      (∀ i, i < e.count → k.get? (countItems before + i) = e.get? i) ∧
      ∀ first last, e = .range first last → Enumerates e.get? first last e.count) ∧
    ∀ c, timesFound k.get? k.count c = k.timesListed c ∧
      (k.contains c ↔ ∃ i, k.get? i = some c) := by
  refine ⟨fun i => isSome_getItem?_iff, ?_, ?_⟩
  · intro before e after hitems
    constructor
    · intro i hi
      rw [get?, hitems]
      exact getItem?_append_cons before after hi
    · rintro first last rfl
      exact ClassItem.enumerates_range first last
  · intro c
    exact ⟨timesFound_getItem? k.items c, contains_iff.trans exists_getItem?_eq_some_iff.symm⟩

/-- A range over the gap between other items, one of them empty. -/
theorem indices_agree_surrogates :
    let k : CharClass :=
      ⟨true, [.single 'b', .range '\ud7ff' '\ue001', .range 'z' 'a', .range 'a' 'c']⟩
    timesFound k.get? k.count 'b' = 2 ∧ k.get? 2 = some '\ue000' ∧ ¬ (k.get? 7).isSome ∧
      Enumerates (ClassItem.range '\ud7ff' '\ue001').get? '\ud7ff' '\ue001' 3 := by
  intro k
  obtain ⟨hsome, hitems, hfound⟩ := indices_agree k
  obtain ⟨hget, henum⟩ := hitems [.single 'b'] (.range '\ud7ff' '\ue001') _ rfl
  refine ⟨(hfound 'b').1.trans (by decide), ?_, mt (hsome 7).1 (by decide), henum _ _ rfl⟩
  exact (hget 1 (by decide)).trans (by decide)

end CharClass

end PatternGen
