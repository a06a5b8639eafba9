import Mathlib.Data.List.Basic
import PatternGen.Pattern.CharClass

namespace PatternGen

open Text

namespace ClassItem

theorem get?_single (s : Char) (i : Nat) :
    (single s).get? i = if i < 1 then some s else none := rfl

theorem get?_range (first last : Char) (i : Nat) :
    (range first last).get? i =
      if i < ordinal last + 1 - ordinal first then ofOrdinal? (ordinal first + i) else none := rfl

theorem exists_get?_eq_some_iff {e : ClassItem} :
    (∃ i, e.get? i = some c) ↔ e.contains c := by
  cases e with
  | single s =>
    rw [contains, beq_iff_eq]
    constructor
    · intro h
      obtain ⟨i, h⟩ := h
      rw [get?_single] at h
      split at h
      · exact Option.some.inj h
      · cases h
    · rintro rfl
      exact ⟨0, rfl⟩
  | range first last =>
    rw [contains, Bool.and_eq_true, decide_eq_true_eq, decide_eq_true_eq, ← ordinal_le_iff,
      ← ordinal_le_iff]
    constructor
    · intro h
      obtain ⟨i, h⟩ := h
      rw [get?_range] at h
      split at h
      · have hc := ofOrdinal?_eq_some_iff.1 h
        omega
      · cases h
    · intro h
      obtain ⟨hf, hl⟩ := h
      refine ⟨ordinal c - ordinal first, ?_⟩
      rw [get?_range, if_pos (by omega), ofOrdinal?_eq_some_iff]
      omega

theorem mem_chars_iff {e : ClassItem} : c ∈ e.chars ↔ e.contains c := by
  rw [chars, List.mem_filterMap, ← exists_get?_eq_some_iff]
  constructor
  · intro h
    obtain ⟨i, -, h⟩ := h
    exact ⟨i, h⟩
  · intro h
    obtain ⟨i, h⟩ := h
    have hi := isSome_get?_iff.1 (Option.isSome_of_eq_some h)
    exact ⟨i, List.mem_range.2 hi, h⟩

theorem map_some_chars (e : ClassItem) : e.chars.map some = (List.range e.count).map e.get? := by
  rw [chars, List.map_filterMap, List.filterMap_eq_map_iff_forall_eq_some]
  intro i hi
  obtain ⟨c, hc⟩ := Option.isSome_iff_exists.1 (isSome_get?_iff.2 (List.mem_range.1 hi))
  rw [hc, Option.map_some]

theorem length_chars (e : ClassItem) : e.chars.length = e.count := by
  rw [← List.length_map, map_some_chars, List.length_map, List.length_range]

theorem getElem?_chars (e : ClassItem) (i : Nat) : e.chars[i]? = e.get? i := by
  by_cases hi : i < e.count
  · have h := congrArg (·[i]?) (map_some_chars e)
    simp only [List.getElem?_map, List.getElem?_range hi, Option.map_some] at h
    obtain ⟨c, hc⟩ := Option.isSome_iff_exists.1 (isSome_get?_iff.2 hi)
    rw [hc, Option.map_eq_some_iff] at h
    obtain ⟨d, hd, hdc⟩ := h
    rw [hd, hdc, hc]
  · have hnone := mt isSome_get?_iff.1 hi
    rw [Option.not_isSome_iff_eq_none] at hnone
    rw [hnone, List.getElem?_eq_none_iff, length_chars]
    exact Nat.le_of_not_lt hi

end ClassItem

namespace CharClass

theorem exists_getItem?_eq_some_iff {items : List ClassItem} :
    (∃ i, getItem? items i = some c) ↔ ∃ e ∈ items, e.contains c := by
  induction items with
  | nil => simp [getItem?]
  | cons e items ih =>
    simp only [List.mem_cons, exists_eq_or_imp]
    rw [← ih, ← ClassItem.exists_get?_eq_some_iff]
    constructor
    · intro h
      obtain ⟨i, h⟩ := h
      rw [getItem?] at h
      split at h
      · exact .inl ⟨i, h⟩
      · exact .inr ⟨_, h⟩
    · intro h
      rcases h with ⟨i, h⟩ | ⟨i, h⟩
      · have hi := ClassItem.isSome_get?_iff.1 (Option.isSome_of_eq_some h)
        exact ⟨i, by rw [getItem?, if_pos hi, h]⟩
      · refine ⟨e.count + i, ?_⟩
        rw [getItem?, if_neg (by omega), Nat.add_sub_cancel_left, h]

theorem length_flatMap_chars (items : List ClassItem) :
    (items.flatMap ClassItem.chars).length = countItems items := by
  induction items with
  | nil => rfl
  | cons e items ih =>
    rw [List.flatMap_cons, List.length_append, ClassItem.length_chars, ih, countItems]

theorem getElem?_flatMap_chars (items : List ClassItem) (i : Nat) :
    (items.flatMap ClassItem.chars)[i]? = getItem? items i := by
  induction items generalizing i with
  | nil => rfl
  | cons e items ih =>
    rw [List.flatMap_cons, getItem?, List.getElem?_append, ClassItem.length_chars,
      ClassItem.getElem?_chars, ih]

theorem contains_iff {k : CharClass} : k.contains c ↔ ∃ e ∈ k.items, e.contains c := by
  rw [contains, List.any_eq_true]

theorem mem_chars_iff {k : CharClass} : c ∈ k.chars ↔ k.contains c := by
  simp only [chars, List.mem_flatMap, ClassItem.mem_chars_iff, contains_iff]

end CharClass

end PatternGen
