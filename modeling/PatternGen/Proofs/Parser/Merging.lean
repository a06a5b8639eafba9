import Mathlib.Data.List.Dedup
import Mathlib.Data.List.Induction
import Mathlib.Data.List.ReduceOption
import PatternGen.Proofs.Parser.Trace

namespace PatternGen

namespace Failure

variable {f : Failure} {fs gs : List Failure}

/-- What the failures at an offset expect, in ascending order and each description once. -/
def expectedAt (n : Nat) (fs : List Failure) : List String :=
  ((fs.filter (·.offset = n)).flatMap (·.expected.items)).dedup.mergeSort

theorem mem_expectedAt {n : Nat} {s : String} :
    s ∈ expectedAt n fs ↔ ∃ g ∈ fs, g.offset = n ∧ s ∈ g.expected := by
  rw [expectedAt, List.mem_mergeSort, List.mem_dedup, List.mem_flatMap]
  constructor
  · intro h
    obtain ⟨g, hg, hs⟩ := h
    obtain ⟨hg, ho⟩ := List.mem_filter.1 hg
    exact ⟨g, hg, of_decide_eq_true ho, hs⟩
  · intro h
    obtain ⟨g, hg, ho, hs⟩ := h
    exact ⟨g, List.mem_filter.2 ⟨hg, decide_eq_true ho⟩, hs⟩

theorem pairwise_expectedAt (n : Nat) (fs : List Failure) :
    (expectedAt n fs).Pairwise (· < ·) := by
  have hle : (expectedAt n fs).Pairwise (fun s t => decide (s ≤ t)) := by
    apply List.pairwise_mergeSort
    · intro r s t hrs hst
      exact decide_eq_true (String.le_trans (of_decide_eq_true hrs) (of_decide_eq_true hst))
    · intro s t
      simpa using String.le_total s t
  have hne : (expectedAt n fs).Nodup := (List.mergeSort_perm _ _).nodup_iff.2 (List.nodup_dedup _)
  refine (hle.and hne).imp fun {s t} h => ?_
  exact String.not_le.1 fun hts => h.2 (String.le_antisymm (of_decide_eq_true h.1) hts)

theorem unites_iff :
    f.Unites fs ↔ (∃ g ∈ fs, g.offset = f.offset) ∧ (∀ g ∈ fs, g.offset ≤ f.offset) ∧
      f.expected.items = expectedAt f.offset fs := by
  constructor
  · intro h
    refine ⟨h.reached, h.furthest, ?_⟩
    apply Expectations.eq_of_pairwise f.expected.ascending (pairwise_expectedAt f.offset fs)
    intro s
    rw [mem_expectedAt]
    exact h.mem_expected_iff s
  · intro h
    obtain ⟨hreached, hfurthest, hitems⟩ := h
    refine ⟨hreached, hfurthest, fun s => ?_⟩
    rw [Expectations.mem_def, hitems, mem_expectedAt]

theorem summarizes_toList (e : Option Failure) : Summarizes e.toList e := by
  cases e with
  | none => rfl
  | some f => exact unites_singleton f

theorem Unites.ne_nil (hf : f.Unites fs) : fs ≠ [] := by
  obtain ⟨g, hg, -⟩ := hf.reached
  exact List.ne_nil_of_mem hg

theorem Unites.congr (hf : f.Unites fs) (h : ∀ g, g ∈ fs ↔ g ∈ gs) : f.Unites gs where
  reached := by
    obtain ⟨g, hg, ho⟩ := hf.reached
    exact ⟨g, (h g).1 hg, ho⟩
  furthest g hg := hf.furthest g ((h g).2 hg)
  mem_expected_iff s := by simp only [hf.mem_expected_iff, h]

end Failure

namespace Summarizes

variable {fs gs : List Failure} {e x : Option Failure}

/-- Neither the order of the failures matters nor how often each of them is listed. -/
theorem congr (he : Summarizes fs e) (h : ∀ f, f ∈ fs ↔ f ∈ gs) : Summarizes gs e := by
  cases e with
  | none =>
    cases (show fs = [] from he)
    exact List.eq_nil_iff_forall_not_mem.2 fun f hf => List.not_mem_nil ((h f).2 hf)
  | some f => exact Failure.Unites.congr he h

theorem unique (he : Summarizes fs e) (hx : Summarizes fs x) : e = x := by
  cases e with
  | none =>
    cases x with
    | none => rfl
    | some g => exact (Failure.Unites.ne_nil hx he).elim
  | some f =>
    cases x with
    | none => exact (Failure.Unites.ne_nil he hx).elim
    | some g => exact congrArg some (Failure.Unites.unique he hx)

theorem eq_none_iff (he : Summarizes fs e) : e = none ↔ fs = [] := by
  constructor
  · intro h
    cases h
    exact he
  · intro h
    exact he.unique (show Summarizes fs none from h)

theorem eq_some_iff {f : Failure} (he : Summarizes fs e) : e = some f ↔ f.Unites fs := by
  constructor
  · intro h
    cases h
    exact he
  · intro h
    exact he.unique (show Summarizes fs (some f) from h)

end Summarizes

/-- A way to merge failures that may be there, two at a time. -/
inductive Merging where
  | nothing
  | one (e : Option Failure)
  | both (s t : Merging)
  /-- With the later ones on the left. -/
  | swapped (s t : Merging)

namespace Merging

open Failure (furthest expectedAt expecting)

def entries : Merging → List (Option Failure)
  | nothing => []
  | one e => [e]
  | both s t => s.entries ++ t.entries
  | swapped s t => s.entries ++ t.entries

def result : Merging → Option Failure
  | nothing => none
  | one e => e
  | both s t => furthest s.result t.result
  | swapped s t => furthest t.result s.result

def fromLeft (es : List (Option Failure)) : Merging := es.foldl (fun t e => both t (one e)) nothing

def fromRight (es : List (Option Failure)) : Merging := es.foldr (fun e t => both (one e) t) nothing

theorem result_fromLeft (es : List (Option Failure)) :
    (fromLeft es).result = es.foldl furthest none :=
  (List.foldl_hom result fun _ _ => rfl).symm

theorem result_fromRight (es : List (Option Failure)) :
    (fromRight es).result = es.foldr furthest none :=
  (List.foldr_hom result fun _ _ => rfl).symm

theorem entries_fromLeft (es : List (Option Failure)) : (fromLeft es).entries = es := by
  induction es using List.reverseRecOn with
  | nil => rfl
  | append_singleton es e ih =>
    rw [fromLeft, List.foldl_concat]
    exact congrArg (· ++ [e]) ih

theorem entries_fromRight (es : List (Option Failure)) : (fromRight es).entries = es := by
  induction es with
  | nil => rfl
  | cons e es ih => exact congrArg (e :: ·) ih

theorem summarizes_result (t : Merging) : Summarizes t.entries.reduceOption t.result := by
  induction t with
  | nothing => rfl
  | one e =>
    rw [entries, List.reduceOption_singleton]
    exact Failure.summarizes_toList e
  | both s t ihs iht =>
    rw [entries, List.reduceOption_append]
    exact Failure.summarizes_append ihs iht
  | swapped s t ihs iht =>
    rw [entries, List.reduceOption_append, result, Failure.furthest_comm]
    exact Failure.summarizes_append ihs iht

/-- Merging a failure once more makes no difference either. -/
theorem result_congr {s t : Merging} (h : ∀ f, some f ∈ s.entries ↔ some f ∈ t.entries) :
    s.result = t.result := by
  refine (s.summarizes_result.congr fun f => ?_).unique t.summarizes_result
  rw [List.reduceOption_mem_iff, List.reduceOption_mem_iff]
  exact h f

/-- Folds from the left and from the right are among the ways to merge, so every way gives what they
do: nothing if and only if nothing is there, else one failure at the greatest offset, with all that
is expected at this offset and nothing besides. -/
theorem result_in_any_order {es : List (Option Failure)} {t : Merging} (h : t.entries.Perm es) :
    t.result = es.foldl furthest none ∧ t.result = es.foldr furthest none ∧
    (t.result = none ↔ ∀ e ∈ es, e = none) ∧
    ∀ f, t.result = some f ↔
      (∃ g, some g ∈ es ∧ g.offset = f.offset) ∧ (∀ g, some g ∈ es → g.offset ≤ f.offset) ∧
        f.expected.items = expectedAt f.offset es.reduceOption := by
  have hsame (s : Merging) (hs : s.entries = es) : t.result = s.result := by
    apply result_congr
    intro f
    rw [hs]
    exact h.mem_iff
  have hleft := hsame (fromLeft es) (entries_fromLeft es)
  have hright := hsame (fromRight es) (entries_fromRight es)
  have hsum : Summarizes es.reduceOption t.result := by
    rw [hleft]
    simpa only [entries_fromLeft] using (fromLeft es).summarizes_result
  refine ⟨hleft.trans (result_fromLeft es), hright.trans (result_fromRight es), ?_, fun f => ?_⟩
  · rw [hsum.eq_none_iff]
    exact List.filterMap_eq_nil_iff
  · rw [hsum.eq_some_iff, Failure.unites_iff]
    simp only [List.reduceOption_mem_iff]

/-- Some brackets, with the sides changed: a description that is told twice is kept once, and what
was expected before the furthest place is forgotten. -/
theorem result_in_any_order_brackets :
    let a := expecting 3 "']'"
    let b := expecting 1 "'('"
    let c := expecting 3 "'['"
    let t := swapped (both (one a) (one none)) (both (one b) (swapped (one c) (one a)))
    let es := [some c, none, some a, some b, some a]
    t.entries.Perm es ∧ t.result = es.foldl furthest none ∧
    t.result = some ⟨3, .ofList ["']'", "'['"]⟩ ∧
    expectedAt 3 es.reduceOption = ["'['", "']'"] := by
  intro a b c t es
  have h : t.entries.Perm es := by decide +kernel
  obtain ⟨hleft, -, -, hsome⟩ := result_in_any_order h
  have hresult : t.result = some ⟨3, .ofList ["']'", "'['"]⟩ := by decide +kernel
  obtain ⟨-, -, hitems⟩ := (hsome _).1 hresult
  refine ⟨h, hleft, hresult, ?_⟩
  rw [← hitems]
  decide +kernel

end Merging

end PatternGen
