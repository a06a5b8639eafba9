import PatternGen.Proofs.Gen.Pools
import PatternGen.Proofs.Pattern.Counting

namespace PatternGen

namespace Negation

variable {n : Negation} {k : CharClass}

theorem allows_iff_contains (h : k.negated → n = .ignore) : n.Allows k c ↔ k.contains c := by
  unfold Allows
  cases hk : k.negated with
  | false => exact Iff.rfl
  | true =>
    rw [h hk]

theorem allows_complement_iff {alphabet : CharClass} (hk : k.negated) :
    (complement alphabet).Allows k c ↔ alphabet.contains c ∧ ¬ k.contains c := by
  unfold Allows
  rw [hk]

theorem not_allows_reject (hk : k.negated) : ¬ reject.Allows k c := by
  unfold Allows
  rw [hk]
  exact id

/-- How often a class stands for the character. -/
def multiplicity (n : Negation) (k : CharClass) (c : Char) : Nat :=
  match k.negated, n with
  | false, _ => k.timesListed c
  | true, .complement alphabet => if k.contains c then 0 else alphabet.timesListed c
  | true, .reject => 0
  | true, .ignore => k.timesListed c

def refusal (n : Negation) (k : CharClass) : CompileError :=
  match k.negated, n with
  | false, _ => .emptyClass (toString k)
  | true, .complement alphabet => .emptyComplement (toString k) (toString alphabet)
  | true, .reject => .negatedClass (toString k)
  | true, .ignore => .emptyClass (toString k)

theorem multiplicity_pos_iff : 0 < n.multiplicity k c ↔ n.Allows k c := by
  unfold multiplicity Allows
  cases k.negated with
  | false => exact CharClass.timesListed_pos_iff
  | true =>
    cases n with
    | complement alphabet => by_cases hc : k.contains c <;> simp [hc, CharClass.timesListed_pos_iff]
    | reject => exact iff_of_false (Nat.lt_irrefl 0) id
    | ignore => exact CharClass.timesListed_pos_iff

theorem multiplicity_eq_zero_iff : n.multiplicity k c = 0 ↔ ¬ n.Allows k c := by
  rw [← multiplicity_pos_iff, Nat.not_lt, Nat.le_zero_eq]

theorem Allows.accepts (h : n.Allows k c) (hn : n ≠ .ignore) : k.accepts c := by
  unfold Allows at h
  rw [CharClass.accepts]
  split at h
  · next hk => simp [hk, h]
  · next hk => simp [hk, h.2]
  · exact h.elim
  · exact (hn rfl).elim

end Negation

theorem Negation.count_characters (n : Negation) (k : CharClass) (c : Char) :
    (n.characters k).count c = n.multiplicity k c := by
  have hchars (k : CharClass) : k.chars.count c = k.timesListed c :=
    CharClass.count_flatMap_chars k.items c
  unfold characters multiplicity
  cases k.negated with
  | false => exact hchars k
  | true =>
    cases n with
    | complement alphabet =>
      dsimp only
      split
      · next hc =>
        rw [List.count_eq_zero, List.mem_filter]
        simp [hc]
      · next hc => rw [List.count_filter (by simpa using hc), hchars]
    | reject => rfl
    | ignore => exact hchars k

theorem Negation.characters_eq_nil_iff {n : Negation} :
    n.characters k = [] ↔ ∀ c, n.multiplicity k c = 0 := by
  simp only [List.eq_nil_iff_forall_not_mem, ← List.count_eq_zero, count_characters]

namespace CharPool

variable {k alphabet : CharClass} {n : Negation} {p : CharPool}

/-- A pool is empty only if it holds no character. -/
theorem count_ne_zero_iff : p.count ≠ 0 ↔ ∃ c, p.Holds c := by
  simp only [holds_iff, ← length_toList, ne_eq, List.length_eq_zero_iff,
    List.eq_nil_iff_forall_not_mem, not_forall, not_not]

theorem count_part_eq_zero_iff {part : Part} (h : partOf k n = .ok part) :
    part.count = 0 ↔ n.characters k = [] := by
  rw [← part.length_toList, toList_of_partOf h, List.length_eq_zero_iff]

/-- A class without a part has nothing to generate, and a part without characters is one that lists
what its class lists. -/
theorem partOf_spec (k : CharClass) (n : Negation) :
    (n.characters k = [] ∧ partOf k n = .error (n.refusal k)) ∨
      ∃ part, partOf k n = .ok part ∧
        (n.characters k = [] → n.refusal k = .emptyClass (toString k)) := by
  unfold partOf Negation.characters Negation.refusal
  cases hk : k.negated with
  | false => exact .inr ⟨_, rfl, fun _ => rfl⟩
  | true =>
    rw [if_pos rfl]
    cases n with
    | complement alphabet =>
      dsimp only
      rw [← unlisted_eq]
      split
      · next h => exact .inl ⟨List.isEmpty_iff.1 h, rfl⟩
      · next h => exact .inr ⟨_, rfl, fun hnil => absurd (List.isEmpty_iff.2 hnil) h⟩
    | reject => exact .inl ⟨rfl, rfl⟩
    | ignore => exact .inr ⟨_, rfl, fun _ => rfl⟩

/-- A class is refused if and only if it stands for nothing. -/
theorem ofClass_eq_error_iff :
    ofClass k n = .error e ↔ (∀ c, n.multiplicity k c = 0) ∧ e = n.refusal k := by
  rw [ofClass, ← Negation.characters_eq_nil_iff]
  rcases partOf_spec k n with ⟨hnil, h⟩ | ⟨part, h, hrefusal⟩
  · rw [h]
    simp [Except.bind, hnil, eq_comm]
  · rw [h]
    change (if part.count = 0 then _ else _) = _ ↔ _
    rw [ite_eq_error_iff, count_part_eq_zero_iff h]
    refine and_congr_right ?_
    intro hnil
    rw [hrefusal hnil]

theorem exists_ofClass_iff : (∃ p, ofClass k n = .ok p) ↔ ∃ c, n.Allows k c := by
  cases h : ofClass k n with
  | ok p =>
    refine iff_of_true ⟨p, rfl⟩ ?_
    apply Classical.byContradiction
    intro hnone
    have hzero (c : Char) : n.multiplicity k c = 0 :=
      Negation.multiplicity_eq_zero_iff.2 fun hc => hnone ⟨c, hc⟩
    cases h.symm.trans (ofClass_eq_error_iff.2 ⟨hzero, rfl⟩)
  | error e =>
    refine iff_of_false nofun ?_
    rintro ⟨c, hc⟩
    exact Negation.multiplicity_eq_zero_iff.1 ((ofClass_eq_error_iff.1 h).1 c) hc

theorem timesFound_ofClass (h : ofClass k n = .ok p) (c : Char) :
    timesFound p.get? p.count c = n.multiplicity k c := by
  rw [← p.length_toList, timesFound_eq_count fun i => (p.getElem?_toList i).symm,
    toList_ofClass h, Negation.count_characters]

theorem map_get?_eq (p : CharPool) :
    (List.range p.count).map p.get? = p.toList.map some := by
  rw [← p.length_toList]
  exact map_range_eq_map_some fun i => (p.getElem?_toList i).symm

/-- The indices of a union go through the pools one after the other. -/
theorem map_get?_union (pools : List CharPool) :
    (List.range (union pools).count).map (union pools).get? =
      pools.flatMap fun p => (List.range p.count).map p.get? := by
  simp only [map_get?_eq, toList_union, List.map_flatMap]

/-- The indices of pools and of their union are those below their counts. A class has a pool unless
it stands for nothing, and the pool holds each character as often as the class stands for it. Where
the negation counts, all characters of the pool belong to the class. -/
theorem ofClass_union_counts (ks : List CharClass) (n : Negation) :
    let pools := ks.filterMap fun k => (ofClass k n).toOption
    (∀ p ∈ union pools :: pools, ∀ i, (p.get? i).isSome ↔ i < p.count) ∧
    (List.range (union pools).count).map (union pools).get? =
      (pools.flatMap fun p => (List.range p.count).map p.get?) ∧
    ∀ k ∈ ks,
      (∀ p, ofClass k n = .ok p →
        (∀ c, timesFound p.get? p.count c = n.multiplicity k c) ∧
        (n ≠ .ignore → ∀ i c, p.get? i = some c → k.accepts c)) ∧
      ∀ e, ofClass k n = .error e ↔
        (k.negated ∧ n = .reject ∨ ∀ c, n.multiplicity k c = 0) ∧ e = n.refusal k := by
  intro pools
  refine ⟨fun p _ i => isSome_getPart?_iff, map_get?_union pools, ?_⟩
  intro k _
  constructor
  · intro p h
    refine ⟨timesFound_ofClass h, ?_⟩
    intro hn i c hc
    exact ((holds_ofClass h).1 ⟨i, hc⟩).accepts hn
  · intro e
    rw [ofClass_eq_error_iff]
    -- a class that is refused for its negation stands for nothing either
    have hnone : (∀ c, n.multiplicity k c = 0) ↔
        k.negated ∧ n = .reject ∨ ∀ c, n.multiplicity k c = 0 := by
      refine ⟨.inr, ?_⟩
      rintro (⟨hk, rfl⟩ | h)
      · exact fun c => Negation.multiplicity_eq_zero_iff.2 (Negation.not_allows_reject hk)
      · exact h
    rw [← hnone]

/-- The alphabet lists a character twice, and a union goes on behind the characters of its first
part. -/
theorem ofClass_union_counts_repeated :
    let n : Negation := .complement ⟨false, [.range 'a' 'c', .range 'b' 'd']⟩
    let k : CharClass := ⟨true, [.single 'd', .single 'a']⟩
    let l : CharClass := ⟨false, [.single 'z', .range 'x' 'z']⟩
    let p : CharPool := ⟨[.chars ['b', 'c', 'b', 'c']]⟩
    let q : CharPool := ⟨[.listed l]⟩
    ofClass k n = .ok p ∧ ofClass l n = .ok q ∧ timesFound p.get? p.count 'b' = 2 ∧
      timesFound q.get? q.count 'z' = 2 ∧ k.accepts 'b' ∧
      (List.range (union [p, q]).count).map (union [p, q]).get? =
        ("bcbczxyz".toList).map some := by
  intro n k l p q
  have hp : ofClass k n = .ok p := by decide
  have hq : ofClass l n = .ok q := by decide
  obtain ⟨-, hunion, hclasses⟩ := ofClass_union_counts [k, l] n
  obtain ⟨hchars, haccepts⟩ := (hclasses k (by decide)).1 p hp
  obtain ⟨hlisted, -⟩ := (hclasses l (by decide)).1 q hq
  refine ⟨hp, hq, (hchars 'b').trans (by decide), (hlisted 'z').trans (by decide),
    haccepts nofun 0 'b' rfl, ?_⟩
  have hpools : ([k, l].filterMap fun k => (ofClass k n).toOption) = [p, q] := by
    simp [hp, hq, Except.toOption]
  rw [hpools] at hunion
  exact hunion.trans (by decide)

end CharPool

end PatternGen
