import PatternGen.Gen.CharPool
import PatternGen.Proofs.Gen.Outcomes
import PatternGen.Proofs.Pattern.Language
import PatternGen.Proofs.Pattern.Counting

namespace PatternGen

variable {ε α β : Type}

theorem bind_eq_ok_iff {x : Except ε α} {f : α → Except ε β} :
    x.bind f = .ok b ↔ ∃ a, x = .ok a ∧ f a = .ok b := by
  cases x with
  | ok a =>
    constructor
    · intro h
      exact ⟨a, rfl, h⟩
    · intro h
      obtain ⟨_, ⟨⟩, h⟩ := h
      exact h
  | error e =>
    constructor
    · intro h
      cases h
    · intro h
      obtain ⟨_, ⟨⟩, _⟩ := h

theorem map_eq_ok_iff {x : Except ε α} {f : α → β} :
    x.map f = .ok b ↔ ∃ a, x = .ok a ∧ f a = b := by
  cases x with
  | ok a =>
    constructor
    · intro h
      exact ⟨a, rfl, Except.ok.inj h⟩
    · intro h
      obtain ⟨_, ⟨⟩, rfl⟩ := h
      rfl
  | error e =>
    constructor
    · intro h
      cases h
    · intro h
      obtain ⟨_, ⟨⟩, _⟩ := h

theorem mapError_eq_ok_iff {δ : Type} {x : Except ε α} {f : ε → δ} :
    x.mapError f = .ok a ↔ x = .ok a := by
  cases x <;> simp [Except.mapError]

theorem mapM_eq_ok_iff {f : α → Except ε β} {as : List α} {bs : List β} :
    as.mapM f = .ok bs ↔ List.Forall₂ (fun a b => f a = .ok b) as bs := by
  induction as generalizing bs with
  | nil =>
    constructor
    · intro h
      cases h
      exact .nil
    · intro h
      cases h
      rfl
  | cons a as ih =>
    have hcons : (a :: as).mapM f = (f a).bind fun b => (as.mapM f).bind fun bs => .ok (b :: bs) :=
      List.mapM_cons
    rw [hcons, bind_eq_ok_iff]
    simp only [bind_eq_ok_iff, ih]
    constructor
    · intro h
      obtain ⟨b, hb, bs, hbs, ⟨⟩⟩ := h
      exact .cons hb hbs
    · intro h
      cases h with
      | cons hb hbs => exact ⟨_, hb, _, hbs, rfl⟩

theorem bind_eq_error_iff {x : Except ε α} {f : α → Except ε β} {e : ε} :
    x.bind f = .error e ↔ x = .error e ∨ ∃ a, x = .ok a ∧ f a = .error e := by
  cases x with
  | ok a =>
    constructor
    · intro h
      exact .inr ⟨a, rfl, h⟩
    · rintro (⟨⟨⟩⟩ | ⟨_, ⟨⟩, h⟩)
      exact h
  | error e' =>
    constructor
    · intro h
      cases h
      exact .inl rfl
    · rintro (⟨⟨⟩⟩ | ⟨_, ⟨⟩, _⟩)
      rfl

theorem map_eq_error_iff {x : Except ε α} {f : α → β} {e : ε} :
    x.map f = .error e ↔ x = .error e := by
  cases x <;> simp [Except.map]

theorem mapError_eq_error_iff {δ : Type} {x : Except ε α} {f : ε → δ} {d : δ} :
    x.mapError f = .error d ↔ ∃ e, x = .error e ∧ d = f e := by
  cases x <;> simp [Except.mapError, eq_comm]

theorem ite_eq_error_iff {c : Prop} [Decidable c] {e e' : ε} {a : α} :
    (if c then .error e' else .ok a) = Except.error e ↔ c ∧ e = e' := by
  split
  · next h => simp [h, eq_comm]
  · next h => simp [h]

/-- The first value that is refused is the one that all are refused for. -/
theorem mapM_eq_error_iff {f : α → Except ε β} {as : List α} {e : ε} :
    as.mapM f = .error e ↔
      ∃ before a after, as = before ++ a :: after ∧ (∀ b ∈ before, ∃ c, f b = .ok c) ∧
        f a = .error e := by
  induction as with
  | nil =>
    constructor
    · intro h
      cases h
    · intro h
      obtain ⟨_ | _, _, _, ⟨⟩, _⟩ := h
  | cons a as ih =>
    have hcons : (a :: as).mapM f = (f a).bind fun b => (as.mapM f).bind fun bs => .ok (b :: bs) :=
      List.mapM_cons
    have hlast (b : β) : ((as.mapM f).bind fun bs => .ok (b :: bs)) = .error e ↔
        as.mapM f = .error e := map_eq_error_iff (f := (b :: ·))
    simp only [hcons, bind_eq_error_iff, hlast, ih]
    constructor
    · rintro (h | ⟨b, hb, before, a', after, rfl, hbefore, h⟩)
      · exact ⟨[], a, as, rfl, List.forall_mem_nil _, h⟩
      · exact ⟨a :: before, a', after, rfl, List.forall_mem_cons.2 ⟨⟨b, hb⟩, hbefore⟩, h⟩
    · intro h
      obtain ⟨_ | ⟨b, before⟩, a', after, ⟨⟩, hbefore, h⟩ := h
      · exact .inl h
      · obtain ⟨⟨c, hc⟩, hbefore⟩ := List.forall_mem_cons.1 hbefore
        exact .inr ⟨c, hc, before, a', after, rfl, hbefore, h⟩

theorem exists_mapM_eq_ok {f : α → Except ε β} {as : List α} (h : ∀ a ∈ as, ∃ b, f a = .ok b) :
    ∃ bs, as.mapM f = .ok bs := by
  cases has : as.mapM f with
  | ok bs => exact ⟨bs, rfl⟩
  | error e =>
    obtain ⟨before, a, after, rfl, -, ha⟩ := mapM_eq_error_iff.1 has
    obtain ⟨b, hb⟩ := h a (List.mem_append_right _ List.mem_cons_self)
    cases hb.symm.trans ha

/-- The characters that a class generates, in order. -/
def Negation.characters (n : Negation) (k : CharClass) : List Char :=
  match k.negated, n with
  | false, _ => k.chars
  | true, .complement alphabet => alphabet.chars.filter fun c => !k.contains c
  | true, .reject => []
  | true, .ignore => k.chars

theorem Negation.mem_characters_iff {n : Negation} : c ∈ n.characters k ↔ n.Allows k c := by
  unfold characters Allows
  cases k.negated with
  | false => exact CharClass.mem_chars_iff
  | true =>
    cases n with
    | complement alphabet => simp [CharClass.mem_chars_iff]
    | reject => exact List.mem_nil_iff c
    | ignore => exact CharClass.mem_chars_iff

theorem CharClass.length_chars (k : CharClass) : k.chars.length = k.count :=
  length_flatMap_chars k.items

theorem CharClass.getElem?_chars (k : CharClass) (i : Nat) : k.chars[i]? = k.get? i :=
  getElem?_flatMap_chars k.items i

namespace CharPool

variable {k alphabet : CharClass} {n : Negation} {p : CharPool}

def Part.toList : Part → List Char
  | listed k => k.chars
  | chars cs => cs

theorem Part.length_toList (part : Part) : part.toList.length = part.count := by
  cases part with
  | listed k => exact k.length_chars
  | chars cs => rfl

theorem Part.getElem?_toList (part : Part) (i : Nat) : part.toList[i]? = part.get? i := by
  cases part with
  | listed k => exact k.getElem?_chars i
  | chars cs => rfl

def toList (p : CharPool) : List Char := p.parts.flatMap Part.toList

theorem length_flatMap_toList (parts : List Part) :
    (parts.flatMap Part.toList).length = countParts parts := by
  induction parts with
  | nil => rfl
  | cons part parts ih =>
    rw [List.flatMap_cons, List.length_append, Part.length_toList, ih, countParts]

theorem getElem?_flatMap_toList (parts : List Part) (i : Nat) :
    (parts.flatMap Part.toList)[i]? = getPart? parts i := by
  induction parts generalizing i with
  | nil => rfl
  | cons part parts ih =>
    rw [List.flatMap_cons, getPart?, List.getElem?_append, Part.length_toList,
      Part.getElem?_toList, ih]

theorem length_toList (p : CharPool) : p.toList.length = p.count := length_flatMap_toList p.parts

/-- The walk through the parts finds what stands at the index in the row of all characters. -/
theorem getElem?_toList (p : CharPool) (i : Nat) : p.toList[i]? = p.get? i :=
  getElem?_flatMap_toList p.parts i

theorem toList_union (pools : List CharPool) : (union pools).toList = pools.flatMap toList :=
  List.flatMap_assoc

theorem unlisted_eq (k alphabet : CharClass) :
    unlisted k alphabet = alphabet.chars.filter fun c => !k.contains c := by
  rw [unlisted, ← alphabet.length_chars,
    filterMap_range_eq fun i => (alphabet.getElem?_chars i).symm]

theorem toList_of_partOf (h : partOf k n = .ok part) : part.toList = n.characters k := by
  unfold partOf at h
  unfold Negation.characters
  cases hk : k.negated with
  | false =>
    rw [hk] at h
    cases h
    rfl
  | true =>
    rw [hk, if_pos rfl] at h
    cases n with
    | complement alphabet =>
      dsimp only at h
      split at h
      · cases h
      · cases h
        exact unlisted_eq k alphabet
    | reject => cases h
    | ignore =>
      cases h
      rfl

theorem toList_ofClass (h : ofClass k n = .ok p) : p.toList = n.characters k := by
  obtain ⟨part, hpart, h⟩ := bind_eq_ok_iff.1 h
  split at h
  · cases h
  · cases h
    rw [← toList_of_partOf hpart]
    exact List.flatMap_singleton Part.toList part

def Holds (p : CharPool) (c : Char) : Prop := ∃ i, p.get? i = some c

theorem holds_iff : p.Holds c ↔ c ∈ p.toList := by
  simp only [List.mem_iff_getElem?, getElem?_toList, Holds]

theorem holds_union {pools : List CharPool} : (union pools).Holds c ↔ ∃ p ∈ pools, p.Holds c := by
  simp only [holds_iff, toList_union, List.mem_flatMap]

theorem holds_ofClass (h : ofClass k n = .ok p) : p.Holds c ↔ n.Allows k c := by
  rw [holds_iff, toList_ofClass h, Negation.mem_characters_iff]

theorem answerable_generator (h : generator p = .ok g) : g.Answerable := by
  rw [generator] at h
  split at h
  · cases h
  · next hp =>
    cases h
    exact (Gen.answerable_choose _ (Nat.pos_of_ne_zero hp)).map

theorem yields_generator_iff (h : generator p = .ok g) : g.Yields c ↔ p.Holds c := by
  rw [generator] at h
  split at h
  · cases h
  · cases h
    rw [Gen.yields_map_iff]
    constructor
    · intro h'
      obtain ⟨i, -, rfl⟩ := h'
      exact ⟨i, (Option.some_get _).symm⟩
    · intro h'
      obtain ⟨i, hi⟩ := h'
      have hlt := isSome_getPart?_iff.1 (Option.isSome_of_eq_some hi)
      refine ⟨⟨i, hlt⟩, Gen.yields_choose _ _, ?_⟩
      exact (Option.get_of_eq_some _ hi).symm

end CharPool

end PatternGen
