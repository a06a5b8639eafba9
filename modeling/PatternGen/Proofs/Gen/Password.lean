import Mathlib.Data.List.Perm.Subperm
import PatternGen.Gen.Compile
import PatternGen.Proofs.Gen.Pools
import PatternGen.Proofs.Gen.Shuffle
import PatternGen.Proofs.Pattern.Reading

namespace PatternGen

section Places

variable {α β γ : Type} {R : α → β → Prop} {S : β → Prop}

theorem exists_of_mem_forall₂ {as : List α} {bs : List β} (h : List.Forall₂ R as bs)
    (hb : b ∈ bs) : ∃ a ∈ as, R a b := by
  induction h with
  | nil => cases hb
  | cons hr _ ih =>
    cases hb with
    | head => exact ⟨_, List.mem_cons_self, hr⟩
    | tail _ hb =>
      obtain ⟨a, ha, hr⟩ := ih hb
      exact ⟨a, List.mem_cons_of_mem _ ha, hr⟩

theorem forall₂_append_left_iff {xs ys : List α} {zs : List β} :
    List.Forall₂ R (xs ++ ys) zs ↔
      ∃ us vs, zs = us ++ vs ∧ List.Forall₂ R xs us ∧ List.Forall₂ R ys vs := by
  constructor
  · intro h
    refine ⟨zs.take xs.length, zs.drop xs.length, (List.take_append_drop _ _).symm, ?_, ?_⟩
    · exact (List.forall₂_take_append zs xs ys h.flip).flip
    · exact (List.forall₂_drop_append zs xs ys h.flip).flip
  · intro h
    obtain ⟨us, vs, rfl, hus, hvs⟩ := h
    exact List.rel_append hus hvs

theorem forall₂_trans {T : α → γ → Prop} {Q : β → γ → Prop} {as : List α} {bs : List β}
    {cs : List γ} (hR : List.Forall₂ R as bs) (hQ : List.Forall₂ Q bs cs)
    (h : ∀ {a b c}, R a b → Q b c → T a c) : List.Forall₂ T as cs := by
  induction hR generalizing cs with
  | nil =>
    cases hQ
    exact .nil
  | cons hr _ ih =>
    cases hQ with
    | cons hq hQ => exact .cons (h hr hq) (ih hQ)

theorem forall₂_replicate_left_iff {a : α} {n : Nat} {zs : List β} :
    List.Forall₂ R (List.replicate n a) zs ↔ zs.length = n ∧ ∀ b ∈ zs, R a b := by
  induction n generalizing zs with
  | zero =>
    rw [List.replicate_zero, List.forall₂_nil_left_iff, List.length_eq_zero_iff]
    constructor
    · rintro rfl
      exact ⟨rfl, List.forall_mem_nil _⟩
    · exact And.left
  | succ n ih =>
    cases zs with
    | nil => simp [List.replicate_succ]
    | cons b zs => simp [List.replicate_succ, ih, and_left_comm]

/-- The values that stand at places of a list. -/
def StandAt (cs : List β) : List Nat → List β → Prop := List.Forall₂ fun i b => cs[i]? = some b

theorem standAt_range (cs : List β) : StandAt cs (List.range cs.length) cs := by
  apply List.forall₂_of_length_eq_of_get
  · exact List.length_range
  · intro i _ hi
    simp [hi]

theorem StandAt.related_iff {ks : List α} {places : List Nat} {cs us : List β}
    (h : StandAt cs places us) :
    List.Forall₂ (fun k i => ∃ c, cs[i]? = some c ∧ R k c) ks places ↔ List.Forall₂ R ks us := by
  induction h generalizing ks with
  | nil => simp only [List.forall₂_nil_right_iff]
  | cons hb _ ih =>
    simp only [List.forall₂_cons_right_iff, ih, hb, Option.some.injEq, exists_eq_left']

/-- A row of values related to `ks`, and others, arranged as `cs`: the values of the row stand at
places of their own. -/
theorem exists_places_iff {ks : List α} {cs : List β} :
    (∃ us vs, (us ++ vs).Perm cs ∧ List.Forall₂ R ks us ∧ ∀ v ∈ vs, S v) ↔
      ∃ places : List Nat, places.Nodup ∧
        List.Forall₂ (fun k i => ∃ c, cs[i]? = some c ∧ R k c) ks places ∧
        ∀ i c, cs[i]? = some c → i ∉ places → S c := by
  constructor
  · intro h
    obtain ⟨us, vs, hperm, hR, hS⟩ := h
    have hstand : List.Forall₂ (fun b i => cs[i]? = some b) cs (List.range cs.length) :=
      (standAt_range cs).flip
    -- the places go the way that the values go
    obtain ⟨_, h, hrange⟩ := List.perm_comp_forall₂ hperm hstand
    obtain ⟨places, others, rfl, hus, hvs⟩ := forall₂_append_left_iff.1 h
    have hnodup : (places ++ others).Nodup := hrange.nodup_iff.2 List.nodup_range
    refine ⟨places, (List.nodup_append.1 hnodup).1, ?_, ?_⟩
    · exact (StandAt.related_iff hus.flip).2 hR
    · intro i c hc hi
      have hlt : i ∈ List.range cs.length :=
        List.mem_range.2 (List.getElem?_eq_some_iff.1 hc).1
      have hother := (List.mem_append.1 (hrange.mem_iff.2 hlt)).resolve_left hi
      obtain ⟨v, hv, hcv⟩ := exists_of_mem_forall₂ hvs hother
      cases hc.symm.trans hcv
      exact hS c hv
  · intro h
    obtain ⟨places, hnodup, hR, hS⟩ := h
    have hsub : places ⊆ List.range cs.length := by
      intro i hi
      obtain ⟨k, -, c, hc, -⟩ := exists_of_mem_forall₂ hR hi
      exact List.mem_range.2 (List.getElem?_eq_some_iff.1 hc).1
    obtain ⟨_, hperm, hsublist⟩ := hnodup.subperm hsub
    -- the places that no class has are the free ones
    obtain ⟨others, hrange⟩ := hsublist.exists_perm_append
    replace hrange := hrange.trans (hperm.append_right others)
    obtain ⟨_, h, hperm⟩ := List.perm_comp_forall₂ hrange.symm (standAt_range cs)
    obtain ⟨us, vs, rfl, hus, hvs⟩ := forall₂_append_left_iff.1 h
    refine ⟨us, vs, hperm, (StandAt.related_iff hus).1 hR, ?_⟩
    intro v hv
    obtain ⟨i, hi, hc⟩ := exists_of_mem_forall₂ hvs hv
    have hnodup : (places ++ others).Nodup := hrange.nodup_iff.1 List.nodup_range
    apply hS i v hc
    intro hi'
    exact (List.nodup_append.1 hnodup).2.2 i hi' i hi rfl

end Places

namespace Gen

/-- The class with this text between its brackets stands for the character. A negated class stands
for printable characters of ASCII. -/
def BodyAllows (text : String) (c : Char) : Prop :=
  (default : Negation).Allows (.ofBody text.toList) c

/-- A text of the length in which the characters at the places belong to the classes, one place to
each class, and all others to some class. -/
structure IsPassword (length : Nat) (classes : List String) (places : List Nat) (cs : List Char) :
    Prop where
  length_eq : cs.length = length
  distinct : places.Nodup
  required : List.Forall₂ (fun text i => ∃ c, cs[i]? = some c ∧ BodyAllows text c) classes places
  free : ∀ i c, cs[i]? = some c → i ∉ places → ∃ text ∈ classes, BodyAllows text c

theorem holds_poolOf (h : poolOf text = .ok pool) : pool.Holds c ↔ BodyAllows text c := by
  rw [poolOf, bind_eq_ok_iff] at h
  obtain ⟨k, hk, h⟩ := h
  rw [mapError_eq_ok_iff] at hk h
  obtain ⟨rfl, -⟩ := CharClass.parseBody_eq_ok_iff.1 hk
  exact CharPool.holds_ofClass h

/-- The generators of the places that no class needs for itself. -/
def freePlaces (pools : List CharPool) (n : Nat) : Except GenError (List (Gen Char)) :=
  if 0 < n then
    ((CharPool.union pools).generator.mapError .compile).map (List.replicate n)
  else .ok []

theorem password_eq (length : Nat) (classes : List String) :
    password length classes =
      if length < classes.length then .error (.shortPassword length classes.length)
      else (classes.mapM poolOf).bind fun pools =>
        (pools.mapM fun (pool : CharPool) => pool.generator.mapError GenError.compile).bind
          fun required => (freePlaces pools (length - classes.length)).map fun free =>
            ((shuffle (required ++ free)).bind pivot).map String.ofList := by
  by_cases hshort : length < classes.length
  · rw [password, if_pos hshort, if_pos hshort]
    rfl
  · rw [password, if_neg hshort, if_neg hshort]
    by_cases hfree : classes.length < length
    · have hpos : 0 < length - classes.length := Nat.sub_pos_of_lt hfree
      simp only [if_pos hfree, freePlaces, if_pos hpos]
      apply congrArg (Except.bind _)
      funext pools
      apply congrArg (Except.bind _)
      funext required
      cases (CharPool.union pools).generator.mapError GenError.compile <;> rfl
    · have hpos : ¬ 0 < length - classes.length := by omega
      simp only [if_neg hfree, freePlaces, if_neg hpos]
      rfl

variable {xs ys : List (Gen Char)} {pools : List CharPool} {classes : List String}

theorem yields_shuffled_iff :
    ((shuffle (xs ++ ys)).bind pivot).Yields cs ↔
      ∃ us vs, (us ++ vs).Perm cs ∧ List.Forall₂ Yields xs us ∧ List.Forall₂ Yields ys vs := by
  rw [yields_bind_iff]
  simp only [yields_shuffle_iff, yields_pivot_iff]
  constructor
  · intro h
    obtain ⟨gs, hgs, h⟩ := h
    obtain ⟨_, h, hperm⟩ := List.perm_comp_forall₂ hgs.symm h
    obtain ⟨us, vs, rfl, hus, hvs⟩ := forall₂_append_left_iff.1 h
    exact ⟨us, vs, hperm, hus, hvs⟩
  · intro h
    obtain ⟨us, vs, hperm, hus, hvs⟩ := h
    have h := (forall₂_append_left_iff.2 ⟨us, vs, rfl, hus, hvs⟩).flip
    obtain ⟨gs, hgs, hgperm⟩ := List.perm_comp_forall₂ hperm.symm h
    exact ⟨gs, hgperm, hgs.flip⟩

theorem yields_freePlaces_iff (h : freePlaces pools n = .ok free) :
    List.Forall₂ Yields free vs ↔ vs.length = n ∧ ∀ v ∈ vs, ∃ pool ∈ pools, pool.Holds v := by
  rw [freePlaces] at h
  split at h
  · rw [map_eq_ok_iff] at h
    obtain ⟨any, hany, rfl⟩ := h
    rw [mapError_eq_ok_iff] at hany
    rw [forall₂_replicate_left_iff]
    simp only [CharPool.yields_generator_iff hany, CharPool.holds_union]
  · next hn =>
    cases h
    rw [List.forall₂_nil_left_iff, ← List.length_eq_zero_iff, Nat.eq_zero_of_not_pos hn]
    constructor
    · intro h
      cases List.length_eq_zero_iff.1 h
      exact ⟨rfl, List.forall_mem_nil _⟩
    · exact And.left

theorem answerable_freePlaces (h : freePlaces pools n = .ok free) : ∀ g ∈ free, g.Answerable := by
  intro g hg
  rw [freePlaces] at h
  split at h
  · rw [map_eq_ok_iff] at h
    obtain ⟨any, hany, rfl⟩ := h
    rw [mapError_eq_ok_iff] at hany
    rw [List.eq_of_mem_replicate hg]
    exact CharPool.answerable_generator hany
  · cases h
    cases hg

theorem exists_holds_iff
    (h : List.Forall₂ (fun text pool => poolOf text = .ok pool) classes pools) :
    (∃ pool ∈ pools, pool.Holds c) ↔ ∃ text ∈ classes, BodyAllows text c := by
  constructor
  · intro hc
    obtain ⟨pool, hpool, hc⟩ := hc
    obtain ⟨text, htext, hok⟩ := exists_of_mem_forall₂ h hpool
    exact ⟨text, htext, (holds_poolOf hok).1 hc⟩
  · intro hc
    obtain ⟨text, htext, hc⟩ := hc
    obtain ⟨pool, hpool, hok⟩ := exists_of_mem_forall₂ h.flip htext
    exact ⟨pool, hpool, (holds_poolOf hok).2 hc⟩

/-- What is drawn for a class of its own. -/
def DrawsFrom (text : String) (g : Gen Char) : Prop :=
  g.Answerable ∧ ∀ c, g.Yields c ↔ BodyAllows text c

theorem drawsFrom_generator (hpool : poolOf text = .ok pool) (hg : pool.generator = .ok g) :
    DrawsFrom text g := by
  refine ⟨CharPool.answerable_generator hg, ?_⟩
  intro c
  rw [CharPool.yields_generator_iff hg, holds_poolOf hpool]

theorem yields_required_iff (h : List.Forall₂ DrawsFrom classes required) {us : List Char} :
    List.Forall₂ Yields required us ↔ List.Forall₂ BodyAllows classes us := by
  constructor
  · intro hus
    exact forall₂_trans h hus fun hg hc => (hg.2 _).1 hc
  · intro hus
    exact forall₂_trans h.flip hus fun hg hc => (hg.2 _).2 hc

/-- The places of a password are drawn in any order, first those of the classes and then the
others. -/
theorem exists_of_password_eq_ok (h : password length classes = .ok g) :
    classes.length ≤ length ∧ ∃ pools required free,
      List.Forall₂ (fun text pool => poolOf text = .ok pool) classes pools ∧
      List.Forall₂ DrawsFrom classes required ∧
      freePlaces pools (length - classes.length) = .ok free ∧
      g = ((shuffle (required ++ free)).bind pivot).map String.ofList := by
  rw [password_eq] at h
  split at h
  · cases h
  · next hshort =>
    refine ⟨Nat.le_of_not_lt hshort, ?_⟩
    rw [bind_eq_ok_iff] at h
    obtain ⟨pools, hpools, h⟩ := h
    rw [bind_eq_ok_iff] at h
    obtain ⟨required, hrequired, h⟩ := h
    rw [map_eq_ok_iff] at h
    obtain ⟨free, hfree, rfl⟩ := h
    rw [mapM_eq_ok_iff] at hpools hrequired
    refine ⟨pools, required, free, hpools, ?_, hfree, rfl⟩
    exact forall₂_trans hpools hrequired fun hp hg =>
      drawsFrom_generator hp (mapError_eq_ok_iff.1 hg)

theorem answerable_password {length : Nat} (h : password length classes = .ok g) :
    g.Answerable := by
  obtain ⟨-, pools, required, free, -, hrequired, hfree, rfl⟩ := exists_of_password_eq_ok h
  have hall : ∀ g ∈ required ++ free, g.Answerable := by
    intro g hg
    rcases List.mem_append.1 hg with hg | hg
    · obtain ⟨_, -, hg⟩ := exists_of_mem_forall₂ hrequired hg
      exact hg.1
    · exact answerable_freePlaces hfree g hg
  have hcharacters : ((shuffle (required ++ free)).bind pivot).Answerable := by
    apply (answerable_shuffle _).bind
    intro gs hgs
    apply answerable_pivot
    intro g hg
    exact hall g ((yields_shuffle_iff.1 hgs).mem_iff.1 hg)
  exact hcharacters.map

theorem isPassword_iff {length : Nat} {cs : List Char} (hle : classes.length ≤ length) :
    (∃ us vs, (us ++ vs).Perm cs ∧ List.Forall₂ BodyAllows classes us ∧
      vs.length = length - classes.length ∧ ∀ v ∈ vs, ∃ text ∈ classes, BodyAllows text v) ↔
        ∃ places, IsPassword length classes places cs := by
  constructor
  · intro h
    obtain ⟨us, vs, hperm, hus, hlength, hvs⟩ := h
    obtain ⟨places, hdistinct, hrequired, hfree⟩ := exists_places_iff.1 ⟨us, vs, hperm, hus, hvs⟩
    refine ⟨places, ?_, hdistinct, hrequired, hfree⟩
    rw [← hperm.length_eq, List.length_append, ← hus.length_eq, hlength]
    omega
  · intro h
    obtain ⟨places, hlength, hdistinct, hrequired, hfree⟩ := h
    obtain ⟨us, vs, hperm, hus, hvs⟩ := exists_places_iff.2 ⟨places, hdistinct, hrequired, hfree⟩
    refine ⟨us, vs, hperm, hus, ?_, hvs⟩
    rw [← hlength, ← hperm.length_eq, List.length_append, hus.length_eq]
    omega

/-- Every source draws a password, and the passwords drawn are all there are: the texts of the
length in which each class has a place of its own. -/
theorem draws_password_iff {length : Nat} (h : password length classes = .ok g) :
    (∀ {σ : Type} (m : Sampler σ) (s : σ), ∃ w t, g.run m s = some (w, t)) ∧
      ∀ w, g.Draws w ↔ ∃ places, IsPassword length classes places w.toList := by
  constructor
  · intro σ m s
    obtain ⟨w, t, hw, -⟩ := (answerable_password h).run m s
    exact ⟨w, t, hw⟩
  · obtain ⟨hle, pools, required, free, hpools, hrequired, hfree, rfl⟩ :=
      exists_of_password_eq_ok h
    intro w
    rw [draws_iff_yields, yields_map_iff, ← isPassword_iff hle]
    simp only [yields_shuffled_iff, yields_required_iff hrequired, yields_freePlaces_iff hfree,
      exists_holds_iff hpools]
    constructor
    · intro h
      obtain ⟨cs, h, rfl⟩ := h
      rw [String.toList_ofList]
      exact h
    · intro h
      exact ⟨w.toList, h, String.ofList_toList.symm⟩

/-- A class that is named twice has two places. -/
theorem draws_password_repeated_class :
    ∃ g, password 4 ["a", "a", "^ -z"] = .ok g ∧ g.Draws "a~|a" := by
  have hok : (password 4 ["a", "a", "^ -z"]).toBool = true := by decide +kernel
  cases h : password 4 ["a", "a", "^ -z"] with
  | error e =>
    rw [h] at hok
    cases hok
  | ok g =>
    have ha : BodyAllows "a" 'a' := by
      change (CharClass.ofBody ['a']).contains 'a'
      decide
    have hother {c : Char} (hc : printableAscii.contains c)
        (hz : ¬ (CharClass.ofBody ['^', ' ', '-', 'z']).contains c) : BodyAllows "^ -z" c :=
      ⟨hc, hz⟩
    have htilde : BodyAllows "^ -z" '~' := hother (by decide) (by decide)
    have hbar : BodyAllows "^ -z" '|' := hother (by decide) (by decide)
    refine ⟨g, rfl, ((draws_password_iff h).2 _).2 ⟨[0, 3, 1], by decide, by decide, ?_, ?_⟩⟩
    · exact .cons ⟨'a', rfl, ha⟩ (.cons ⟨'a', rfl, ha⟩ (.cons ⟨'~', rfl, htilde⟩ .nil))
    · intro i c hc hi
      match i with
      | 0 | 1 | 3 => exact absurd (by decide) hi
      | 2 =>
        cases hc
        exact ⟨"^ -z", by decide, hbar⟩
      | _ + 4 => cases hc

end Gen

end PatternGen
