import PatternGen.Proofs.Gen.Multiplicity
import PatternGen.Proofs.Gen.Password
import PatternGen.Proofs.Pattern.ClassReading

namespace PatternGen

open CharClass

theorem ClassItem.exists_contains_scanItems {cs : List Char} (h : cs ≠ []) :
    ∃ e ∈ scanItems cs, ∃ c, e.contains c := by
  fun_cases scanItems cs with
  | case1 x y cs hxy =>
    refine ⟨_, List.mem_cons_self, x, ?_⟩
    rw [contains, decide_eq_true (Char.le_refl x), decide_eq_true hxy, Bool.and_self]
  | case2 x y cs hxy => exact ⟨_, List.mem_cons_self, x, beq_self_eq_true x⟩
  | case3 x cs hcs => exact ⟨_, List.mem_cons_self, x, beq_self_eq_true x⟩
  | case4 => exact (h rfl).elim

namespace Gen

/-- The text between the brackets of a class leaves a character to draw: after a caret, one that is
printable and not listed. -/
def Drawable : List Char → Prop
  | '^' :: cs => ∃ c, ' ' ≤ c ∧ c ≤ '~' ∧ ∀ e ∈ scanItems cs, ¬ e.contains c
  | cs => cs ≠ []

inductive BadClass (text : String) : GenError → Prop where
  | bracket (h : ']' ∈ text.toList) (he : parseBody text = .error e) : BadClass text (.pattern e)
  | empty (h : text = "") : BadClass text (.compile (.emptyClass "[]"))
  | excluded (h : ']' ∉ text.toList) (ht : text.toList = '^' :: cs)
      (hc : ∀ c, ' ' ≤ c → c ≤ '~' → ∃ e ∈ scanItems cs, e.contains c) :
    BadClass text (.compile (.emptyComplement ("[" ++ text ++ "]") "[ -~]"))

/-- Why there is no password of the length. Of several bad classes the first is told of. -/
inductive RefusedPassword (length : Nat) (classes : List String) : GenError → Prop where
  | short (h : length < classes.length) :
    RefusedPassword length classes (.shortPassword length classes.length)
  | badClass (hle : classes.length ≤ length) (h : classes = before ++ text :: after)
      (hgood : ∀ t ∈ before, ']' ∉ t.toList ∧ Drawable t.toList) (hbad : BadClass text e) :
    RefusedPassword length classes e
  | noClasses (h : classes = []) (hpos : 0 < length) :
    RefusedPassword length classes (.compile (.emptyClass ""))

variable {text : String} {classes : List String} {pools : List CharPool}

theorem exists_allows_ofBody_iff (body : List Char) :
    (∃ c, (default : Negation).Allows (ofBody body) c) ↔ Drawable body := by
  fun_cases Drawable body with
  | case1 cs =>
    have hallows (c : Char) : (default : Negation).Allows (ofBody ('^' :: cs)) c ↔
        printableAscii.contains c ∧ ¬ (ofBody ('^' :: cs)).contains c :=
      Negation.allows_complement_iff rfl
    simp only [hallows, contains_iff, not_exists, not_and]
    simp [printableAscii, ofBody, ClassItem.contains, and_assoc]
  | case2 body hcs =>
    have hnegated : (ofBody body).negated ≠ true := by
      intro h
      obtain ⟨cs, hcaret⟩ := List.head?_eq_some_iff.1 (negated_ofBody_iff.1 h)
      exact hcs cs hcaret
    have hitems := items_ofBody body
    rw [if_neg hnegated] at hitems
    simp only [Negation.allows_iff_contains fun h => (hnegated h).elim, contains_iff, hitems]
    constructor
    · rintro ⟨c, e, he, -⟩ rfl
      cases he
    · intro h
      obtain ⟨e, he, c, hc⟩ := ClassItem.exists_contains_scanItems h
      exact ⟨c, e, he, hc⟩

theorem not_drawable_iff {body : List Char} :
    ¬ Drawable body ↔ body = [] ∨ ∃ cs, body = '^' :: cs ∧
      ∀ c, ' ' ≤ c → c ≤ '~' → ∃ e ∈ scanItems cs, e.contains c := by
  fun_cases Drawable body with
  | case1 cs => simp
  | case2 body hcs =>
    rw [Classical.not_not]
    refine ⟨.inl, ?_⟩
    rintro (h | ⟨cs, h, -⟩)
    · exact h
    · exact (hcs cs h).elim

theorem refusal_ofBody (text : String) :
    (default : Negation).refusal (ofBody text.toList) =
      if text.toList.head? = some '^' then .emptyComplement ("[" ++ text ++ "]") "[ -~]"
      else .emptyClass ("[" ++ text ++ "]") := by
  have hname : toString (ofBody text.toList) = "[" ++ text ++ "]" :=
    toString_of_printBody (printBody_ofBody _)
  unfold Negation.refusal
  simp only [← negated_ofBody_iff, hname]
  cases (ofBody text.toList).negated <;> rfl

/-- A class that is read is refused only for leaving no character to draw. -/
theorem ofClass_ofBody_eq_error_iff (hb : ']' ∉ text.toList) :
    CharPool.ofClass (ofBody text.toList) default = .error e ↔ BadClass text (.compile e) := by
  have hnone : (∀ c, (default : Negation).multiplicity (ofBody text.toList) c = 0) ↔
      ¬ Drawable text.toList := by
    rw [← exists_allows_ofBody_iff, not_exists]
    simp only [Negation.multiplicity_eq_zero_iff]
  rw [CharPool.ofClass_eq_error_iff, hnone, refusal_ofBody, not_drawable_iff]
  constructor
  · rintro ⟨ht | ⟨cs, ht, hc⟩, rfl⟩
    · rw [ht, if_neg (by decide), String.toList_eq_nil_iff.1 ht]
      exact .empty rfl
    · rw [ht, if_pos List.head?_cons]
      exact .excluded hb ht hc
  · intro h
    cases h with
    | empty ht =>
      rw [ht]
      exact ⟨.inl rfl, rfl⟩
    | excluded _ ht hc => exact ⟨.inr ⟨_, ht, hc⟩, by rw [ht, if_pos List.head?_cons]⟩

theorem exists_poolOf_iff :
    (∃ pool, poolOf text = .ok pool) ↔ ']' ∉ text.toList ∧ Drawable text.toList := by
  simp only [poolOf, bind_eq_ok_iff, mapError_eq_ok_iff, parseBody_eq_ok_iff,
    forall_staysInClass_iff, ← exists_allows_ofBody_iff, ← CharPool.exists_ofClass_iff]
  constructor
  · rintro ⟨pool, k, ⟨rfl, hb⟩, h⟩
    exact ⟨hb, pool, h⟩
  · rintro ⟨hb, pool, h⟩
    exact ⟨pool, _, ⟨rfl, hb⟩, h⟩

theorem poolOf_eq_error_iff : poolOf text = .error e ↔ BadClass text e := by
  simp only [poolOf, bind_eq_error_iff, mapError_eq_ok_iff, mapError_eq_error_iff,
    parseBody_eq_ok_iff, forall_staysInClass_iff]
  constructor
  · rintro (⟨e', he, rfl⟩ | ⟨k, ⟨rfl, hb⟩, e', he, rfl⟩)
    · exact .bracket (mem_of_parseBody_eq_error he) he
    · exact (ofClass_ofBody_eq_error_iff hb).1 he
  · intro h
    cases h with
    | bracket hb he => exact .inl ⟨_, he, rfl⟩
    | empty ht =>
      have hb : ']' ∉ text.toList := by
        rw [ht]
        exact List.not_mem_nil
      exact .inr ⟨_, ⟨rfl, hb⟩, _, (ofClass_ofBody_eq_error_iff hb).2 (.empty ht), rfl⟩
    | excluded hb ht hc =>
      exact .inr ⟨_, ⟨rfl, hb⟩, _, (ofClass_ofBody_eq_error_iff hb).2 (.excluded hb ht hc), rfl⟩

theorem count_ne_zero_of_poolOf (h : poolOf text = .ok pool) : pool.count ≠ 0 := by
  have hd := (exists_poolOf_iff.1 ⟨pool, h⟩).2
  obtain ⟨c, hc⟩ := (exists_allows_ofBody_iff _).2 hd
  exact CharPool.count_ne_zero_iff.2 ⟨c, (holds_poolOf h).2 hc⟩

theorem count_union_eq_zero_iff (hpools : ∀ pool ∈ pools, pool.count ≠ 0) :
    (CharPool.union pools).count = 0 ↔ pools = [] := by
  rw [← not_iff_not, ← Ne, CharPool.count_ne_zero_iff]
  simp only [CharPool.holds_union]
  constructor
  · rintro ⟨c, pool, hpool, -⟩ rfl
    cases hpool
  · intro h
    obtain ⟨pool, hpool⟩ := List.exists_mem_of_ne_nil _ h
    obtain ⟨c, hc⟩ := CharPool.count_ne_zero_iff.1 (hpools pool hpool)
    exact ⟨c, pool, hpool, hc⟩

theorem freePlaces_eq_error_iff (hpools : ∀ pool ∈ pools, pool.count ≠ 0) :
    freePlaces pools n = .error e ↔ pools = [] ∧ 0 < n ∧ e = .compile (.emptyClass "") := by
  rw [freePlaces]
  split
  · next hn =>
    rw [map_eq_error_iff, mapError_eq_error_iff]
    simp [CharPool.generator, ite_eq_error_iff, count_union_eq_zero_iff hpools, hn, and_assoc]
  · next hn => simp [hn]

/-- Once there are pools for all classes, only a lack of classes is refused. -/
theorem places_eq_error_iff (hpools : ∀ pool ∈ pools, pool.count ≠ 0)
    {f : List (Gen Char) → List (Gen Char) → Gen String} :
    ((pools.mapM fun (pool : CharPool) => pool.generator.mapError GenError.compile).bind
        fun required => (freePlaces pools n).map (f required)) = .error e ↔
      pools = [] ∧ 0 < n ∧ e = .compile (.emptyClass "") := by
  have hgenerator : ∀ pool ∈ pools, ∃ g, pool.generator.mapError GenError.compile = .ok g := by
    intro pool hpool
    rw [CharPool.generator, if_neg (hpools pool hpool)]
    exact ⟨_, rfl⟩
  obtain ⟨required, hrequired⟩ := exists_mapM_eq_ok hgenerator
  rw [hrequired]
  exact map_eq_error_iff.trans (freePlaces_eq_error_iff hpools)

theorem counts_ne_zero
    (h : List.Forall₂ (fun text pool => poolOf text = .ok pool) classes pools) :
    ∀ pool ∈ pools, pool.count ≠ 0 := by
  intro pool hpool
  obtain ⟨text, -, hok⟩ := exists_of_mem_forall₂ h hpool
  exact count_ne_zero_of_poolOf hok

theorem password_eq_error_iff {length : Nat} :
    password length classes = .error e ↔ RefusedPassword length classes e := by
  rw [password_eq]
  by_cases hshort : length < classes.length
  · rw [if_pos hshort]
    constructor
    · rintro ⟨⟩
      exact .short hshort
    · intro h
      cases h with
      | short => rfl
      | badClass hle => exact (Nat.not_le.2 hshort hle).elim
      | noClasses h => simp [h] at hshort
  · rw [if_neg hshort, bind_eq_error_iff, mapM_eq_error_iff]
    simp only [exists_poolOf_iff, poolOf_eq_error_iff]
    constructor
    · rintro (⟨before, text, after, hclasses, hgood, hbad⟩ | ⟨pools, hpools, he⟩)
      · exact .badClass (Nat.le_of_not_lt hshort) hclasses hgood hbad
      · rw [mapM_eq_ok_iff] at hpools
        obtain ⟨rfl, hpos, rfl⟩ := (places_eq_error_iff (counts_ne_zero hpools)).1 he
        cases hpools
        exact .noClasses rfl hpos
    · intro h
      cases h with
      | short h => exact (hshort h).elim
      | badClass _ hclasses hgood hbad => exact .inl ⟨_, _, _, hclasses, hgood, hbad⟩
      | noClasses h hpos =>
        subst h
        exact .inr ⟨[], rfl, (places_eq_error_iff (List.forall_mem_nil _)).2 ⟨rfl, hpos, rfl⟩⟩

theorem BadClass.not_good (h : BadClass text e) : ¬ (']' ∉ text.toList ∧ Drawable text.toList) := by
  intro hgood
  obtain ⟨pool, hok⟩ := exists_poolOf_iff.2 hgood
  cases hok.symm.trans (poolOf_eq_error_iff.2 h)

/-- There are passwords of the length unless it is less than the number of classes, or a class is
bad, or there are no classes to draw from. The length is looked at first, and the classes are gone
through from left to right. -/
theorem password_refusals (length : Nat) (classes : List String) :
    ((∃ g, password length classes = .ok g) ↔
      classes.length ≤ length ∧ (∀ text ∈ classes, ']' ∉ text.toList ∧ Drawable text.toList) ∧
        (0 < classes.length ∨ length = 0)) ∧
    ∀ e, password length classes = .error e ↔ RefusedPassword length classes e := by
  refine ⟨?_, fun e => password_eq_error_iff⟩
  constructor
  · rintro ⟨g, h⟩
    obtain ⟨hle, pools, _, free, hpools, -, hfree, -⟩ := exists_of_password_eq_ok h
    refine ⟨hle, ?_, ?_⟩
    · intro text htext
      obtain ⟨pool, -, hok⟩ := exists_of_mem_forall₂ hpools.flip htext
      exact exists_poolOf_iff.1 ⟨pool, hok⟩
    · rcases Nat.eq_zero_or_pos length with hzero | hlt
      · exact .inr hzero
      · refine .inl (Nat.pos_of_ne_zero fun hnone => ?_)
        have hclasses := List.length_eq_zero_iff.1 hnone
        cases h.symm.trans (password_eq_error_iff.2 (.noClasses hclasses hlt))
  · rintro ⟨hle, hgood, hpos⟩
    cases h : password length classes with
    | ok g => exact ⟨g, rfl⟩
    | error e =>
      cases password_eq_error_iff.1 h with
      | short hshort => exact (Nat.not_le.2 hshort hle).elim
      | badClass _ hclasses _ hbad =>
        subst hclasses
        exact (hbad.not_good (hgood _ (List.mem_append_right _ List.mem_cons_self))).elim
      | noClasses hclasses hlt =>
        subst hclasses
        exact (hpos.elim (Nat.lt_irrefl 0) (Nat.ne_of_gt hlt)).elim

/-- A class that excludes all that is printable comes before one with a bracket, and too small a
length before both. -/
theorem password_refusals_leftmost :
    let classes := ["^ -z", "^ -~", "]"]
    password 8 classes = .error (.compile (.emptyComplement "[^ -~]" "[ -~]")) ∧
      password 2 classes = .error (.shortPassword 2 3) := by
  intro classes
  have hclasses : classes = ["^ -z"] ++ "^ -~" :: ["]"] := rfl
  have hgood : ∀ t ∈ ["^ -z"], ']' ∉ t.toList ∧ Drawable t.toList := by
    rw [List.forall_mem_singleton]
    exact ⟨by decide, '~', by decide, by decide, by decide⟩
  have hbad : BadClass "^ -~" (.compile (.emptyComplement "[^ -~]" "[ -~]")) := by
    refine .excluded (by decide) rfl ?_
    intro c hlo hhi
    exact ⟨.range ' ' '~', by decide, by simp [ClassItem.contains, hlo, hhi]⟩
  constructor
  · exact ((password_refusals 8 classes).2 _).2 (.badClass (by decide) hclasses hgood hbad)
  · exact ((password_refusals 2 classes).2 _).2 (.short (by decide))

end Gen

end PatternGen
