import PatternGen.Proofs.Gen.Compile
import PatternGen.Proofs.Gen.Password
import PatternGen.Proofs.Gen.Range

namespace PatternGen.Gen

/-- Generators that were built, by what can build them and what can be made of them. -/
inductive Built : {α : Type} → Gen α → Prop where
  | constant (a : α) : Built (constant a)
  | generator {p : Pattern} (h : p.generator o = .ok g) : Built g
  | ofPattern (h : ofPattern text o = .ok g) : Built g
  | password (h : password length classes = .ok g) : Built g
  | pool {p : CharPool} (h : p.generator = .ok g) : Built g
  | character (h : character text = .ok g) : Built g
  | charOf (h : charOf text = .ok g) : Built g
  | oneOf {items : List α} (h : oneOf items = .ok g) : Built g
  | intRange (h : intRange lo hi = .ok g) : Built g
  | longRange (h : longRange lo hi = .ok g) : Built g
  | double : Built double
  | dateRangeBy (hs : SpanFits t u step) (hc : StaysInCalendar t u step)
      (h : dateRangeBy t u step = .ok g) : Built g
  | sequenceBetween {g : Gen α} (hg : Built g) (h : g.sequenceBetween lo hi = .ok gs) : Built gs
  | stringBetween {g : Gen Char} (hg : Built g) (h : g.stringBetween lo hi = .ok gs) : Built gs
  | map {g : Gen α} (hg : Built g) (f : α → β) : Built (g.map f)
  | bind {g : Gen α} {f : α → Gen β} (hg : Built g) (hf : ∀ a, g.Draws a → Built (f a)) :
    Built (g.bind f)
  | zip {g : Gen α} {h : Gen β} (hg : Built g) (hh : Built h) : Built (g.zip h)
  | sequence {g : Gen α} (hg : Built g) (length : Nat) : Built (g.sequence length)
  | pivot {gs : List (Gen α)} (h : ∀ g ∈ gs, Built g) : Built (pivot gs)
  | shuffle (items : List α) : Built (shuffle items)

variable {α β σ : Type}

def int64? (n : Int) : Option Int :=
  if Int64.minValue.toInt ≤ n ∧ n ≤ Int64.maxValue.toInt then some n else none

theorem pivot_map_constant (as : List α) : pivot (as.map constant) = constant as := by
  have honto (drawn : List α) :
      pivotOnto drawn (as.map constant) = constant (drawn.reverse ++ as) := by
    induction as generalizing drawn with
    | nil => simp [pivotOnto]
    | cons a as ih =>
      rw [List.map_cons, pivotOnto, bind, ih]
      simp
  exact honto []

theorem pivot_found {items : List α} {f : Nat → α} {indices : List Nat}
    (h : ∀ i ∈ indices, items[i]? = some (f i)) :
    pivot (indices.map fun i => found items[i]?) = constant (indices.map f) := by
  have hfound : indices.map (fun i => found items[i]?) = (indices.map f).map constant := by
    rw [List.map_map]
    apply List.map_congr_left
    intro i hi
    rw [h i hi]
    rfl
  rw [hfound, pivot_map_constant]

/-- A look-up that finds its value for all answers can be left unchecked. -/
theorem map_eq_found {g : Gen α} {f : α → β} {find : α → Option β}
    (h : ∀ a, g.Yields a → find a = some (f a)) : g.map f = g.bind fun a => found (find a) := by
  apply bind_congr
  intro a ha
  rw [h a ha]
  rfl

theorem map_get_eq_found (w : Width) (items : List α) :
    (choose w items.length).map items.get =
      (choose w items.length).bind fun i => found items[i.val]? := by
  apply map_eq_found
  intro i _
  exact List.getElem?_eq_getElem i.isLt

theorem chooseBranch_eq_found {gs : List (Gen (List Char))}
    (h : Pattern.chooseBranch gs = .ok g) :
    g = ((choose .word64 gs.length).bind fun i => found gs[i.val]?).bind id := by
  rw [Pattern.chooseBranch] at h
  split at h
  · cases h
  · cases h
    rw [← map_get_eq_found, map, bind_assoc]
    rfl

theorem pool_eq_found {p : CharPool} (h : p.generator = .ok g) :
    g = (choose .word64 p.count).bind fun i => found (p.get? i.val) := by
  rw [CharPool.generator] at h
  split at h
  · cases h
  · cases h
    apply map_eq_found
    intro i _
    exact (Option.some_get _).symm

theorem eq_choose_of_oneOf {items : List α} (h : oneOf items = .ok g) :
    items ≠ [] ∧ g = (choose .word64 items.length).map items.get := by
  rw [oneOf] at h
  split at h
  · cases h
  · next hitems =>
    cases h
    rw [List.isEmpty_iff] at hitems
    exact ⟨hitems, rfl⟩

theorem oneOf_eq_found {items : List α} (h : oneOf items = .ok g) :
    g = (choose .word64 items.length).bind fun i => found items[i.val]? := by
  obtain ⟨-, rfl⟩ := eq_choose_of_oneOf h
  exact map_get_eq_found _ _

/-- The indices of the generators that a password takes its characters from: each class once, and
then all classes together. -/
def passwordIndices (length classes : Nat) : List Nat :=
  List.range classes ++ List.replicate (length - classes) classes

theorem getElem?_eq_getD {items : List α} (h : i < items.length) (a : α) :
    items[i]? = some (items.getD i a) := by
  rw [List.getD_eq_getElem?_getD, List.getElem?_eq_getElem h]
  rfl

theorem map_getD_range (xs ys : List α) (a : α) :
    (List.range xs.length).map (fun i => (xs ++ ys).getD i a) = xs := by
  apply List.ext_getElem
  · simp
  · intro i _ hi
    simp [List.getElem?_append_left hi, List.getElem?_eq_getElem hi]

/-- The generators of the places are those with the indices. The one for all classes together is
there if its index is. -/
theorem exists_indexed {required : List (Gen Char)}
    (h : freePlaces pools (length - required.length) = .ok free) :
    ∃ (gs : List (Gen Char)) (f : Nat → Gen Char),
      gs.length = required.length + (if required.length < length then 1 else 0) ∧
      (∀ i ∈ passwordIndices length required.length, gs[i]? = some (f i)) ∧
        (passwordIndices length required.length).map f = required ++ free := by
  rw [freePlaces] at h
  split at h
  · next hn =>
    -- one more generator, which all free places share
    obtain ⟨any, -, rfl⟩ := map_eq_ok_iff.1 h
    refine ⟨required ++ [any], fun i => (required ++ [any]).getD i any, ?_, ?_, ?_⟩
    · rw [if_pos (Nat.lt_of_sub_pos hn), List.length_append]
      rfl
    · intro i hi
      have hle : i ≤ required.length := by
        simp only [passwordIndices, List.mem_append, List.mem_range, List.mem_replicate] at hi
        omega
      apply getElem?_eq_getD
      rw [List.length_append]
      exact Nat.lt_succ_of_le hle
    · rw [passwordIndices, List.map_append, map_getD_range, List.map_replicate]
      simp
  · next hn =>
    cases h
    -- no place is free, so every index is that of a class
    have hindices : passwordIndices length required.length = List.range required.length := by
      rw [passwordIndices, Nat.eq_zero_of_not_pos hn]
      exact List.append_nil _
    rw [hindices]
    refine ⟨required, fun i => required.getD i (constant default), ?_, ?_, ?_⟩
    · rw [if_neg (by omega), Nat.add_zero]
    · intro i hi
      exact getElem?_eq_getD (List.mem_range.1 hi) _
    · simpa using map_getD_range required [] (constant default)

theorem password_eq_found {length : Nat} {classes : List String}
    (h : password length classes = .ok g) :
    ∃ gs : List (Gen Char),
      gs.length = classes.length + (if classes.length < length then 1 else 0) ∧
      g = ((shuffle (passwordIndices length classes.length)).bind fun indices =>
        (pivot (indices.map fun i => found gs[i]?)).bind pivot).map String.ofList := by
  obtain ⟨-, pools, required, free, -, hrequired, hfree, rfl⟩ := exists_of_password_eq_ok h
  rw [hrequired.length_eq] at hfree ⊢
  obtain ⟨gs, f, hlength, hgs, hf⟩ := exists_indexed hfree
  refine ⟨gs, hlength, congrArg (Gen.map String.ofList) ?_⟩
  rw [← hf, shuffle_map, map, bind_assoc]
  apply bind_congr
  intro indices hindices
  have hall : ∀ i ∈ indices, gs[i]? = some (f i) := by
    intro i hi
    exact hgs i ((yields_shuffle_iff.1 hindices).mem_iff.1 hi)
  rw [pivot_found hall]

/-- Steps that are counted end within the span. -/
theorem steps?_eq_some (h : steps? span step = some (n, st)) :
    0 < st ∧ ∀ k, k < n → k * st ≤ Int64.maxValue.toInt := by
  obtain ⟨-, hst, hmax, rfl, rfl⟩ := exists_of_steps?_eq_some h
  refine ⟨hst, ?_⟩
  intro k hk
  have hlt := (lt_multiples_iff hst).1 hk
  exact Int.le_trans (Int.le_of_lt hlt) hmax

theorem dateRangeBy_eq_found (h : dateRangeBy t u step = .ok g) :
    ∃ n st ks, steps? (t.nanosecondsTo u) step = some (n, st) ∧ longRange 0 n = .ok ks ∧
      g = (ks.bind fun k => found (int64? (k * st))).bind fun n =>
        found (t.addMicroseconds? n) := by
  obtain ⟨n, st, ks, hsteps, hks, rfl⟩ := exists_of_dateRangeBy_eq_ok h
  have hfound : ∀ k, ks.Yields k → int64? (k * st) = some (k * st) := by
    intro k hk
    obtain ⟨h0, hn⟩ := (yields_range_iff hks).1 hk
    obtain ⟨hst, hle⟩ := steps?_eq_some hsteps
    have hlow : Int64.minValue.toInt ≤ k * st := by
      calc Int64.minValue.toInt
        _ ≤ 0 := by decide
        _ ≤ k * st := Int.mul_nonneg h0 (Int.le_of_lt hst)
    rw [int64?, if_pos ⟨hlow, hle k hn⟩]
  refine ⟨n, st, ks, hsteps, hks, ?_⟩
  rw [← map_eq_found hfound, map, bind_assoc]
  rfl

theorem answerable_ofPattern (h : ofPattern text o = .ok g) : g.Answerable := by
  obtain ⟨p, -, h⟩ := bind_eq_ok_iff.1 h
  exact (Pattern.generates_generator (mapError_eq_ok_iff.1 h)).1

theorem answerable_character (h : character text = .ok g) : g.Answerable := by
  obtain ⟨pool, -, h⟩ := bind_eq_ok_iff.1 h
  exact CharPool.answerable_generator (mapError_eq_ok_iff.1 h)

theorem answerable_oneOf {items : List α} (h : oneOf items = .ok g) : g.Answerable := by
  obtain ⟨hitems, rfl⟩ := eq_choose_of_oneOf h
  exact (answerable_choose _ (List.length_pos_iff.2 hitems)).map

theorem answerable_sequenceBetween {g : Gen α} (hg : g.Answerable)
    (h : g.sequenceBetween lo hi = .ok gs) : gs.Answerable := by
  rw [sequenceBetween] at h
  split at h
  · next hlt =>
    cases h
    exact answerable_sequenceIn hg hlt
  · cases h

theorem Built.answerable {g : Gen α} (h : Built g) : g.Answerable := by
  induction h with
  | constant a => trivial
  | generator h => exact (Pattern.generates_generator h).1
  | ofPattern h => exact answerable_ofPattern h
  | password h => exact answerable_password h
  | pool h => exact CharPool.answerable_generator h
  | character h => exact answerable_character h
  | charOf h => exact answerable_oneOf h
  | oneOf h => exact answerable_oneOf h
  | intRange h => exact answerable_range h
  | longRange h => exact answerable_range h
  | double => exact ⟨by decide, fun _ => trivial⟩
  | dateRangeBy _ hc h => exact (answerable_dateRangeBy_iff h).2 hc
  | sequenceBetween _ h ih => exact answerable_sequenceBetween ih h
  | stringBetween _ h ih =>
    obtain ⟨gs, hgs, rfl⟩ := map_eq_ok_iff.1 h
    exact (answerable_sequenceBetween ih hgs).map
  | map _ f ih => exact ih.map
  | bind _ _ ih ihf =>
    apply ih.bind
    intro a ha
    exact ihf a (draws_iff_yields.2 ha)
  | zip _ _ ihg ihh => exact ihg.zip ihh
  | sequence _ length ih => exact answerable_sequence ih length
  | pivot _ ih => exact answerable_pivot ih
  | shuffle items => exact answerable_shuffle items

theorem exists_eq_ok_of_toBool {ε : Type} {x : Except ε α} (h : x.toBool) : ∃ a, x = .ok a := by
  cases x with
  | error e => cases h
  | ok a => exact ⟨a, rfl⟩

/-- Every source draws a value from a generator that was built, so each draw on the way has an
answer, unless instants are drawn and the steps to them lead past the end of the calendar. Only
ranges that end in the leap second there have such steps. Generators are the same when their
look-ups and products are checked: what is looked up is always there. -/
theorem drawing_never_fails {α : Type} {g : Gen α} (h : Built g) :
    (∀ {σ : Type} (m : Sampler σ) (s : σ), ∃ a t, g.run m s = some (a, t)) ∧
    (∀ {gs g}, Pattern.chooseBranch gs = .ok g →
      g = ((choose .word64 gs.length).bind fun i => found gs[i.val]?).bind id) ∧
    (∀ {p : CharPool} {g}, p.generator = .ok g →
      g = (choose .word64 p.count).bind fun i => found (p.get? i.val)) ∧
    (∀ {α : Type} {items : List α} {g}, oneOf items = .ok g →
      g = (choose .word64 items.length).bind fun i => found items[i.val]?) ∧
    (∀ {length classes g}, password length classes = .ok g → ∃ gs : List (Gen Char),
      gs.length = classes.length + (if classes.length < length then 1 else 0) ∧
      g = ((shuffle (passwordIndices length classes.length)).bind fun indices =>
        (pivot (indices.map fun i => found gs[i]?)).bind pivot).map String.ofList) ∧
    (∀ {t u step g}, dateRangeBy t u step = .ok g →
      (∃ n st ks, steps? (t.nanosecondsTo u) step = some (n, st) ∧ longRange 0 n = .ok ks ∧
        g = (ks.bind fun k => found (int64? (k * st))).bind fun n =>
          found (t.addMicroseconds? n)) ∧
      ((∀ {σ : Type} (m : Sampler σ) (s : σ), ∃ i s', g.run m s = some (i, s')) ↔
        StaysInCalendar t u step) ∧
      ((u.isLeap → u.second < Instant.lastSecond) → StaysInCalendar t u step)) ∧
    ∀ {o : Options} {r hi}, o.maxRounds r = .ok hi →
      r.min.toNat < hi.toNat + 1 ∧ hi.toNat + 1 < UInt64.size := by
  refine ⟨?_, chooseBranch_eq_found, pool_eq_found, oneOf_eq_found, password_eq_found, ?_, ?_⟩
  · intro σ m s
    obtain ⟨a, t, hr, -⟩ := h.answerable.run m s
    exact ⟨a, t, hr⟩
  · intro t u step g h
    refine ⟨dateRangeBy_eq_found h, ?_, fun hu => staysInCalendar hu h⟩
    rw [← answerable_dateRangeBy_iff h]
    exact runs_iff_answerable
  · intro o r hi h
    obtain ⟨hle, -⟩ := Pattern.le_maxRounds h
    exact ⟨Nat.lt_succ_of_le hle, Nat.lt_of_le_of_lt hi.toNat_lt (by decide)⟩

/-- A password and a day are drawn together. -/
theorem drawing_password_and_day :
    let first : Instant := .midnight 2020 1 1
    let last : Instant := .midnight 2020 1 11
    let day : Int := 86400 * Instant.billion
    ∃ g h, password 3 ["a-z", "!@"] = .ok g ∧ dateRangeBy first last day = .ok h ∧
      ∃ a t, (g.zip h).run Source.sampler (.ofSeed 42) = some (a, t) := by
  intro first last day
  obtain ⟨g, hg⟩ := exists_eq_ok_of_toBool (x := password 3 ["a-z", "!@"]) (by decide +kernel)
  obtain ⟨h, hh⟩ := exists_eq_ok_of_toBool (x := dateRangeBy first last day) (by decide +kernel)
  have hspan : SpanFits first last day := by decide
  have hstays : StaysInCalendar first last day := by decide
  have hbuilt : Built (g.zip h) := .zip (.password hg) (.dateRangeBy hspan hstays hh)
  exact ⟨g, h, hg, hh, (drawing_never_fails hbuilt).1 Source.sampler (.ofSeed 42)⟩

/-- Of ten quarters of a second until the middle of the leap second at the end of the calendar, the
last two lead past it. -/
theorem not_drawing_never_fails_last_second :
    ¬ ∀ (t u : Instant) (step : Int) (g : Gen Instant), SpanFits t u step →
      dateRangeBy t u step = .ok g → ∀ {σ : Type} (m : Sampler σ) (s : σ),
        ∃ i s', g.run m s = some (i, s') := by
  intro h
  let t : Instant := .mk 8210266876798 0
  let u : Instant := .mk 8210266876799 1500000000
  have hfit : SpanFits t u 250000000 := by decide
  obtain ⟨g, hg⟩ := (exists_dateRangeBy_iff hfit).2 (by decide)
  have hstays := (answerable_dateRangeBy_iff hg).1 (runs_iff_answerable.1 (h t u _ g hfit hg))
  exact absurd hstays (by decide)

end PatternGen.Gen
