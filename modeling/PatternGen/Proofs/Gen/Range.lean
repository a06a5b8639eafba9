import PatternGen.Proofs.Gen.Pools
import PatternGen.Proofs.Time.Moving

namespace PatternGen.Gen

variable {t u i : Instant} {span step n m : Int}

/-- How many multiples of a step, from zero on, come before the end of a span. -/
def multiples (span step : Int) : Int := (span + step - 1) / step

theorem lt_multiples_iff (hstep : 0 < step) : n < multiples span step ↔ n * step < span := by
  rw [multiples, Int.lt_iff_add_one_le, Int.le_ediv_iff_mul_le hstep, Int.add_mul]
  omega

theorem multiples_pos (hspan : 0 < span) (hstep : 0 < step) : 0 < multiples span step := by
  rw [lt_multiples_iff hstep]
  omega

theorem multiples_le_one_iff (hstep : 0 < step) : multiples span step ≤ 1 ↔ span ≤ step := by
  have h : 1 < multiples span step ↔ 1 * step < span := lt_multiples_iff hstep
  omega

theorem thousand_tdiv_pos_iff : 0 < n.tdiv 1000 ↔ 1000 ≤ n := by
  rw [Int.tdiv_eq_ediv]
  split
  · omega
  · next h =>
    rw [not_or] at h
    have hsign : Int.sign 1000 = 1 := rfl
    omega

theorem microseconds?_eq_some_iff :
    microseconds? n = some m ↔
      m = n.tdiv 1000 ∧ Int64.minValue.toInt ≤ m ∧ m ≤ Int64.maxValue.toInt := by
  change (if Int64.minValue.toInt ≤ n.tdiv 1000 ∧ n.tdiv 1000 ≤ Int64.maxValue.toInt
    then some (n.tdiv 1000) else none) = some m ↔ _
  rw [Option.ite_none_right_eq_some, Option.some_inj]
  constructor
  · rintro ⟨h, rfl⟩
    exact ⟨rfl, h⟩
  · rintro ⟨rfl, h⟩
    exact ⟨h, rfl⟩

/-- The whole microseconds of the step divide those of the span, rounded up. -/
theorem exists_of_steps?_eq_some (h : steps? span step = some (n, m)) :
    0 < span.tdiv 1000 ∧ 0 < step.tdiv 1000 ∧ span.tdiv 1000 ≤ Int64.maxValue.toInt ∧
      n = multiples (span.tdiv 1000) (step.tdiv 1000) ∧ m = step.tdiv 1000 := by
  rw [steps?] at h
  split at h
  · next sp st hspan hstep =>
    obtain ⟨rfl, -, hmax⟩ := microseconds?_eq_some_iff.1 hspan
    obtain ⟨rfl, -⟩ := microseconds?_eq_some_iff.1 hstep
    split at h
    · next hpos =>
      cases h
      refine ⟨hpos.1, hpos.2, hmax, ?_, rfl⟩
      rw [multiples, Int.tdiv_eq_ediv_of_nonneg (by omega)]
    · cases h
  · cases h

/-- The span between two instants and a step, in microseconds, fit into 64 bits together. -/
def SpanFits (t u : Instant) (step : Int) : Prop :=
  (t.nanosecondsTo u).tdiv 1000 + step.tdiv 1000 ≤ Int64.maxValue.toInt

instance : Decidable (SpanFits t u step) := inferInstanceAs (Decidable (_ ≤ _))

theorem eq_choose_of_range {lo hi : Int} (h : range w lo hi = .ok g) :
    lo < hi ∧ g = (choose w (hi - lo).toNat).map fun i => lo + i.val := by
  rw [range] at h
  split at h
  · next hlt =>
    cases h
    exact ⟨hlt, rfl⟩
  · cases h

theorem yields_range_iff {lo hi : Int} (h : range w lo hi = .ok g) :
    g.Yields k ↔ lo ≤ k ∧ k < hi := by
  obtain ⟨hlt, rfl⟩ := eq_choose_of_range h
  rw [yields_map_iff]
  constructor
  · intro h
    obtain ⟨i, -, rfl⟩ := h
    have hbound := i.isLt
    omega
  · intro h
    refine ⟨⟨(k - lo).toNat, by omega⟩, yields_choose _ _, ?_⟩
    change k = lo + (k - lo).toNat
    omega

theorem answerable_range {lo hi : Int} (h : range w lo hi = .ok g) : g.Answerable := by
  obtain ⟨hlt, rfl⟩ := eq_choose_of_range h
  have hpos : 0 < (hi - lo).toNat := by omega
  exact (answerable_choose w hpos).map

theorem exists_of_dateRangeBy_eq_ok (h : dateRangeBy t u step = .ok g) :
    ∃ n st ks, steps? (t.nanosecondsTo u) step = some (n, st) ∧ longRange 0 n = .ok ks ∧
      g = ks.bind fun k => found (t.addMicroseconds? (k * st)) := by
  unfold dateRangeBy at h
  split at h
  · next n st hsteps =>
    obtain ⟨ks, hks, rfl⟩ := map_eq_ok_iff.1 h
    exact ⟨n, st, ks, hsteps, hks, rfl⟩
  · cases h

theorem steps?_eq_some_multiples
    (hfit : (t.nanosecondsTo u).tdiv 1000 + step.tdiv 1000 - 1 ≤ Int64.maxValue.toInt)
    (hspan : 0 < (t.nanosecondsTo u).tdiv 1000) (hstep : 0 < step.tdiv 1000) :
    steps? (t.nanosecondsTo u) step =
      some (multiples ((t.nanosecondsTo u).tdiv 1000) (step.tdiv 1000), step.tdiv 1000) := by
  have hmin : Int64.minValue.toInt ≤ 0 := by decide
  have hsome {n : Int} (hpos : 0 < n.tdiv 1000) (hle : n.tdiv 1000 ≤ Int64.maxValue.toInt) :
      microseconds? n = some (n.tdiv 1000) :=
    microseconds?_eq_some_iff.2 ⟨rfl, Int.le_trans hmin hpos.le, hle⟩
  rw [steps?, hsome hspan (by omega), hsome hstep (by omega)]
  dsimp only
  rw [if_pos ⟨hspan, hstep⟩, multiples, Int.tdiv_eq_ediv_of_nonneg (by omega)]

/-- There is something to draw if the span and the step last a microsecond. -/
theorem exists_dateRangeBy_iff_pos
    (hfit : (t.nanosecondsTo u).tdiv 1000 + step.tdiv 1000 - 1 ≤ Int64.maxValue.toInt) :
    (∃ g, dateRangeBy t u step = .ok g) ↔
      0 < (t.nanosecondsTo u).tdiv 1000 ∧ 0 < step.tdiv 1000 := by
  constructor
  · intro h
    obtain ⟨g, h⟩ := h
    obtain ⟨n, m, ks, hsteps, -, -⟩ := exists_of_dateRangeBy_eq_ok h
    obtain ⟨hspan, hstep, -⟩ := exists_of_steps?_eq_some hsteps
    exact ⟨hspan, hstep⟩
  · intro h
    obtain ⟨hspan, hstep⟩ := h
    unfold dateRangeBy
    rw [steps?_eq_some_multiples hfit hspan hstep]
    dsimp only
    rw [longRange, range, if_pos (multiples_pos hspan hstep)]
    exact ⟨_, rfl⟩

theorem exists_dateRangeBy_iff (hfit : SpanFits t u step) :
    (∃ g, dateRangeBy t u step = .ok g) ↔
      0 < (t.nanosecondsTo u).tdiv 1000 ∧ 0 < step.tdiv 1000 :=
  exists_dateRangeBy_iff_pos (Int.le_trans (Int.sub_le_self _ (by decide)) hfit)

/-- The instants that lie so many multiples of a step after the first one. -/
def Reached (t : Instant) (count step : Int) (i : Instant) : Prop :=
  ∃ k : Nat, k < count ∧ t.addNanoseconds? (k * step) = some i

/-- Whole microseconds of the step are taken as often as they fit into those of the span. -/
theorem draws_dateRangeBy_iff (h : dateRangeBy t u step = .ok g) :
    g.Draws i ↔ Reached t (multiples ((t.nanosecondsTo u).tdiv 1000) (step.tdiv 1000))
      (1000 * step.tdiv 1000) i := by
  obtain ⟨n, m, ks, hsteps, hks, rfl⟩ := exists_of_dateRangeBy_eq_ok h
  obtain ⟨-, -, -, rfl, rfl⟩ := exists_of_steps?_eq_some hsteps
  rw [draws_iff_yields, yields_bind_iff]
  simp only [yields_found_iff, yields_range_iff hks, Instant.addMicroseconds?]
  constructor
  · intro h
    obtain ⟨k, ⟨h0, hlt⟩, hi⟩ := h
    obtain ⟨k, rfl⟩ := Int.eq_ofNat_of_zero_le h0
    exact ⟨k, hlt, by rw [Int.mul_left_comm, hi]⟩
  · intro h
    obtain ⟨k, hk, hi⟩ := h
    exact ⟨k, ⟨Int.natCast_nonneg k, hk⟩, by rw [Int.mul_left_comm, hi]⟩

/-- Of the steps that are counted, the last one ends last. -/
theorem forall_steps_lt_iff (hn : 0 < n) (hm : 0 < m) {limit : Int} :
    (∀ k, 0 ≤ k ∧ k < n → 1000 * (k * m) < limit) ↔ 1000 * ((n - 1) * m) < limit := by
  constructor
  · intro h
    exact h (n - 1) ⟨by omega, by omega⟩
  · intro h k hk
    have hle : k * m ≤ (n - 1) * m := Int.mul_le_mul_of_nonneg_right (by omega) hm.le
    omega

/-- The last of the steps that are counted ends before the calendar does. -/
def StaysInCalendar (t u : Instant) (step : Int) : Prop :=
  1000 * ((multiples ((t.nanosecondsTo u).tdiv 1000) (step.tdiv 1000) - 1) * step.tdiv 1000) <
    t.untilEnd

instance : Decidable (StaysInCalendar t u step) := inferInstanceAs (Decidable (_ < _))

/-- Drawing an instant fails just where a step leads past the end of the calendar. -/
theorem answerable_dateRangeBy_iff (h : dateRangeBy t u step = .ok g) :
    g.Answerable ↔ StaysInCalendar t u step := by
  obtain ⟨n, m, ks, hsteps, hks, rfl⟩ := exists_of_dateRangeBy_eq_ok h
  obtain ⟨hspan, hm, -, rfl, rfl⟩ := exists_of_steps?_eq_some hsteps
  rw [StaysInCalendar, ← forall_steps_lt_iff (multiples_pos hspan hm) hm]
  have hexists {k : Int} (hk : 0 ≤ k) :
      (∃ i, t.addMicroseconds? (k * step.tdiv 1000) = some i) ↔
        1000 * (k * step.tdiv 1000) < t.untilEnd :=
    Instant.exists_addNanoseconds?_iff
      (Int.mul_nonneg (by decide) (Int.mul_nonneg hk hm.le))
  constructor
  · intro hall k hk
    have hfound := hall.of_bind ((yields_range_iff hks).2 hk)
    exact (hexists hk.1).1 (answerable_found_iff.1 hfound)
  · intro hall
    apply (answerable_range hks).bind
    intro k hk
    have hk := (yields_range_iff hks).1 hk
    exact answerable_found_iff.2 ((hexists hk.1).2 (hall k hk))

theorem thousand_mul_tdiv_le (hn : 0 < n.tdiv 1000) : 1000 * n.tdiv 1000 ≤ n := by
  rw [Int.tdiv_eq_ediv_of_nonneg (Int.le_trans (by decide) (thousand_tdiv_pos_iff.1 hn))]
  omega

/-- The last step ends before the span does. -/
theorem last_step_lt (hspan : 0 < span.tdiv 1000) (hm : 0 < m) :
    1000 * ((multiples (span.tdiv 1000) m - 1) * m) < span := by
  have hlt : (multiples (span.tdiv 1000) m - 1) * m < span.tdiv 1000 :=
    (lt_multiples_iff hm).1 (by omega)
  have hle := thousand_mul_tdiv_le hspan
  omega

/-- Only in the leap second at the very end of the calendar is more counted than there is left. -/
theorem staysInCalendar (hu : u.isLeap → u.second < Instant.lastSecond)
    (h : dateRangeBy t u step = .ok g) : StaysInCalendar t u step := by
  obtain ⟨n, m, ks, hsteps, -, -⟩ := exists_of_dateRangeBy_eq_ok h
  obtain ⟨hspan, hm, -⟩ := exists_of_steps?_eq_some hsteps
  exact Int.lt_of_lt_of_le (last_step_lt hspan hm) (Instant.nanosecondsTo_le_untilEnd hu)

end PatternGen.Gen
