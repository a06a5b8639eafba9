import PatternGen.Proofs.Gen.Grid

namespace PatternGen.Gen

variable {t u i : Instant} {span step st n k : Int} {g : Gen Instant}

def FitsWord (n : Int) : Prop := Int64.minValue.toInt ≤ n ∧ n ≤ Int64.maxValue.toInt

theorem fitsWord_of_nonneg (hn : 0 ≤ n) (hle : n ≤ Int64.maxValue.toInt) : FitsWord n :=
  ⟨Int.le_trans (by decide) hn, hle⟩

theorem bmod_of_fitsWord (h : FitsWord n) : n.bmod (2 ^ 64) = n := by
  obtain ⟨hmin, hmax⟩ := h
  have hmin' : Int64.minValue.toInt = -2 ^ 63 := rfl
  have hmax' : Int64.maxValue.toInt = 2 ^ 63 - 1 := rfl
  apply Int.bmod_eq_of_le <;> omega

theorem toInt_ofInt_of_fitsWord (h : FitsWord n) : (Int64.ofInt n).toInt = n := by
  rw [Int64.toInt_ofInt]
  exact bmod_of_fitsWord h

theorem toInt_mul_of_fitsWord (hn : FitsWord n) (hst : FitsWord st) (h : FitsWord (n * st)) :
    (Int64.ofInt n * Int64.ofInt st).toInt = n * st := by
  rw [Int64.toInt_mul, toInt_ofInt_of_fitsWord hn, toInt_ofInt_of_fitsWord hst, bmod_of_fitsWord h]

def countInWords (span step : Int) : Int64 :=
  (Int64.ofInt span + Int64.ofInt step - 1) / Int64.ofInt step

/-- Counting in words is right even where the span and the step add up to one too many, as one is
taken away again. -/
theorem toInt_countInWords (hspan : 0 < span) (hst : 0 < st)
    (hfit : span + st - 1 ≤ Int64.maxValue.toInt) :
    (countInWords span st).toInt = multiples span st := by
  have hspan' : (Int64.ofInt span).toInt = span :=
    toInt_ofInt_of_fitsWord (fitsWord_of_nonneg hspan.le (by omega))
  have hst' : (Int64.ofInt st).toInt = st :=
    toInt_ofInt_of_fitsWord (fitsWord_of_nonneg hst.le (by omega))
  have hsum : (Int64.ofInt span + Int64.ofInt st - 1).toInt = span + st - 1 := by
    rw [Int64.toInt_sub, Int64.toInt_add, hspan', hst', Int64.toInt_one, Int.bmod_sub_bmod]
    exact bmod_of_fitsWord (fitsWord_of_nonneg (by omega) hfit)
  have hne : Int64.ofInt st ≠ -1 := by
    intro h
    rw [h] at hst'
    have hneg : (-1 : Int64).toInt = -1 := rfl
    omega
  rw [countInWords, Int64.toInt_div_of_ne_right _ _ hne, hsum, hst',
    Int.tdiv_eq_ediv_of_nonneg (by omega), multiples]

/-- What is drawn is a number of steps. It is any that ends within the span, and the product of it
and the step is right in words. -/
def CountsSteps (t : Instant) (span st : Int) (g : Gen Instant) : Prop :=
  ∃ ks : Gen Int, (g = ks.bind fun k => found (t.addMicroseconds? (k * st))) ∧
    ∀ k, (ks.Draws k ↔ 0 ≤ k ∧ k * st < span) ∧
      (ks.Draws k → FitsWord (k * st) ∧ (Int64.ofInt k * Int64.ofInt st).toInt = k * st)

theorem countsSteps_of_dateRangeBy (hfit : (t.nanosecondsTo u).tdiv 1000 + step.tdiv 1000 - 1 ≤
    Int64.maxValue.toInt) (h : dateRangeBy t u step = .ok g) :
    CountsSteps t ((t.nanosecondsTo u).tdiv 1000) (step.tdiv 1000) g := by
  obtain ⟨n, st, ks, hsteps, hks, rfl⟩ := exists_of_dateRangeBy_eq_ok h
  obtain ⟨hspan, hst, -, rfl, rfl⟩ := exists_of_steps?_eq_some hsteps
  refine ⟨ks, rfl, ?_⟩
  intro k
  have hdraws : ks.Draws k ↔ 0 ≤ k ∧ k * step.tdiv 1000 < (t.nanosecondsTo u).tdiv 1000 := by
    rw [draws_iff_yields, yields_range_iff hks, lt_multiples_iff hst]
  refine ⟨hdraws, ?_⟩
  intro hk
  obtain ⟨hk, hlt⟩ := hdraws.1 hk
  have hle : k * 1 ≤ k * step.tdiv 1000 := Int.mul_le_mul_of_nonneg_left hst hk
  have hword : FitsWord (k * step.tdiv 1000) := fitsWord_of_nonneg (by omega) (by omega)
  exact ⟨hword, toInt_mul_of_fitsWord (fitsWord_of_nonneg hk (by omega))
    (fitsWord_of_nonneg hst.le (by omega)) hword⟩

theorem not_lt_of_draws_dateRangeBy (h : dateRangeBy t u step = .ok g) (hi : g.Draws i) :
    ¬ i < t := by
  obtain ⟨n, st, ks, hsteps, -, -⟩ := exists_of_dateRangeBy_eq_ok h
  obtain ⟨-, hst, -⟩ := exists_of_steps?_eq_some hsteps
  obtain ⟨k, -, hi⟩ := (draws_dateRangeBy_iff h).1 hi
  exact Instant.not_addNanoseconds?_lt (Int.mul_nonneg (Int.natCast_nonneg k) (by omega)) hi

/-- The last of the steps that are counted ends before the last instant, as time is counted with
leap seconds. -/
def EndsBefore (t u : Instant) (span st : Int) : Prop :=
  1000 * ((multiples span st - 1) * st) < t.ahead u

instance : Decidable (EndsBefore t u span st) := inferInstanceAs (Decidable (_ < _))

/-- All instants are there and lie before the last one if the one after most steps does. -/
theorem answerable_and_lt_iff (h : dateRangeBy t u step = .ok g) :
    (g.Answerable ∧ ∀ i, g.Draws i → i < u) ↔
      EndsBefore t u ((t.nanosecondsTo u).tdiv 1000) (step.tdiv 1000) := by
  obtain ⟨n, st, ks, hsteps, -, -⟩ := exists_of_dateRangeBy_eq_ok h
  obtain ⟨hspan, hst, -⟩ := exists_of_steps?_eq_some hsteps
  have hpos := multiples_pos hspan hst
  rw [answerable_dateRangeBy_iff h, StaysInCalendar, EndsBefore]
  simp only [draws_dateRangeBy_iff h]
  generalize multiples ((t.nanosecondsTo u).tdiv 1000) (step.tdiv 1000) = n at *
  -- both sides are about the last step only
  have hlt {k : Nat} {i : Instant} (hi : t.addNanoseconds? (k * (1000 * step.tdiv 1000)) = some i) :
      i < u ↔ 1000 * (k * step.tdiv 1000) < t.ahead u := by
    rw [Int.mul_left_comm] at hi
    exact Instant.addNanoseconds?_lt_iff
      (Int.mul_nonneg (by decide) (Int.mul_nonneg (Int.natCast_nonneg k) hst.le)) hi
  constructor
  · rintro ⟨hstays, hall⟩
    obtain ⟨last, hlast⟩ := Int.eq_ofNat_of_zero_le (show 0 ≤ n - 1 by omega)
    have hmicro : 0 < 1000 * step.tdiv 1000 := by omega
    have hreaches : Reaches t n (1000 * step.tdiv 1000) := by
      apply reaches_of_lt hmicro
      rw [Int.mul_left_comm]
      exact hstays
    obtain ⟨i, hi⟩ := hreaches last (by omega)
    rw [hlast]
    exact (hlt hi).1 (hall i ⟨last, by omega, hi⟩)
  · intro hend
    refine ⟨Int.lt_of_lt_of_le hend (t.ahead_le_untilEnd u), ?_⟩
    rintro i ⟨k, hk, hi⟩
    have hsteps := (forall_steps_lt_iff hpos hst).2 hend k ⟨Int.natCast_nonneg k, hk⟩
    exact (hlt hi).2 hsteps

theorem answerable_and_lt_of_not_leap (hu : ¬ u.isLeap) (h : dateRangeBy t u step = .ok g) :
    g.Answerable ∧ ∀ i, g.Draws i → i < u := by
  obtain ⟨n, st, ks, hsteps, -, -⟩ := exists_of_dateRangeBy_eq_ok h
  obtain ⟨hspan, hst, -⟩ := exists_of_steps?_eq_some hsteps
  rw [answerable_and_lt_iff h]
  exact Int.lt_of_lt_of_le (last_step_lt hspan hst) (Instant.nanosecondsTo_le_ahead hu)

/-- Something is drawn if the span and the step last a microsecond. Counting is right in words of 64
bits, and so are the steps that are drawn. No instant lies before the first one, and none after the
end of the range, or of the calendar, unless the range ends in a leap second. -/
theorem dateRangeBy_within_iff (hspan : (t.nanosecondsTo u).tdiv 1000 = span)
    (hst : step.tdiv 1000 = st) (hfit : span + st - 1 ≤ Int64.maxValue.toInt) :
    ((∃ g, dateRangeBy t u step = .ok g) ↔ 0 < span ∧ 0 < st) ∧
    ∀ g, dateRangeBy t u step = .ok g →
      (countInWords span st).toInt = multiples span st ∧ CountsSteps t span st g ∧
      (∀ i, g.Draws i → ¬ i < t) ∧
      ((g.Answerable ∧ ∀ i, g.Draws i → i < u) ↔ EndsBefore t u span st) ∧
      (¬ u.isLeap → g.Answerable ∧ ∀ i, g.Draws i → i < u) := by
  subst hspan hst
  have hok := exists_dateRangeBy_iff_pos hfit
  refine ⟨hok, ?_⟩
  intro g hg
  obtain ⟨hspan, hst⟩ := hok.1 ⟨g, hg⟩
  exact ⟨toInt_countInWords hspan hst hfit, countsSteps_of_dateRangeBy hfit hg,
    fun i => not_lt_of_draws_dateRangeBy hg, answerable_and_lt_iff hg,
    fun hu => answerable_and_lt_of_not_leap hu hg⟩

/-- Three and a half microseconds in steps of one and a half: three steps of one are counted. -/
theorem dateRangeBy_within_incomplete_step :
    let t : Instant := .mk 0 0
    let u : Instant := .mk 0 3500
    (t.nanosecondsTo u).tdiv 1000 = 3 ∧ Int.tdiv 1500 1000 = 1 ∧
      ∃ g, dateRangeBy t u 1500 = .ok g ∧ CountsSteps t 3 1 g ∧ g.Answerable ∧
        ∀ i, g.Draws i → ¬ i < t ∧ i < u := by
  intro t u
  have hspan : (t.nanosecondsTo u).tdiv 1000 = 3 := by decide
  have hst : Int.tdiv 1500 1000 = 1 := by decide
  obtain ⟨hok, hall⟩ := dateRangeBy_within_iff hspan hst (by decide)
  obtain ⟨g, hg⟩ := hok.2 (by decide)
  obtain ⟨-, hcount, hfirst, hlast, -⟩ := hall g hg
  have hend : EndsBefore t u 3 1 := by decide
  obtain ⟨hanswerable, hlt⟩ := hlast.2 hend
  exact ⟨hspan, hst, g, hg, hcount, hanswerable, fun i hi => ⟨hfirst i hi, hlt i hi⟩⟩

/-- A range that ends half a second into a leap second has an instant a quarter of a second into the
next day. -/
theorem not_dateRangeBy_within_leap_second :
    ¬ ∀ (t u : Instant) (step : Int) (g : Gen Instant), SpanFits t u step →
      dateRangeBy t u step = .ok g → ∀ i, g.Draws i → i < u := by
  intro h
  let t : Instant := .mk 1483228798 0
  let u : Instant := .mk 1483228799 1500000000
  have hfit : SpanFits t u 250000000 := by decide
  obtain ⟨g, hg⟩ := (exists_dateRangeBy_iff hfit).2 (by decide)
  have hdrawn : g.Draws (.mk 1483228800 250000000) :=
    (draws_dateRangeBy_iff hg).2 ⟨9, by decide, by decide⟩
  exact absurd (h _ _ _ g hfit hg _ hdrawn) (by decide)

end PatternGen.Gen
