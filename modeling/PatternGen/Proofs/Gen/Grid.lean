import PatternGen.Proofs.Gen.Range

namespace PatternGen.Gen

variable {t u i : Instant} {span step a b n m : Int}

/-- So many multiples of a step stay within the calendar. -/
def Reaches (t : Instant) (count step : Int) : Prop :=
  ∀ k : Nat, k < count → ∃ i, t.addNanoseconds? (k * step) = some i

theorem reaches_of_lt (ha : 0 < a) (h : (n - 1) * a < t.untilEnd) : Reaches t n a := by
  intro k hk
  have hle : k * a ≤ (n - 1) * a := Int.mul_le_mul_of_nonneg_right (by omega) ha.le
  exact (Instant.exists_addNanoseconds?_iff
    (Int.mul_nonneg (Int.natCast_nonneg k) ha.le)).2 (by omega)

theorem multiple_of_reached (ha : 0 < a) (hb : 0 < b) (hreaches : Reaches t n a)
    (h : ∀ i, Reached t n a i → Reached t m b i) (k : Nat) (hk : k < n) :
    ∃ j : Nat, j < m ∧ k * a = j * b := by
  obtain ⟨i, hi⟩ := hreaches k hk
  obtain ⟨j, hj, hi'⟩ := h i ⟨k, hk, hi⟩
  have hka : 0 ≤ k * a := Int.mul_nonneg (Int.natCast_nonneg k) ha.le
  have hjb : 0 ≤ j * b := Int.mul_nonneg (Int.natCast_nonneg j) hb.le
  exact ⟨j, hj, Instant.addNanoseconds?_inj hka hjb hi hi'⟩

/-- The second instant that is reached lies no less than a step after the first one. -/
theorem step_le_of_reached (ha : 0 < a) (hb : 0 < b) (hreaches : Reaches t n a)
    (h : ∀ i, Reached t n a i → Reached t m b i) (hn : 1 < n) : 1 < m ∧ b ≤ a := by
  obtain ⟨j, hj, hab⟩ := multiple_of_reached ha hb hreaches h 1 hn
  rw [Int.natCast_one, Int.one_mul] at hab
  have hpos : 0 < j := by
    apply Nat.pos_of_ne_zero
    rintro rfl
    rw [Int.natCast_zero, Int.zero_mul] at hab
    omega
  refine ⟨by omega, ?_⟩
  calc b
    _ = 1 * b := (Int.one_mul b).symm
    _ ≤ j * b := Int.mul_le_mul_of_nonneg_right (by omega) hb.le
    _ = a := hab.symm

theorem count_le_of_reached (ha : 0 < a) (hreaches : Reaches t n a)
    (h : ∀ i, Reached t n a i → Reached t m a i) (hn : 0 < n) : n ≤ m := by
  obtain ⟨j, hj, hab⟩ := multiple_of_reached ha ha hreaches h (n - 1).toNat (by omega)
  have hnj := Int.eq_of_mul_eq_mul_right ha.ne' hab
  omega

/-- Two steps reach the same instants if they are equal and taken equally often, or if none is
taken. -/
theorem reached_congr_iff (ha : 0 < a) (hb : 0 < b) (hn : 0 < n) (hm : 0 < m)
    (hna : Reaches t n a) (hmb : Reaches t m b) :
    (∀ i, Reached t n a i ↔ Reached t m b i) ↔ n = m ∧ (a = b ∨ m ≤ 1) := by
  constructor
  · intro h
    have hab : ∀ i, Reached t n a i → Reached t m b i := fun i => (h i).1
    have hba : ∀ i, Reached t m b i → Reached t n a i := fun i => (h i).2
    -- a second instant gives away the step, and the last one their number
    by_cases hone : 1 < m
    · obtain ⟨hn', hle⟩ := step_le_of_reached hb ha hmb hba hone
      obtain ⟨-, hle'⟩ := step_le_of_reached ha hb hna hab hn'
      obtain rfl : a = b := Int.le_antisymm hle hle'
      have hnm := count_le_of_reached ha hna hab hn
      have hmn := count_le_of_reached ha hmb hba hm
      exact ⟨Int.le_antisymm hnm hmn, .inl rfl⟩
    · have hn' : ¬ 1 < n := fun hn' => hone (step_le_of_reached ha hb hna hab hn').1
      exact ⟨by omega, .inr (by omega)⟩
  · intro h i
    obtain ⟨rfl, rfl | hone⟩ := h
    · exact Iff.rfl
    · have hzero {c : Int} : Reached t n c i ↔ t.addNanoseconds? 0 = some i := by
        constructor
        · intro h
          obtain ⟨k, hk, hi⟩ := h
          obtain rfl : k = 0 := by omega
          rwa [Int.natCast_zero, Int.zero_mul] at hi
        · intro hi
          exact ⟨0, hn, by rw [Int.natCast_zero, Int.zero_mul, hi]⟩
      rw [hzero, hzero]

def OnGrid (t u : Instant) (step : Int) (i : Instant) : Prop :=
  ∃ k : Nat, t.addNanoseconds? (k * step) = some i ∧ i < u

theorem onGrid_iff (hstep : 0 < step) :
    OnGrid t u step i ↔ Reached t (multiples (t.ahead u) step) step i := by
  have hlt (k : Nat) (hi : t.addNanoseconds? (k * step) = some i) :
      i < u ↔ k < multiples (t.ahead u) step := by
    rw [lt_multiples_iff hstep]
    exact Instant.addNanoseconds?_lt_iff (Int.mul_nonneg (Int.natCast_nonneg k) hstep.le) hi
  constructor
  · intro h
    obtain ⟨k, hi, hk⟩ := h
    exact ⟨k, (hlt k hi).1 hk, hi⟩
  · intro h
    obtain ⟨k, hk, hi⟩ := h
    exact ⟨k, hi, (hlt k hi).2 hk⟩

theorem reaches_grid (hstep : 0 < step) : Reaches t (multiples (t.ahead u) step) step := by
  have hlt : (multiples (t.ahead u) step - 1) * step < t.ahead u :=
    (lt_multiples_iff hstep).1 (by omega)
  exact reaches_of_lt hstep (Int.lt_of_lt_of_le hlt (t.ahead_le_untilEnd u))

/-- Something can be drawn, namely the instants on the grid. -/
def KeepsGrid (t u : Instant) (step : Int) : Prop :=
  ∃ g, dateRangeBy t u step = .ok g ∧ ∀ i, g.Draws i ↔ OnGrid t u step i

/-- The span and the step last a microsecond, whole steps fit into the span as often as there are
instants on the grid, and unless that is once only, the step has no part of a microsecond. -/
structure CountsExactly (t u : Instant) (step : Int) : Prop where
  span_pos : 0 < (t.nanosecondsTo u).tdiv 1000
  step_pos : 0 < step.tdiv 1000
  multiples_eq : multiples ((t.nanosecondsTo u).tdiv 1000) (step.tdiv 1000) =
    multiples (t.ahead u) step
  whole : 1000 ∣ step ∨ t.ahead u ≤ step

theorem thousand_mul_tdiv_eq_iff (hstep : 0 < step) :
    1000 * step.tdiv 1000 = step ↔ 1000 ∣ step := by
  rw [Int.tdiv_eq_ediv_of_nonneg hstep.le]
  omega

theorem multiples_eq_iff (hstep : 0 < a) (hstep' : 0 < b) :
    multiples m a = multiples n b ↔ ∀ k, k * a < m ↔ k * b < n := by
  simp only [← lt_multiples_iff hstep, ← lt_multiples_iff hstep']
  constructor
  · intro h k
    rw [h]
  · intro h
    have hle : ¬ multiples n b < multiples m a := fun hlt => Int.lt_irrefl _ ((h _).1 hlt)
    have hge : ¬ multiples m a < multiples n b := fun hlt => Int.lt_irrefl _ ((h _).2 hlt)
    omega

/-- Steps of whole microseconds fit into the whole microseconds of a span as often as into the span,
unless it ends within the microsecond that begins with a step. -/
theorem multiples_tdiv_eq_iff (hspan : 0 < span) (hstep : 0 < step) (hwhole : 1000 ∣ step) :
    multiples (span.tdiv 1000) (step.tdiv 1000) = multiples span step ↔
      1000 ∣ span ∨ ¬ step ∣ 1000 * (span / 1000) := by
  obtain ⟨st, rfl⟩ := hwhole
  have hst : 0 < st := by omega
  rw [Int.tdiv_eq_ediv_of_nonneg hspan.le, Int.mul_tdiv_cancel_left st (by decide),
    multiples_eq_iff hst hstep]
  constructor
  · intro h
    by_cases hdvd : 1000 * st ∣ 1000 * (span / 1000)
    · obtain ⟨k, hk⟩ := hdvd
      have hk' := h k
      rw [Int.mul_comm k st, Int.mul_comm k (1000 * st), ← hk] at hk'
      rw [Int.mul_assoc] at hk
      omega
    · exact .inr hdvd
  · intro h k
    rw [Int.mul_left_comm]
    rcases h with hdvd | hndvd
    · omega
    · have hne : k * st ≠ span / 1000 := by
        intro hk
        exact hndvd ⟨k, by rw [← hk, Int.mul_comm k st, Int.mul_assoc]⟩
      omega

/-- Outside of leap seconds, counting is exact where the step is beyond the span, and where it has
no part of a microsecond and no step falls on the last, incomplete microsecond of the span. -/
theorem countsExactly_iff (ht : ¬ t.isLeap) (hu : ¬ u.isLeap) :
    CountsExactly t u step ↔ 1000 ≤ t.nanosecondsTo u ∧ 1000 ≤ step ∧
      (t.nanosecondsTo u ≤ step ∨ 1000 ∣ step ∧
        (1000 ∣ t.nanosecondsTo u ∨ ¬ step ∣ 1000 * (t.nanosecondsTo u / 1000))) := by
  have hahead : t.ahead u = t.nanosecondsTo u := Instant.ahead_eq_nanosecondsTo ht hu
  generalize hspan : t.nanosecondsTo u = span at *
  constructor
  · intro h
    obtain ⟨hs, hst, hcount, hwhole⟩ := h
    rw [hspan, thousand_tdiv_pos_iff] at hs
    rw [thousand_tdiv_pos_iff] at hst
    rw [hspan, hahead] at hcount
    rw [hahead] at hwhole
    refine ⟨hs, hst, ?_⟩
    rcases hwhole with hwhole | hle
    · exact .inr ⟨hwhole, (multiples_tdiv_eq_iff (by omega) (by omega) hwhole).1 hcount⟩
    · exact .inl hle
  · intro h
    obtain ⟨hs, hst, h⟩ := h
    have hcount : multiples (span.tdiv 1000) (step.tdiv 1000) = multiples span step := by
      rcases h with hle | ⟨hwhole, h⟩
      -- at most one step fits into either span
      · have hone := (multiples_le_one_iff (by omega)).2 hle
        have hone' : multiples (span.tdiv 1000) (step.tdiv 1000) ≤ 1 := by
          rw [multiples_le_one_iff (thousand_tdiv_pos_iff.2 hst)]
          exact Int.tdiv_le_tdiv (by decide) hle
        have hpos : 0 < multiples span step := multiples_pos (by omega) (by omega)
        have hpos' := multiples_pos (thousand_tdiv_pos_iff.2 hs) (thousand_tdiv_pos_iff.2 hst)
        omega
      · exact (multiples_tdiv_eq_iff (by omega) (by omega) hwhole).2 h
    refine ⟨hspan ▸ thousand_tdiv_pos_iff.2 hs, thousand_tdiv_pos_iff.2 hst, ?_, ?_⟩
    · rw [hspan, hahead, hcount]
    · rw [hahead]
      exact h.symm.imp_left And.left

/-- If counting is exact, the last step is one of the grid, or none is taken. -/
theorem CountsExactly.staysInCalendar (hstep : 0 < step) (h : CountsExactly t u step) :
    StaysInCalendar t u step := by
  rw [StaysInCalendar, h.multiples_eq]
  rcases h.whole with hwhole | hle
  · have hlt : (multiples (t.ahead u) step - 1) * step < t.ahead u :=
      (lt_multiples_iff hstep).1 (by omega)
    rw [Int.mul_left_comm, (thousand_mul_tdiv_eq_iff hstep).2 hwhole]
    exact Int.lt_of_lt_of_le hlt (t.ahead_le_untilEnd u)
  · have hone := (multiples_le_one_iff hstep).2 hle
    have hpos := multiples_pos h.span_pos h.step_pos
    rw [h.multiples_eq] at hpos
    obtain hm : multiples (t.ahead u) step = 1 := by omega
    rw [hm, Int.sub_self, Int.zero_mul, Int.mul_zero]
    exact t.untilEnd_pos

/-- What is drawn in the calendar is the grid if and only if the steps are those of the grid, taken
as often as there. -/
theorem reached_eq_grid_iff (htu : t < u) (hstep : 0 < step)
    (hspan : 0 < (t.nanosecondsTo u).tdiv 1000) (hst : 0 < step.tdiv 1000)
    (hstays : StaysInCalendar t u step) :
    (∀ i, Reached t (multiples ((t.nanosecondsTo u).tdiv 1000) (step.tdiv 1000))
        (1000 * step.tdiv 1000) i ↔ OnGrid t u step i) ↔ CountsExactly t u step := by
  have hmicro : 0 < 1000 * step.tdiv 1000 := by omega
  have hreaches : Reaches t (multiples ((t.nanosecondsTo u).tdiv 1000) (step.tdiv 1000))
      (1000 * step.tdiv 1000) := by
    apply reaches_of_lt hmicro
    rw [Int.mul_left_comm]
    exact hstays
  simp only [onGrid_iff hstep]
  rw [reached_congr_iff hmicro hstep (multiples_pos hspan hst)
    (multiples_pos (Instant.ahead_pos htu) hstep) hreaches (reaches_grid hstep),
    thousand_mul_tdiv_eq_iff hstep, multiples_le_one_iff hstep]
  constructor
  · intro h
    exact ⟨hspan, hst, h.1, h.2⟩
  · intro h
    exact ⟨h.multiples_eq, h.whole⟩

theorem keepsGrid_and_stays_iff (htu : t < u) (hstep : 0 < step) (hfit : SpanFits t u step) :
    KeepsGrid t u step ∧ StaysInCalendar t u step ↔ CountsExactly t u step := by
  constructor
  · intro h
    obtain ⟨⟨g, hg, hdraws⟩, hstays⟩ := h
    obtain ⟨hspan, hst⟩ := (exists_dateRangeBy_iff hfit).1 ⟨g, hg⟩
    simp only [draws_dateRangeBy_iff hg] at hdraws
    exact (reached_eq_grid_iff htu hstep hspan hst hstays).1 hdraws
  · intro h
    have hstays := h.staysInCalendar hstep
    obtain ⟨g, hg⟩ := (exists_dateRangeBy_iff hfit).2 ⟨h.span_pos, h.step_pos⟩
    refine ⟨⟨g, hg, ?_⟩, hstays⟩
    simp only [draws_dateRangeBy_iff hg]
    exact (reached_eq_grid_iff htu hstep h.span_pos h.step_pos hstays).2 h

/-- A range keeps the grid, and no step to an instant leads past the end of the calendar, if and
only if it counts exactly. Only ranges that end in the very last leap second can keep the grid
otherwise, where the calendar ends before the steps that are too many. -/
theorem keepsGrid_iff (htu : t < u) (hstep : 0 < step) (hfit : SpanFits t u step) :
    (KeepsGrid t u step ∧ StaysInCalendar t u step ↔ CountsExactly t u step) ∧
    ((u.isLeap → u.second < Instant.lastSecond) →
      (KeepsGrid t u step ↔ CountsExactly t u step)) ∧
    (¬ t.isLeap → ¬ u.isLeap →
      (CountsExactly t u step ↔ 1000 ≤ t.nanosecondsTo u ∧ 1000 ≤ step ∧
        (t.nanosecondsTo u ≤ step ∨ 1000 ∣ step ∧
          (1000 ∣ t.nanosecondsTo u ∨ ¬ step ∣ 1000 * (t.nanosecondsTo u / 1000))))) := by
  have hiff := keepsGrid_and_stays_iff htu hstep hfit
  refine ⟨hiff, ?_, countsExactly_iff⟩
  intro hu
  rw [← hiff]
  refine ⟨fun h => ⟨h, ?_⟩, And.left⟩
  obtain ⟨g, hg, -⟩ := h
  exact staysInCalendar hu hg

/-- Half a microsecond at the end of the span does no harm if no step falls on it. -/
theorem keepsGrid_incomplete_span :
    let t : Instant := .mk 0 0
    let u : Instant := .mk 0 3500
    t < u ∧ SpanFits t u 2000 ∧ KeepsGrid t u 2000 := by
  intro t u
  have htu : t < u := by decide
  have hfit : SpanFits t u 2000 := by decide
  have hstep : (0 : Int) < 2000 := by decide
  obtain ⟨-, hkeeps, hexact⟩ := keepsGrid_iff htu hstep hfit
  refine ⟨htu, hfit, (hkeeps nofun).2 ((hexact nofun nofun).2 ?_)⟩
  decide

/-- With a step of one and a half microseconds, an instant after one microsecond can be drawn. -/
theorem not_keepsGrid_incomplete_step :
    ¬ ∀ (t u : Instant) (step : Int), t < u → 0 < step → SpanFits t u step →
      KeepsGrid t u step := by
  intro h
  obtain ⟨g, hg, hdraws⟩ := h (.mk 0 0) (.mk 0 3000) 1500 (by decide) (by decide) (by decide)
  have hdrawn : g.Draws (.mk 0 1000) := (draws_dateRangeBy_iff hg).2 ⟨1, by decide, by decide⟩
  obtain ⟨k, hk, -⟩ := (hdraws _).1 hdrawn
  have hahead := Instant.ahead_addNanoseconds? (by omega) hk
  have hthousand : Instant.ahead (.mk 0 0) (.mk 0 1000) = 1000 := by decide
  omega

end PatternGen.Gen
