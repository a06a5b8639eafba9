import PatternGen.Time

namespace PatternGen

namespace Date

variable {c d q s y z : Nat}

/-- Days of a cycle are counted in centuries, the last of which has a day more, in spans of four
years, and in days of these. -/
theorem exists_parts (h : d < cycle) :
    ∃ c q s, c ≤ 3 ∧ q ≤ 24 ∧ s ≤ 1460 ∧ (1461 * q + s < 36524 ∨ c = 3) ∧
      d = 36524 * c + 1461 * q + s := by
  unfold cycle at h
  refine ⟨min (d / 36524) 3, (d - 36524 * min (d / 36524) 3) / 1461,
    (d - 36524 * min (d / 36524) 3) % 1461, ?_⟩
  omega

/-- The fourth year has one day more. -/
theorem yearOfCycle_eq (hc : c ≤ 3) (hq : q ≤ 24) (hs : s ≤ 1460)
    (hr : 1461 * q + s < 36524 ∨ c = 3) :
    yearOfCycle (36524 * c + 1461 * q + s) = 100 * c + 4 * q + min (s / 365) 3 := by
  rw [Nat.add_assoc]
  have hcentury : (36524 * c + (1461 * q + s)) / 36524 =
      c + (36524 * c + (1461 * q + s)) / 146096 := by
    rcases hr with hr | rfl
    · rw [Nat.mul_add_div (by decide), Nat.div_eq_of_lt hr, Nat.div_eq_of_lt (by omega)]
    · omega
  have hfour : (36524 * c + (1461 * q + s)) / 1460 =
      25 * c + q + (24 * c + q + s) / 1460 := by omega
  have hwhole : 36524 * c + (1461 * q + s) - (25 * c + q + (24 * c + q + s) / 1460) + c =
      365 * (100 * c + 4 * q) + (s - (24 * c + q + s) / 1460) := by omega
  rw [yearOfCycle, hcentury, hfour, ← Nat.add_assoc, Nat.add_sub_cancel, hwhole,
    Nat.mul_add_div (by decide)]
  omega

theorem daysBeforeYear_eq (hq : q ≤ 24) (hz : z ≤ 3) :
    daysBeforeYear (100 * c + 4 * q + z) = 36524 * c + 1461 * q + 365 * z := by
  unfold daysBeforeYear
  omega

theorem daysBeforeYear_succ (y : Nat) : daysBeforeYear y + 365 ≤ daysBeforeYear (y + 1) := by
  have hcenturies (k : Nat) : k / 100 = k / 4 / 25 := (Nat.div_div_eq_div_mul k 4 25).symm
  unfold daysBeforeYear
  rw [hcenturies, hcenturies]
  omega

theorem daysBeforeYear_mono (h : y ≤ z) : daysBeforeYear y ≤ daysBeforeYear z := by
  induction h with
  | refl => exact Nat.le_refl _
  | step _ ih => exact Nat.le_trans ih (Nat.le_of_add_right_le (daysBeforeYear_succ _))

/-- A day falls into a year that has begun when the next one has not. -/
theorem yearOfCycle_spec (h : d < cycle) :
    yearOfCycle d < 400 ∧ daysBeforeYear (yearOfCycle d) ≤ d ∧
      d ≤ daysBeforeYear (yearOfCycle d) + 365 ∧
      (yearOfCycle d < 399 → d < daysBeforeYear (yearOfCycle d + 1)) := by
  obtain ⟨c, q, s, hc, hq, hs, hr, rfl⟩ := exists_parts h
  rw [yearOfCycle_eq hc hq hs hr, daysBeforeYear_eq hq (Nat.min_le_right _ _)]
  refine ⟨by omega, by omega, by omega, ?_⟩
  intro hlt
  -- the next year is one of the same four, or the first of the next four, or of the next century
  by_cases hz : s / 365 < 3
  · rw [Nat.min_eq_left (Nat.le_of_lt hz), Nat.add_assoc _ _ 1, daysBeforeYear_eq hq hz]
    omega
  · rw [Nat.min_eq_right (Nat.le_of_not_lt hz)] at hlt ⊢
    by_cases hfour : q < 24
    · have hnext : 100 * c + 4 * q + 3 + 1 = 100 * c + 4 * (q + 1) + 0 := rfl
      rw [hnext, daysBeforeYear_eq hfour (Nat.zero_le 3)]
      omega
    · have hnext : 100 * c + 4 * q + 3 + 1 = 100 * (c + 1) + 4 * 0 + 0 := by omega
      rw [hnext, daysBeforeYear_eq (Nat.zero_le 24) (Nat.zero_le 3)]
      omega

/-- A day by its cycle, the year of it that begins in March, and the days since then. -/
theorem exists_ofDays (n : Int) :
    ∃ (e : Int) (w t : Nat), n + epoch = cycle * e + (daysBeforeYear w + t : Nat) ∧ w < 400 ∧
      t ≤ 365 ∧ daysBeforeYear w + t < cycle ∧
      (w < 399 → daysBeforeYear w + t < daysBeforeYear (w + 1)) ∧
      ofDays n = ⟨400 * e + w + (if (5 * t + 2) / 153 < 10 then 0 else 1),
        if (5 * t + 2) / 153 < 10 then (5 * t + 2) / 153 + 3 else (5 * t + 2) / 153 - 9,
        t - daysBeforeMonth ((5 * t + 2) / 153) + 1⟩ := by
  have hpos : (0 : Int) < cycle := by decide
  have hlow := Int.emod_nonneg (n + epoch) (Int.ne_of_gt hpos)
  have hhigh := Int.emod_lt_of_pos (n + epoch) hpos
  obtain ⟨d, hd⟩ := Int.eq_ofNat_of_zero_le hlow
  have hdate : ((n + epoch) % cycle).toNat = d := by omega
  obtain ⟨hw, hle, hge, hnext⟩ := yearOfCycle_spec (d := d) (by omega)
  refine ⟨(n + epoch) / cycle, yearOfCycle d, d - daysBeforeYear (yearOfCycle d), ?_, hw, by omega,
    by omega, by omega, ?_⟩
  · rw [Nat.add_sub_cancel' hle, ← hd, Int.mul_ediv_add_emod]
  · rw [ofDays, hdate]

theorem toDays_first (y : Int) :
    (Date.mk y 1 1).toDays =
      cycle * ((y - 1) / 400) - epoch + (daysBeforeYear ((y - 1) % 400).toNat + 306 : Nat) := by
  simp [toDays, daysBeforeMonth]

theorem le_year_ofDays_iff {y n : Int} :
    y ≤ (ofDays n).year ↔ (Date.mk y 1 1).toDays ≤ n := by
  obtain ⟨e, w, t, hn, hw, ht, hlast, hnext, hdate⟩ := exists_ofDays n
  have hmarch : (5 * t + 2) / 153 < 10 ↔ t < 306 := by omega
  have hy : y = 400 * ((y - 1) / 400) + ((y - 1) % 400).toNat + 1 := by omega
  have hb : ((y - 1) % 400).toNat < 400 := by omega
  rw [toDays_first, hdate]
  simp only [hmarch]
  generalize ((y - 1) % 400).toNat = b at *
  generalize (y - 1) / 400 = a at *
  subst hy
  have hfull : daysBeforeYear b ≤ daysBeforeYear 399 := daysBeforeYear_mono (by omega)
  have h399 : daysBeforeYear 399 = 145731 := rfl
  unfold cycle at hn hlast ⊢
  -- days are ordered by their cycles, then by their years, and then within the year
  rcases Int.lt_trichotomy a e with h | rfl | h
  · split <;> omega
  · rcases Nat.lt_trichotomy b w with h | rfl | h
    · have hbw := Nat.le_trans (daysBeforeYear_succ b) (daysBeforeYear_mono h)
      split <;> omega
    · split <;> omega
    · have hwb : daysBeforeYear (w + 1) ≤ daysBeforeYear b := daysBeforeYear_mono h
      split <;> omega
  · split <;> omega

theorem month_ofDays (n : Int) : 1 ≤ (ofDays n).month ∧ (ofDays n).month ≤ 12 := by
  obtain ⟨e, w, t, -, -, ht, -, -, hdate⟩ := exists_ofDays n
  rw [hdate]
  dsimp only
  split <;> omega

theorem day_ofDays (n : Int) : 1 ≤ (ofDays n).day ∧ (ofDays n).day ≤ 31 := by
  obtain ⟨e, w, t, -, -, ht, -, -, hdate⟩ := exists_ofDays n
  rw [hdate]
  unfold daysBeforeMonth
  dsimp only
  omega

end Date

/-- An instant comes before a year begins if and only if its date is in an earlier year. -/
theorem Instant.lt_midnight_iff {t : Instant} {y : Int}
    {h : InCalendar (86400 * (Date.mk y 1 1).toDays) 0} :
    t < .midnight y 1 1 h ↔ t.date.year < y := by
  have hbefore : t < .midnight y 1 1 h ↔ ¬ (Date.mk y 1 1).toDays ≤ t.second / 86400 := by
    change t.second < 86400 * _ ∨ t.second = 86400 * _ ∧ t.nanosecond < 0 ↔ _
    omega
  rw [hbefore, ← Date.le_year_ofDays_iff, Int.not_le]
  rfl

end PatternGen
