import PatternGen.Time

namespace PatternGen.Instant

variable {t u i : Instant} {n m : Int}

/-- The nanoseconds after which one instant, moved on, is not before another one any more. It never
comes into a leap second: it stays in its own for a while, or goes from a second to the next. -/
def ahead (t u : Instant) : Int :=
  if t.isLeap ∧ t.second = u.second then u.nanosecond - t.nanosecond
  else billion * (u.second - t.second + if t.isLeap then 1 else 0) + min u.nanosecond billion
    - t.nanosecond

/-- The nanoseconds after which an instant, moved on, is past the end of the calendar. -/
def untilEnd (t : Instant) : Int :=
  if t.isLeap ∧ t.second = lastSecond then 2 * billion - t.nanosecond
  else billion * (lastSecond - t.second + if t.isLeap then 1 else 0) + billion - t.nanosecond

theorem lt_iff : t < u ↔ t.second < u.second ∨ t.second = u.second ∧ t.nanosecond < u.nanosecond :=
  Iff.rfl

theorem isLeap_iff : t.isLeap ↔ billion ≤ t.nanosecond := decide_eq_true_iff

theorem ofParts?_eq_some_iff {second : Int} {nanosecond : Nat} :
    ofParts? second nanosecond = some i ↔ i.second = second ∧ i.nanosecond = nanosecond := by
  obtain ⟨_, _, hi⟩ := i
  rw [ofParts?, Option.dite_none_right_eq_some]
  constructor
  · rintro ⟨_, h⟩
    cases h
    exact ⟨rfl, rfl⟩
  · rintro ⟨rfl, rfl⟩
    exact ⟨hi, rfl⟩

theorem addNanoseconds?_eq_some_iff :
    t.addNanoseconds? n = some i ↔ i.second = (t.later n).1 ∧ i.nanosecond = (t.later n).2 :=
  ofParts?_eq_some_iff

theorem isSome_addNanoseconds?_iff :
    (t.addNanoseconds? n).isSome ↔ InCalendar (t.later n).1 (t.later n).2 := by
  rw [addNanoseconds?, ofParts?]
  split
  · next h => exact iff_of_true rfl h
  · next h => exact iff_of_false nofun h

theorem later_of_not_leap (ht : ¬ t.isLeap) (n : Int) :
    t.later n = (t.second + (t.nanosecond + n) / billion,
      ((t.nanosecond + n) % billion).toNat) := by
  simp [later, ht]

/-- An instant in a leap second leaves it as if it had been in the second before it. -/
theorem later_of_leap (ht : t.isLeap) (hn : 0 ≤ n) :
    t.later n =
      if t.nanosecond + n < 2 * billion then (t.second, (t.nanosecond + n).toNat)
      else (t.second + (t.nanosecond + n - billion) / billion,
        ((t.nanosecond + n - billion) % billion).toNat) := by
  have hneg : -(billion : Int) < n := by
    unfold billion
    omega
  simp [later, ht, hn, hneg]

theorem ahead_of_not_leap (ht : ¬ t.isLeap) (u : Instant) :
    t.ahead u = billion * (u.second - t.second) + min u.nanosecond billion - t.nanosecond := by
  simp [ahead, ht]

theorem ahead_of_leap (ht : t.isLeap) (u : Instant) :
    t.ahead u = if t.second = u.second then (u.nanosecond - t.nanosecond : Int)
      else billion * (u.second - t.second + 1) + min u.nanosecond billion - t.nanosecond := by
  simp [ahead, ht]

theorem untilEnd_of_not_leap (ht : ¬ t.isLeap) :
    t.untilEnd = billion * (lastSecond - t.second) + billion - t.nanosecond := by
  simp [untilEnd, ht]

theorem untilEnd_of_leap (ht : t.isLeap) :
    t.untilEnd = if t.second = lastSecond then (2 * billion - t.nanosecond : Int)
      else billion * (lastSecond - t.second + 1) + billion - t.nanosecond := by
  simp [untilEnd, ht]

/-- The sum is past the end of the calendar once the time until then is used up. -/
theorem exists_addNanoseconds?_iff (hn : 0 ≤ n) :
    (∃ i, t.addNanoseconds? n = some i) ↔ n < t.untilEnd := by
  obtain ⟨hfirst, hlast, hproper⟩ := t.inCalendar
  rw [← Option.isSome_iff_exists, isSome_addNanoseconds?_iff]
  by_cases hleap : t.isLeap
  · rw [later_of_leap hleap hn, untilEnd_of_leap hleap]
    rw [isLeap_iff] at hleap
    unfold InCalendar billion firstSecond lastSecond at *
    split <;> split <;> dsimp only <;> omega
  · rw [later_of_not_leap hleap, untilEnd_of_not_leap hleap]
    rw [isLeap_iff] at hleap
    unfold InCalendar billion firstSecond lastSecond at *
    dsimp only
    omega

/-- The sum comes before another instant as long as the distance between them is not used up. -/
theorem addNanoseconds?_lt_iff (hn : 0 ≤ n) (hi : t.addNanoseconds? n = some i) :
    i < u ↔ n < t.ahead u := by
  obtain ⟨-, -, ht⟩ := t.inCalendar
  obtain ⟨-, -, hu⟩ := u.inCalendar
  obtain ⟨hsecond, hnano⟩ := addNanoseconds?_eq_some_iff.1 hi
  rw [lt_iff, hsecond, hnano]
  by_cases hleap : t.isLeap
  · rw [later_of_leap hleap hn, ahead_of_leap hleap]
    rw [isLeap_iff] at hleap
    unfold billion at *
    split <;> split <;> dsimp only <;> omega
  · rw [later_of_not_leap hleap, ahead_of_not_leap hleap]
    rw [isLeap_iff] at hleap
    unfold billion at *
    dsimp only
    omega

theorem addNanoseconds?_zero (t : Instant) : t.addNanoseconds? 0 = some t := by
  obtain ⟨-, -, ht⟩ := t.inCalendar
  rw [addNanoseconds?_eq_some_iff]
  by_cases hleap : t.isLeap
  · rw [later_of_leap hleap (Int.le_refl 0), Int.add_zero, if_pos (by exact_mod_cast ht)]
    exact ⟨rfl, rfl⟩
  · rw [later_of_not_leap hleap, Int.add_zero]
    rw [isLeap_iff] at hleap
    unfold billion at *
    omega

/-- What was moved on is ahead by just that much. -/
theorem ahead_addNanoseconds? (hn : 0 ≤ n) (hi : t.addNanoseconds? n = some i) :
    t.ahead i = n := by
  obtain ⟨-, -, ht⟩ := t.inCalendar
  obtain ⟨hsecond, hnano⟩ := addNanoseconds?_eq_some_iff.1 hi
  by_cases hleap : t.isLeap
  · rw [later_of_leap hleap hn] at hsecond hnano
    rw [ahead_of_leap hleap, hsecond, hnano]
    rw [isLeap_iff] at hleap
    unfold billion at *
    split
    · rw [if_pos rfl]
      dsimp only
      omega
    · rw [if_neg (by dsimp only; omega)]
      dsimp only
      omega
  · rw [later_of_not_leap hleap] at hsecond hnano
    rw [ahead_of_not_leap hleap, hsecond, hnano]
    rw [isLeap_iff] at hleap
    unfold billion at *
    dsimp only
    omega

theorem ahead_self (t : Instant) : t.ahead t = 0 :=
  ahead_addNanoseconds? (Int.le_refl 0) t.addNanoseconds?_zero

theorem ahead_pos (htu : t < u) : 0 < t.ahead u :=
  (addNanoseconds?_lt_iff (Int.le_refl 0) t.addNanoseconds?_zero).1 htu

theorem not_addNanoseconds?_lt (hn : 0 ≤ n) (hi : t.addNanoseconds? n = some i) : ¬ i < t := by
  rw [addNanoseconds?_lt_iff hn hi, ahead_self]
  omega

theorem addNanoseconds?_inj (hn : 0 ≤ n) (hm : 0 ≤ m) (hi : t.addNanoseconds? n = some i)
    (hi' : t.addNanoseconds? m = some i) : n = m := by
  rw [← ahead_addNanoseconds? hn hi, ahead_addNanoseconds? hm hi']

/-- No instant is past the end of the calendar. -/
theorem ahead_le_untilEnd (t u : Instant) : t.ahead u ≤ t.untilEnd := by
  obtain ⟨-, -, ht⟩ := t.inCalendar
  obtain ⟨-, hlast, hu⟩ := u.inCalendar
  by_cases hleap : t.isLeap
  · rw [ahead_of_leap hleap, untilEnd_of_leap hleap]
    unfold billion at *
    split <;> split <;> omega
  · rw [ahead_of_not_leap hleap, untilEnd_of_not_leap hleap]
    unfold billion at *
    omega

theorem untilEnd_pos (t : Instant) : 0 < t.untilEnd :=
  (exists_addNanoseconds?_iff (Int.le_refl 0)).1 ⟨t, t.addNanoseconds?_zero⟩

theorem leapsBefore_eq_false (ht : ¬ t.isLeap) (u : Instant) : t.leapsBefore u = false := by
  simp [leapsBefore, ht]

/-- Outside of leap seconds, what is ahead is what is counted. -/
theorem ahead_eq_nanosecondsTo (ht : ¬ t.isLeap) (hu : ¬ u.isLeap) :
    t.ahead u = t.nanosecondsTo u := by
  rw [ahead_of_not_leap ht, nanosecondsTo, leapsBefore_eq_false ht, leapsBefore_eq_false hu]
  rw [isLeap_iff] at hu
  unfold billion at *
  simp only [Bool.false_eq_true, if_false]
  omega

/-- No more is counted than is ahead, if the count does not end in a leap second. -/
theorem nanosecondsTo_le_ahead (hu : ¬ u.isLeap) : t.nanosecondsTo u ≤ t.ahead u := by
  by_cases ht : t.isLeap
  · rw [ahead_of_leap ht, nanosecondsTo, leapsBefore_eq_false hu]
    rw [isLeap_iff] at hu
    unfold billion at *
    by_cases hsecond : t.second = u.second
    · have hsame : t.leapsBefore u = false := by simp [leapsBefore, secondOfDay, hsecond]
      rw [hsame, if_pos hsecond, hsecond]
      simp only [Bool.false_eq_true, if_false]
      omega
    · rw [if_neg hsecond]
      simp only [Bool.false_eq_true, if_false]
      split <;> omega
  · exact Int.le_of_eq (ahead_eq_nanosecondsTo ht hu).symm

/-- No more is counted than there is until the end of the calendar, if the count does not end in the
leap second after its last second. -/
theorem nanosecondsTo_le_untilEnd (hu : u.isLeap → u.second < lastSecond) :
    t.nanosecondsTo u ≤ t.untilEnd := by
  by_cases hleap : u.isLeap
  · have hlt := hu hleap
    obtain ⟨-, -, hproper⟩ := u.inCalendar
    by_cases ht : t.isLeap
    · rw [nanosecondsTo, untilEnd_of_leap ht]
      rw [isLeap_iff] at ht
      unfold billion at *
      split <;> split <;> split <;> omega
    · rw [nanosecondsTo, untilEnd_of_not_leap ht, leapsBefore_eq_false ht]
      unfold billion at *
      simp only [Bool.false_eq_true, if_false]
      split <;> omega
  · exact Int.le_trans (nanosecondsTo_le_ahead hleap) (ahead_le_untilEnd t u)

end PatternGen.Instant
