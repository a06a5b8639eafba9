import PatternGen.CommandLine
import PatternGen.Proofs.Gen.Interval
import PatternGen.Proofs.Gen.Safety
import PatternGen.Proofs.Gen.Outcomes
import PatternGen.Proofs.Pattern.RoundTrip
import PatternGen.Proofs.Time.Calendar

namespace PatternGen

namespace Text

variable {width n k : Nat} {text field cs : List Char}

/-- A field with blanks and a text, which ends where the field ends. -/
def RightAligned (width : Nat) (text field : List Char) : Prop :=
  field.length = width ∧ ∃ k, field = List.replicate k ' ' ++ text

/-- A field that a text begins, and blanks. -/
def LeftAligned (width : Nat) (text field : List Char) : Prop :=
  field.length = width ∧ ∃ k, field = text ++ List.replicate k ' '

def Digits (width n : Nat) (field : List Char) : Prop :=
  field.length = width ∧ numeral? field = some n

theorem rightAligned_padLeft (h : text.length ≤ width) :
    RightAligned width text (padLeft width ' ' text) := by
  refine ⟨?_, _, rfl⟩
  rw [length_padLeft, Nat.max_eq_left h]

theorem leftAligned_padRight (h : text.length ≤ width) :
    LeftAligned width text (padRight width ' ' text) := by
  refine ⟨?_, _, rfl⟩
  rw [length_padRight, Nat.max_eq_left h]

theorem length_decimal_le (hwidth : 0 < width) (h : n < 10 ^ width) :
    (decimal n).length ≤ width :=
  (Nat.length_toDigits_le_iff (by decide) hwidth).2 h

/-- Zeros before a number count for nothing. -/
theorem numeral?_zeros (h : numeral? cs = some n) :
    numeral? (List.replicate k '0' ++ cs) = some n := by
  induction k with
  | zero => exact h
  | succ k ih =>
    rw [numeral?, Option.ite_none_right_eq_some] at ih ⊢
    obtain ⟨hdigits, hn⟩ := ih
    rw [Bool.and_eq_true] at hdigits
    exact ⟨hdigits.2, hn⟩

theorem digits_padLeft (hwidth : 0 < width) (h : n < 10 ^ width) :
    Digits width n (padLeft width '0' (decimal n)) := by
  refine ⟨?_, numeral?_zeros (numeral?_decimal n)⟩
  rw [length_padLeft, Nat.max_eq_left (length_decimal_le hwidth h)]

theorem digits_printYear {y : Int} (hy : 0 ≤ y) (hy' : y ≤ 9999) :
    Digits 4 y.toNat (Date.printYear y) := by
  obtain ⟨n, rfl⟩ := Int.eq_ofNat_of_zero_le hy
  rw [Date.printYear, if_neg (by omega), if_neg (by omega)]
  exact digits_padLeft (by decide) (by omega)

theorem toList_toString_of_nonneg {i : Int} (hi : 0 ≤ i) :
    (toString i).toList = decimal i.toNat := by
  obtain ⟨n, rfl⟩ := Int.eq_ofNat_of_zero_le hi
  exact Nat.toList_repr

end Text

open Text

namespace Person

/-- A capital letter, and after it from two to sixteen small ones. -/
def IsName (cs : List Char) : Prop :=
  ∃ c ds, cs = c :: ds ∧ ('A' ≤ c ∧ c ≤ 'Z') ∧ 2 ≤ ds.length ∧ ds.length ≤ 16 ∧
    ∀ d ∈ ds, 'a' ≤ d ∧ d ≤ 'z'

structure WellFormed (p : Person) : Prop where
  id_pos : 1 ≤ p.id
  id_lt : p.id < 100000
  isName : IsName p.name.toList
  not_born_before : ¬ p.birthday < .midnight 1900 1 1
  born_before : p.birthday < .midnight 2000 1 1

/-- A line with the number in the first six places, the name in eighteen places after two blanks,
and the date of birth after another blank. -/
def InColumns (p : Person) (line : List Char) : Prop :=
  ∃ number name year month day,
    line = number ++ [' ', ' '] ++ name ++ ' ' :: (year ++ '-' :: month ++ '-' :: day) ∧
    RightAligned 6 (toString p.id).toList number ∧ LeftAligned 18 p.name.toList name ∧
    Digits 4 p.birthday.date.year.toNat year ∧ Digits 2 p.birthday.date.month month ∧
    Digits 2 p.birthday.date.day day

variable {p : Person} {line : List Char}

theorem InColumns.length_eq (h : p.InColumns line) : line.length = 37 := by
  obtain ⟨number, name, year, month, day, rfl, ⟨hnumber, -⟩, ⟨hname, -⟩, ⟨hyear, -⟩, ⟨hmonth, -⟩,
    ⟨hday, -⟩⟩ := h
  simp [hnumber, hname, hyear, hmonth, hday]

theorem IsName.length_le {cs : List Char} (h : IsName cs) : cs.length ≤ 18 := by
  obtain ⟨c, ds, rfl, -, -, hlength, -⟩ := h
  rw [List.length_cons]
  omega

theorem WellFormed.year (h : p.WellFormed) :
    1900 ≤ p.birthday.date.year ∧ p.birthday.date.year < 2000 := by
  have hfirst := h.not_born_before
  rw [Instant.lt_midnight_iff, Int.not_lt] at hfirst
  exact ⟨hfirst, Instant.lt_midnight_iff.1 h.born_before⟩

theorem WellFormed.inColumns (h : p.WellFormed) : p.InColumns p.print := by
  have hid := h.id_pos
  have hid' := h.id_lt
  have hnumber : (toString p.id).toList.length ≤ 6 := by
    rw [toList_toString_of_nonneg (by omega)]
    exact length_decimal_le (by decide) (by omega)
  obtain ⟨hyear, hyear'⟩ := h.year
  obtain ⟨-, hmonth⟩ := Date.month_ofDays (p.birthday.second / 86400)
  obtain ⟨-, hday⟩ := Date.day_ofDays (p.birthday.second / 86400)
  have hmonths : p.birthday.date.month < 10 ^ 2 := Nat.lt_of_le_of_lt hmonth (by decide)
  have hdays : p.birthday.date.day < 10 ^ 2 := Nat.lt_of_le_of_lt hday (by decide)
  exact ⟨_, _, _, _, _, rfl, rightAligned_padLeft hnumber, leftAligned_padRight h.isName.length_le,
    digits_printYear (by omega) (by omega), digits_padLeft (by decide) hmonths,
    digits_padLeft (by decide) hdays⟩

theorem canonical_range {first last : Char} (hle : first ≤ last) (hcaret : first ≠ '^')
    (hbracket : ∀ x ∈ [first, '-', last], Grammar.staysInClass x) :
    CharClass.Canonical ⟨false, [.range first last]⟩ := by
  refine ⟨?_, ?_, ?_, ?_⟩
  · intro e he x hx
    cases List.mem_singleton.1 he
    exact hbracket x hx
  · intro a b h
    cases List.mem_singleton.1 h
    exact hle
  · intro _ h
    exact hcaret (Option.some.inj h)
  · intro before c after h
    cases before with
    | nil => cases h
    | cons _ before =>
      have hrest := congrArg List.length h
      simp at hrest

def namePattern : Pattern :=
  [[(.charClass ⟨false, [.range 'A' 'Z']⟩, .once),
    (.charClass ⟨false, [.range 'a' 'z']⟩, .between 2 16)]]

theorem parse_namePattern : Pattern.parse "[A-Z][a-z]\x7b2,16\x7d" = .ok namePattern := by
  have hcapital : CharClass.Canonical ⟨false, [.range 'A' 'Z']⟩ :=
    canonical_range (by decide) (by decide) (by simp [Grammar.staysInClass])
  have hsmall : CharClass.Canonical ⟨false, [.range 'a' 'z']⟩ :=
    canonical_range (by decide) (by decide) (by simp [Grammar.staysInClass])
  have hwell : namePattern.WellFormed := by
    simp [namePattern, Pattern.WellFormed, Pattern.WellFormedBranches, Pattern.WellFormedPieces,
      Pattern.WellFormedTerm, hcapital, hsmall]
    decide
  have hseparate : namePattern.Separate := by
    simp [namePattern, Pattern.Separate, Pattern.SeparateBranches, Pattern.SeparatePieces,
      Pattern.SeparateTerm, Pattern.RunsOn]
  have htext : namePattern.toText = "[A-Z][a-z]\x7b2,16\x7d" := by decide +kernel
  rw [← htext]
  exact Pattern.parse_toText_eq_ok hwell hseparate

theorem allows_range_iff {n : Negation} {first last c : Char} :
    n.Allows ⟨false, [.range first last]⟩ c ↔ first ≤ c ∧ c ≤ last := by
  simp [Negation.Allows, CharClass.contains, ClassItem.contains]

theorem mem_language_namePattern_iff {cs : List Char} :
    cs ∈ namePattern.language {} ↔ IsName cs := by
  rw [Pattern.language, namePattern]
  simp only [Pattern.branchesLanguage, Pattern.branchLanguage, mul_one, add_zero, Language.mem_mul,
    Pattern.mem_pieceLanguage_charClass_iff, allows_range_iff]
  constructor
  · intro h
    obtain ⟨u, ⟨hmin, hlast, hu⟩, ds, hds, rfl⟩ := h
    obtain ⟨c, rfl⟩ := List.length_eq_one_iff.1 (Nat.le_antisymm hlast hmin)
    exact ⟨c, ds, rfl, hu c List.mem_cons_self, hds⟩
  · intro h
    obtain ⟨c, ds, rfl, hc, hds⟩ := h
    exact ⟨[c], ⟨Nat.le_refl 1, Nat.le_refl 1, List.forall_mem_singleton.2 hc⟩, ds, hds, rfl⟩

theorem yields_name_iff {names : Gen String} {w : String}
    (h : Gen.ofPattern "[A-Z][a-z]\x7b2,16\x7d" = .ok names) :
    names.Yields w ↔ IsName w.toList := by
  obtain ⟨p, hp, h⟩ := bind_eq_ok_iff.1 h
  obtain rfl : namePattern = p :=
    Except.ok.inj (parse_namePattern.symm.trans (mapError_eq_ok_iff.1 hp))
  obtain ⟨-, hnames⟩ := Pattern.generates_generator (mapError_eq_ok_iff.1 h)
  rw [hnames, mem_language_namePattern_iff]

/-- What the generator makes people of. -/
theorem exists_of_generator_eq_ok {g : Gen Person} (h : Person.generator = .ok g) :
    ∃ ids names birthdays, Gen.intRange 1 100000 = .ok ids ∧
      Gen.ofPattern "[A-Z][a-z]\x7b2,16\x7d" = .ok names ∧
      Gen.dateRange (.midnight 1900 1 1) (.midnight 2000 1 1) = .ok birthdays ∧
      g = ((ids.zip names).zip birthdays).map
        fun ((id, name), birthday) => ⟨id, name, birthday⟩ := by
  rw [generator, bind_eq_ok_iff] at h
  obtain ⟨ids, hids, h⟩ := h
  rw [bind_eq_ok_iff] at h
  obtain ⟨names, hnames, h⟩ := h
  obtain ⟨birthdays, hbirthdays, rfl⟩ := map_eq_ok_iff.1 h
  exact ⟨ids, names, birthdays, hids, hnames, hbirthdays, rfl⟩

theorem answerable_generator {g : Gen Person} (h : Person.generator = .ok g) : g.Answerable := by
  obtain ⟨ids, names, birthdays, hids, hnames, hbirthdays, rfl⟩ := exists_of_generator_eq_ok h
  have hparts := (Gen.answerable_range hids).zip (Gen.answerable_ofPattern hnames)
  have hdays := Gen.answerable_and_lt_of_not_leap (by decide) hbirthdays
  exact (hparts.zip hdays.1).map

theorem wellFormed_of_yields {g : Gen Person} (h : Person.generator = .ok g) (hp : g.Yields p) :
    p.WellFormed := by
  obtain ⟨ids, names, birthdays, hids, hnames, hbirthdays, rfl⟩ := exists_of_generator_eq_ok h
  rw [Gen.yields_map_iff] at hp
  obtain ⟨⟨⟨id, name⟩, birthday⟩, hparts, rfl⟩ := hp
  simp only [Gen.yields_zip_iff] at hparts
  obtain ⟨⟨hid, hname⟩, hbirthday⟩ := hparts
  obtain ⟨hpos, hlt⟩ := (Gen.yields_range_iff hids).1 hid
  rw [← Gen.draws_iff_yields] at hbirthday
  have hfirst := Gen.not_lt_of_draws_dateRangeBy hbirthdays hbirthday
  have hlast := (Gen.answerable_and_lt_of_not_leap (by decide) hbirthdays).2 _ hbirthday
  exact ⟨hpos, hlt, (yields_name_iff hnames).1 hname, hfirst, hlast⟩

/-- People can be drawn from every source, as many as are wanted, and all of them are well formed
and printed in the same columns. -/
theorem runTimes_generator :
    ∃ g, Person.generator = .ok g ∧ ∀ {σ : Type} (m : Sampler σ) (n : Nat) (s : σ),
      ∃ people t, g.runTimes m [] n s = some (people, t) ∧ people.length = n ∧
        ∀ p ∈ people, p.WellFormed ∧ p.InColumns (toString p).toList ∧
          (toString p).length = 37 := by
  obtain ⟨g, hg⟩ := Gen.exists_eq_ok_of_toBool (x := Person.generator) (by decide +kernel)
  refine ⟨g, hg, ?_⟩
  intro σ m n s
  obtain ⟨people, t, rfl, hdrawn⟩ := (answerable_generator hg).exists_consecutive m n s
  refine ⟨people, t, Gen.runTimes_of_consecutive hdrawn [], rfl, ?_⟩
  intro p hp
  have hwell := wellFormed_of_yields hg (hdrawn.yields p hp)
  have hcolumns : p.InColumns (toString p).toList := by
    change p.InColumns (String.ofList p.print).toList
    rw [String.toList_ofList]
    exact hwell.inColumns
  exact ⟨hwell, hcolumns, hcolumns.length_eq⟩

end Person

end PatternGen
