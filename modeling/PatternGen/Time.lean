import PatternGen.Text.Basic

namespace PatternGen

open Text

structure Date where
  year : Int
  month : Nat
  day : Nat
  deriving DecidableEq, Repr

namespace Date

def cycle : Nat := 146097

/-- The days from the first of March of the year zero to the first of January 1970. -/
def epoch : Nat := 719468

/-- The year of a cycle that a day of it falls into, when years begin in March. -/
def yearOfCycle (day : Nat) : Nat := (day - day / 1460 + day / 36524 - day / 146096) / 365

/-- The days of a cycle before one of its years. -/
def daysBeforeYear (year : Nat) : Nat := 365 * year + year / 4 - year / 100

/-- The days before a month, counted from March. -/
def daysBeforeMonth (month : Nat) : Nat := (153 * month + 2) / 5

def ofDays (days : Int) : Date :=
  let shifted := days + epoch
  let day := (shifted % cycle).toNat
  let year := yearOfCycle day
  let day := day - daysBeforeYear year
  let month := (5 * day + 2) / 153
  ⟨400 * (shifted / cycle) + year + (if month < 10 then 0 else 1),
    if month < 10 then month + 3 else month - 9, day - daysBeforeMonth month + 1⟩

/-- The number of the day of a date, where the first of January 1970 has 0. -/
def toDays (d : Date) : Int :=
  let year := if d.month ≤ 2 then d.year - 1 else d.year
  let month := if d.month ≤ 2 then d.month + 9 else d.month - 3
  cycle * (year / 400) - epoch +
    (daysBeforeYear (year % 400).toNat + daysBeforeMonth month + d.day - 1 : Nat)

/-- At least four digits; years before 0 and after 9999 have a sign. -/
def printYear (year : Int) : List Char :=
  let digits := padLeft 4 '0' (decimal year.natAbs)
  if year < 0 then '-' :: digits else if 9999 < year then '+' :: digits else digits

def twoDigits (n : Nat) : List Char := padLeft 2 '0' (decimal n)

def print (d : Date) : List Char :=
  printYear d.year ++ '-' :: twoDigits d.month ++ '-' :: twoDigits d.day

end Date

namespace Instant

def billion : Nat := 1000000000

def firstSecond : Int := -8334601228800

def lastSecond : Int := 8210266876799

example : firstSecond = 86400 * (Date.mk (-262143) 1 1).toDays := by decide

example : lastSecond = 86400 * (Date.mk 262143 1 1).toDays - 1 := by decide

/-- A second that there is a date for, and a part of it or of a leap second after it. -/
def InCalendar (second : Int) (nanosecond : Nat) : Prop :=
  firstSecond ≤ second ∧ second ≤ lastSecond ∧ nanosecond < 2 * billion

instance : Decidable (InCalendar second nanosecond) := inferInstanceAs (Decidable (_ ∧ _ ∧ _))

end Instant

/-- A leap second is no second of its own: an instant within one belongs to the second before, with
a billion nanoseconds or more. -/
structure Instant where
  /-- Counted from the beginning of 1970, without leap seconds. -/
  second : Int
  nanosecond : Nat
  inCalendar : Instant.InCalendar second nanosecond := by decide
  deriving DecidableEq, Repr

namespace Instant

def ofParts? (second : Int) (nanosecond : Nat) : Option Instant :=
  if h : InCalendar second nanosecond then some ⟨second, nanosecond, h⟩ else none

def midnight (year : Int) (month day : Nat)
    (h : InCalendar (86400 * (Date.mk year month day).toDays) 0 := by decide) : Instant :=
  ⟨86400 * (Date.mk year month day).toDays, 0, h⟩

instance : LT Instant where
  lt t u := t.second < u.second ∨ t.second = u.second ∧ t.nanosecond < u.nanosecond

instance (t u : Instant) : Decidable (t < u) :=
  inferInstanceAs (Decidable (_ ∨ _))

def isLeap (t : Instant) : Bool := billion ≤ t.nanosecond

def date (t : Instant) : Date := .ofDays (t.second / 86400)

def secondOfDay (t : Instant) : Nat := (t.second % 86400).toNat

/-- `t` lies in a leap second, and earlier in its day than `u` does in its own. -/
def leapsBefore (t u : Instant) : Bool := t.isLeap && t.secondOfDay < u.secondOfDay

/-- The nanoseconds from one instant to another. A leap second that one of them lies in is counted
where the time of day of the other is later. -/
def nanosecondsTo (t u : Instant) : Int :=
  billion * (u.second - t.second + (if t.leapsBefore u then 1 else 0)
    - (if u.leapsBefore t then 1 else 0)) + (u.nanosecond - t.nanosecond)

/-- The second and its part so many nanoseconds later, on a calendar without an end. An instant in a
leap second stays there if it can, and otherwise leaves the leap second uncounted. -/
def later (t : Instant) (n : Int) : Int × Nat :=
  let sum := t.nanosecond + n
  if t.isLeap ∧ -billion < n ∧ sum < 2 * billion then (t.second, sum.toNat)
  else
    let sum := if t.isLeap ∧ 0 ≤ n then sum - billion else sum
    (t.second + sum / billion, (sum % billion).toNat)

/-- The instant so many nanoseconds later; none if that is past the end of the calendar. -/
def addNanoseconds? (t : Instant) (n : Int) : Option Instant :=
  ofParts? (t.later n).1 (t.later n).2

def addMicroseconds? (t : Instant) (n : Int) : Option Instant := t.addNanoseconds? (1000 * n)

/-- The parts of a second after a point, in three, six or nine places; nothing if there are none. -/
def printFraction (n : Nat) : List Char :=
  if n = 0 then []
  else if n % 1000000 = 0 then '.' :: padLeft 3 '0' (decimal (n / 1000000))
  else if n % 1000 = 0 then '.' :: padLeft 6 '0' (decimal (n / 1000))
  else '.' :: padLeft 9 '0' (decimal n)

/-- The hour, the minute and the second. A leap second is the second after the fifty-ninth. -/
def printTime (t : Instant) : List Char :=
  let second := t.secondOfDay
  Date.twoDigits (second / 3600) ++ ':' :: Date.twoDigits (second / 60 % 60) ++
    ':' :: Date.twoDigits (second % 60 + t.nanosecond / billion) ++
      printFraction (t.nanosecond % billion)

def print (t : Instant) : List Char := t.date.print ++ ' ' :: t.printTime ++ [' ', 'U', 'T', 'C']

instance : ToString Instant where
  toString t := String.ofList t.print

end Instant

end PatternGen
