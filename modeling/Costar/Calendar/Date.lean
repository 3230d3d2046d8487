import Costar.Text.Digit

/-!
# Dates

Days of the proleptic Gregorian calendar in the years 1 to 9999, and times of day on them.  A
`Date` is always a real day: the proof is part of the type.

Main definitions: `Date.make?`, `Date.ofWeek?` (a day by ISO week) and `Date.rank`, a number
that orders the dates.
-/

namespace Costar

namespace Calendar

/-- Whether a year has a twenty-ninth of February. -/
def isLeap (year : Nat) : Bool :=
  year % 4 == 0 && (year % 100 != 0 || year % 400 == 0)

/-- The number of days in a month. -/
def daysInMonth (year month : Nat) : Nat :=
  if month = 2 then (if isLeap year then 29 else 28)
  else if month = 4 ∨ month = 6 ∨ month = 9 ∨ month = 11 then 30
  else 31

/-- The number of days in a year. -/
def daysInYear (year : Nat) : Nat :=
  if isLeap year then 366 else 365

/-- The number of days in a year before the first of a month. -/
def daysBeforeMonth (year month : Nat) : Nat :=
  (List.range' 1 (month - 1)).foldl (fun days m => days + daysInMonth year m) 0

/-- The number of days before the first of January of a year, from year 1 on. -/
def daysBeforeYear (year : Nat) : Nat :=
  let past := year - 1
  past * 365 + past / 4 - past / 100 + past / 400

/-- The weekday of the first of January, Monday being zero. -/
def newYearWeekday (year : Nat) : Nat :=
  daysBeforeYear year % 7

/-- Whether the numbers name a day of the calendar. -/
def isReal (year month day : Nat) : Bool :=
  1 ≤ year && year ≤ 9999 && 1 ≤ month && month ≤ 12 && 1 ≤ day && day ≤ daysInMonth year month

end Calendar

/-- A day of the calendar. -/
structure Date where
  year : Nat
  month : Nat
  day : Nat
  isReal : Calendar.isReal year month day = true
deriving DecidableEq, Repr

namespace Date

/-- The day that the numbers name, if they name one. -/
def make? (year month day : Nat) : Option Date :=
  if h : Calendar.isReal year month day = true then some ⟨year, month, day, h⟩ else none

/-- The `n`-th day of a year, counted from zero. -/
def ofYearDay? (year n : Nat) : Option Date :=
  match (List.range' 1 12).reverse.find? fun month => Calendar.daysBeforeMonth year month ≤ n with
  | some month => make? year month (n - Calendar.daysBeforeMonth year month + 1)
  | none => none

/-- The day at a distance from the first of January of a year, which may lie in the year
before or after. -/
def ofYearOffset? (year : Nat) (offset : Int) : Option Date :=
  if offset < 0 then
    ofYearDay? (year - 1) (offset + Calendar.daysInYear (year - 1)).toNat
  else if (Calendar.daysInYear year : Int) ≤ offset then
    ofYearDay? (year + 1) (offset - Calendar.daysInYear year).toNat
  else
    ofYearDay? year offset.toNat

/-- Whether a year has an ISO week of a number.  Week 53 belongs to the years that begin on a
Thursday, and to the leap years that begin on a Wednesday. -/
def hasWeek (year week : Nat) : Bool :=
  let weekday := Calendar.newYearWeekday year
  (1 ≤ week && week ≤ 52) ||
    (week == 53 && (weekday == 3 || (weekday == 2 && Calendar.isLeap year)))

/-- The day of an ISO week, Monday being the first.  The first week of a year is the one that
holds its first Thursday. -/
def ofWeek? (year week day : Nat) : Option Date :=
  if 1 ≤ year && year ≤ 9999 && hasWeek year week && 1 ≤ day && day ≤ 7 then
    let weekday := Calendar.newYearWeekday year
    let firstMonday : Int := if weekday ≤ 3 then -(weekday : Int) else 7 - weekday
    ofYearOffset? year (firstMonday + 7 * (week - 1 : Nat) + (day - 1 : Nat))
  else
    none

/-- Orders the dates. -/
def rank (d : Date) : Nat :=
  (d.year * 100 + d.month) * 100 + d.day

/-- Whether one day is before another. -/
def lt (a b : Date) : Bool :=
  a.rank < b.rank

theorem day_le (d : Date) : d.day ≤ 31 := by
  have h := d.isReal
  have hm : Calendar.daysInMonth d.year d.month ≤ 31 := by
    unfold Calendar.daysInMonth
    repeat' split
    all_goals omega
  simp only [Calendar.isReal, Bool.and_eq_true, decide_eq_true_eq] at h
  omega

theorem month_le (d : Date) : d.month ≤ 12 := by
  have h := d.isReal
  simp only [Calendar.isReal, Bool.and_eq_true, decide_eq_true_eq] at h
  omega

/-- Dates of equal rank are equal, so `lt` is a total order. -/
theorem eq_of_rank_eq {a b : Date} (h : a.rank = b.rank) : a = b := by
  have ha := a.day_le
  have hb := b.day_le
  have ha' := a.month_le
  have hb' := b.month_le
  unfold rank at h
  obtain ⟨y, m, d, _⟩ := a
  obtain ⟨y', m', d', _⟩ := b
  simp only at *
  have : y = y' := by omega
  have : m = m' := by omega
  have : d = d' := by omega
  subst_vars
  rfl

end Date

/-- A day and a time of day, to the second. -/
structure DateTime where
  date : Date
  hour : Nat
  minute : Nat
  second : Nat
deriving DecidableEq, Repr

end Costar
