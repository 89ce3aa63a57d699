import Grimoire.Text.CodePoint

/-!
# Dates

A date with a time of day, in the calendar that has a leap day every four years but not every hundred,
and again every four hundred.

Main statements: `Date.ofSeconds_zero` and `Date.daysOfYear_le` (a year has at most 366 days).
-/

namespace Grimoire

/-- A date with a time of day. -/
structure Date where
  year : Nat
  month : Nat
  day : Nat
  hour : Nat
  minute : Nat
  second : Nat
  deriving DecidableEq

namespace Date

/-- Whether a year has a leap day. -/
def isLeap (year : Nat) : Bool := (year % 4 = 0 ∧ year % 100 ≠ 0) ∨ year % 400 = 0

/-- The days of a year. -/
def daysOfYear (year : Nat) : Nat := if isLeap year then 366 else 365

/-- The days of the months of a year. -/
def monthLengths (year : Nat) : List Nat :=
  [31, if isLeap year then 29 else 28, 31, 30, 31, 30, 31, 31, 30, 31, 30, 31]

/-- The month and the day of a month, counted from one, given the days before it. -/
def dayOfMonths (month days : Nat) : List Nat → Nat × Nat
  | [] => (month, days + 1)
  | length :: rest =>
    if days < length then (month, days + 1) else dayOfMonths (month + 1) (days - length) rest

/-- The year and the days before it in that year, counting from the start of a year. -/
def yearOfDays (year days : Nat) : Nat × Nat :=
  if daysOfYear year ≤ days then yearOfDays (year + 1) (days - daysOfYear year) else (year, days)
termination_by days
decreasing_by
  have hpos : 0 < daysOfYear year := by
    unfold daysOfYear
    split <;> decide
  omega

/-- The date that is a number of seconds after the start of 1970. -/
def ofSeconds (n : Nat) : Date :=
  let (year, days) := yearOfDays 1970 (n / 86400)
  let (month, day) := dayOfMonths 1 days (monthLengths year)
  ⟨year, month, day, n % 86400 / 3600, n % 3600 / 60, n % 60⟩

/-- A number with at least `width` digits. -/
def padded (width n : Nat) : Text :=
  let digits := Text.ofNat n
  List.replicate (width - digits.length) (CodePoint.scalar '0') ++ digits

/-- A date in the order from the year to the second, at the prime meridian. -/
def text (d : Date) : Text :=
  padded 4 d.year ++ "-" ++ padded 2 d.month ++ "-" ++ padded 2 d.day ++ "T" ++ padded 2 d.hour
    ++ ":" ++ padded 2 d.minute ++ ":" ++ padded 2 d.second ++ "+00:00"

theorem daysOfYear_le (year : Nat) : daysOfYear year ≤ 366 := by
  unfold daysOfYear
  split <;> decide

theorem ofSeconds_zero : ofSeconds 0 = ⟨1970, 1, 1, 0, 0, 0⟩ := by
  rw [ofSeconds, yearOfDays]
  decide

end Date

end Grimoire
