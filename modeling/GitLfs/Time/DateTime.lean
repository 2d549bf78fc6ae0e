/-!
# Dates and times

A date of the Gregorian calendar in the years 1 to 9999 with a time of day to the microsecond, and
the offset from UTC, to the microsecond and of less than a day, where one is known. Times are also
counted in microseconds since the start of 1970 in UTC.
-/

namespace GitLfs

/-- The year has a 29th of February. -/
def isLeapYear (year : Nat) : Bool :=
  year % 4 == 0 && (year % 100 != 0 || year % 400 == 0)

/-- The number of days of a month; a month that does not exist has none. -/
def daysInMonth (year month : Nat) : Nat :=
  if month = 2 then if isLeapYear year then 29 else 28
  else if month = 4 ∨ month = 6 ∨ month = 9 ∨ month = 11 then 30
  else if 1 ≤ month ∧ month ≤ 12 then 31
  else 0

/-- The number of microseconds in a minute. -/
def microsPerMinute : Int := 60000000

/-- The number of microseconds in a day. -/
def microsPerDay : Int := 86400000000

/-- A date and a time of day, with the offset from UTC in microseconds where one is known. -/
structure DateTime where
  year : Nat
  month : Nat
  day : Nat
  hour : Nat
  minute : Nat
  second : Nat
  microsecond : Nat
  offset : Option Int
  year_range : 1 ≤ year ∧ year ≤ 9999
  day_range : 1 ≤ day ∧ day ≤ daysInMonth year month
  time_range : hour ≤ 23 ∧ minute ≤ 59 ∧ second ≤ 59 ∧ microsecond ≤ 999999
  offset_range : ∀ o ∈ offset, -microsPerDay < o ∧ o < microsPerDay
  deriving DecidableEq, Repr

namespace DateTime

/-- The date and time with the given parts, if they make one. -/
def ofParts? (year month day hour minute second microsecond : Nat) (offset : Option Int) :
    Option DateTime :=
  if hy : 1 ≤ year ∧ year ≤ 9999 then
    if hd : 1 ≤ day ∧ day ≤ daysInMonth year month then
      if ht : hour ≤ 23 ∧ minute ≤ 59 ∧ second ≤ 59 ∧ microsecond ≤ 999999 then
        if ho : ∀ o ∈ offset, -microsPerDay < o ∧ o < microsPerDay then
          some ⟨year, month, day, hour, minute, second, microsecond, offset, hy, hd, ht, ho⟩
        else none
      else none
    else none
  else none

theorem ofParts?_self (t : DateTime) :
    ofParts? t.year t.month t.day t.hour t.minute t.second t.microsecond t.offset = some t := by
  simp [ofParts?, t.year_range, t.day_range, t.time_range]
  exact t.offset_range

/-- Year, month and day of the day that comes `days` days after the first of January 1970. -/
def dateOfDays (days : Int) : Int × Nat × Nat :=
  let shifted := days + 719468
  let era := shifted.fdiv 146097
  let dayOfEra := (shifted - era * 146097).toNat
  let yearOfEra := (dayOfEra - dayOfEra / 1460 + dayOfEra / 36524 - dayOfEra / 146096) / 365
  let dayOfYear := dayOfEra - (365 * yearOfEra + yearOfEra / 4 - yearOfEra / 100)
  let monthFromMarch := (5 * dayOfYear + 2) / 153
  let day := dayOfYear - (153 * monthFromMarch + 2) / 5 + 1
  let month := if monthFromMarch < 10 then monthFromMarch + 3 else monthFromMarch - 9
  (yearOfEra + era * 400 + (if month ≤ 2 then 1 else 0), month, day)

/-- The time so many microseconds after the start of 1970 in UTC, as clocks show it at an offset. -/
def ofEpoch? (micros : Int) (offset : Int) : Option DateTime :=
  let shown := micros + offset
  let (year, month, day) := dateOfDays (shown.fdiv microsPerDay)
  let ofDay := (shown.fmod microsPerDay).toNat
  ofParts? year.toNat month day (ofDay / 3600000000) (ofDay / 60000000 % 60)
    (ofDay / 1000000 % 60) (ofDay % 1000000) (some offset)

end DateTime

end GitLfs
