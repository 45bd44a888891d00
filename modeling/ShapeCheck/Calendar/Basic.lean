import ShapeCheck.Value.Misuse

/-
  Dates of the proleptic Gregorian calendar from year 1 to year 9999, times of day down to the
  microsecond, and moments: a date and a time with an optional offset from universal time.
-/

namespace ShapeCheck.Calendar

structure Date where
  year : Nat
  month : Nat
  day : Nat
deriving DecidableEq, Repr

def isLeap (year : Nat) : Bool :=
  year % 4 == 0 && (year % 100 != 0 || year % 400 == 0)

def daysInMonth (year month : Nat) : Nat :=
  if month = 2 then (if isLeap year then 29 else 28)
  else if month = 4 ∨ month = 6 ∨ month = 9 ∨ month = 11 then 30
  else 31

def daysInYear (year : Nat) : Nat := if isLeap year then 366 else 365

/-- A date that exists. -/
structure Date.Valid (d : Date) : Prop where
  year : 1 ≤ d.year ∧ d.year ≤ 9999
  month : 1 ≤ d.month ∧ d.month ≤ 12
  day : 1 ≤ d.day ∧ d.day ≤ daysInMonth d.year d.month

theorem Date.valid_iff {d : Date} : d.Valid ↔
    (1 ≤ d.year ∧ d.year ≤ 9999) ∧ (1 ≤ d.month ∧ d.month ≤ 12) ∧
      1 ≤ d.day ∧ d.day ≤ daysInMonth d.year d.month :=
  ⟨fun h => ⟨h.year, h.month, h.day⟩, fun ⟨y, m, d⟩ => ⟨y, m, d⟩⟩

instance (d : Date) : Decidable d.Valid := decidable_of_iff _ Date.valid_iff.symm

structure Clock where
  hour : Nat := 0
  minute : Nat := 0
  second : Nat := 0
  micro : Nat := 0
deriving DecidableEq, Repr

/-- A time of day that exists; a minute has sixty seconds, never more. -/
structure Clock.Valid (t : Clock) : Prop where
  hour : t.hour < 24
  minute : t.minute < 60
  second : t.second < 60
  micro : t.micro < 1000000

theorem Clock.valid_iff {t : Clock} : t.Valid ↔
    t.hour < 24 ∧ t.minute < 60 ∧ t.second < 60 ∧ t.micro < 1000000 :=
  ⟨fun h => ⟨h.hour, h.minute, h.second, h.micro⟩, fun ⟨h, m, s, u⟩ => ⟨h, m, s, u⟩⟩

instance (t : Clock) : Decidable t.Valid := decidable_of_iff _ Clock.valid_iff.symm

/-- The microseconds since midnight. -/
def Clock.micros (t : Clock) : Nat :=
  ((t.hour * 60 + t.minute) * 60 + t.second) * 1000000 + t.micro

/-- The microseconds of a day. -/
def dayMicros : Nat := 24 * 60 * 60 * 1000000

/-- A time of day, with an offset from universal time in microseconds if it is known. -/
structure Time where
  clock : Clock
  offset : Option Int := none
deriving DecidableEq, Repr

structure Moment where
  date : Date
  clock : Clock := {}
  offset : Option Int := none
deriving DecidableEq, Repr

/-- A moment whose date and time exist and whose offset is less than a day. -/
structure Moment.Valid (m : Moment) : Prop where
  date : m.date.Valid
  clock : m.clock.Valid
  offset : ∀ o ∈ m.offset, o.natAbs < dayMicros

def Moment.time (m : Moment) : Time := ⟨m.clock, m.offset⟩

/-- The largest number of a machine word. -/
def maxWord : Nat := 2147483647

/-- The numbers of the date and of the time of a moment. -/
def Moment.numbers (m : Moment) : List Nat :=
  [m.date.year, m.date.month, m.date.day,
    m.clock.hour, m.clock.minute, m.clock.second, m.clock.micro]

/-- A moment from its numbers. They have to fit into machine words, and the date and the time have
to exist. -/
def Moment.checked (m : Moment) : Except Misuse Moment :=
  if m.numbers.any (maxWord < ·) then .error .tooLarge
  else if m.date.Valid ∧ m.clock.Valid then .ok m
  else .error .outOfRange

/-! ## Counting days -/

/-- The days before the first of January of a year, from the first of January of year 1. -/
def daysBeforeYear (year : Nat) : Nat :=
  let y := year - 1
  365 * y + y / 4 - y / 100 + y / 400

/-- The days of a year before a month. -/
def daysBeforeMonth (year : Nat) : (month : Nat) → Nat
  | 0 => 0
  | 1 => 0
  | m + 2 => daysBeforeMonth year (m + 1) + daysInMonth year (m + 1)

/-- The days from the first of January of year 1 to a date. -/
def Date.dayNumber (d : Date) : Nat :=
  daysBeforeYear d.year + daysBeforeMonth d.year d.month + (d.day - 1)

/-- The microseconds from the start of year 1 to a moment, offset taken off. -/
def Moment.micros (m : Moment) : Int :=
  (m.date.dayNumber * dayMicros + m.clock.micros : Nat) - m.offset.getD 0

/-- The date `n` days after the first of a month, at most `fuel` months on. -/
def Date.inYear (year month n : Nat) : (fuel : Nat) → Date
  | 0 => ⟨year, month, n + 1⟩
  | fuel + 1 =>
    if n < daysInMonth year month then ⟨year, month, n + 1⟩
    else Date.inYear year (month + 1) (n - daysInMonth year month) fuel

/-- The date `n` days after the first of January of a year, in that year or a neighbouring one. -/
def Date.ofYearDay (year : Nat) (n : Int) : Date :=
  if n < 0 then Date.inYear (year - 1) 1 (n + daysInYear (year - 1)).toNat 11
  else if n < daysInYear year then Date.inYear year 1 n.toNat 11
  else Date.inYear (year + 1) 1 (n - daysInYear year).toNat 11

/-! ## Weeks

Weeks start on Monday, and the first week of a year is the one that holds its first Thursday. -/

/-- The day of the week of the first of January, Monday being zero. -/
def newYearWeekday (year : Nat) : Nat := daysBeforeYear year % 7

/-- The days from the first of January to the Monday of the first week, which may be negative. -/
def firstMonday (year : Nat) : Int :=
  let w := newYearWeekday year
  if 3 < w then 7 - (w : Int) else -(w : Int)

/-- Whether a year has 53 weeks. -/
def hasLongYear (year : Nat) : Bool :=
  newYearWeekday year == 3 || (newYearWeekday year == 2 && isLeap year)

/-- The date of a day of a week of a year, if they all exist. -/
def Date.ofWeek? (year week day : Nat) : Option Date :=
  if year < 1 ∨ 9999 < year then none
  else if week < 1 ∨ 53 < week ∨ (week = 53 ∧ !hasLongYear year) then none
  else if day < 1 ∨ 7 < day then none
  else
    let d := Date.ofYearDay year (firstMonday year + (week - 1) * 7 + (day - 1))
    if d.Valid then some d else none

end ShapeCheck.Calendar
