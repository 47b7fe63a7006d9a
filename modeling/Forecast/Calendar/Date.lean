import Forecast.Text.Digits

namespace Forecast

def isLeap (year : Int) : Bool := year % 4 = 0 && (year % 100 ≠ 0 || year % 400 = 0)

def monthLength (year : Int) (month : Nat) : Nat :=
  if month = 2 then if isLeap year then 29 else 28
  else if month = 4 ∨ month = 6 ∨ month = 9 ∨ month = 11 then 30
  else 31

def firstYear : Int := -262143

def lastYear : Int := 262142

/-- Dates of the proleptic Gregorian calendar, which has a year zero. -/
structure Date where
  year : Int
  month : Nat
  day : Nat
  year_mem : firstYear ≤ year ∧ year ≤ lastYear
  month_mem : 1 ≤ month ∧ month ≤ 12
  day_mem : 1 ≤ day ∧ day ≤ monthLength year month
  deriving DecidableEq

namespace Date

def ofParts? (year : Int) (month day : Nat) : Option Date :=
  if h : (firstYear ≤ year ∧ year ≤ lastYear) ∧ (1 ≤ month ∧ month ≤ 12) ∧
      1 ≤ day ∧ day ≤ monthLength year month then
    some ⟨year, month, day, h.1, h.2.1, h.2.2⟩
  else none

def next? (d : Date) : Option Date :=
  if d.day < monthLength d.year d.month then ofParts? d.year d.month (d.day + 1)
  else if d.month < 12 then ofParts? d.year (d.month + 1) 1
  else ofParts? (d.year + 1) 1 1

def daysBeforeYear (year : Int) : Int :=
  365 * year + (year + 3) / 4 - (year + 99) / 100 + (year + 399) / 400

def daysBeforeMonth (year : Int) : Nat → Nat
  | 0 => 0
  | 1 => 0
  | month + 2 => daysBeforeMonth year (month + 1) + monthLength year (month + 1)

def number (d : Date) : Int :=
  daysBeforeYear d.year + daysBeforeMonth d.year d.month + (d.day - 1 : Nat)

def lastNumber : Int := daysBeforeYear (lastYear + 1) - 1

/-- Month and day of the month that lie `rest` days after the start of `month`, looking at the
next `months` months. -/
def monthAndDay (year : Int) (month rest : Nat) : Nat → Nat × Nat
  | 0 => (month, rest + 1)
  | months + 1 =>
    if rest < monthLength year month then (month, rest + 1)
    else monthAndDay year (month + 1) (rest - monthLength year month) months

/-- The year of a day number. A cycle of 400 years has 146097 days; inside it, counting all
years as leap years comes out at most one year too low. -/
def yearOfNumber (n : Int) : Int :=
  let cycle := n / 146097
  let year := n % 146097 / 366
  400 * cycle + if daysBeforeYear (year + 1) ≤ n % 146097 then year + 1 else year

def ofNumber? (n : Int) : Option Date :=
  let year := yearOfNumber n
  let (month, day) := monthAndDay year 1 (n - daysBeforeYear year).toNat 12
  ofParts? year month day

def addDays? (d : Date) (days : Int) : Option Date := ofNumber? (d.number + days)

def previous? (d : Date) : Option Date := d.addDays? (-1)

def monthAfter? (year : Int) (month : Nat) : Option Date :=
  if month = 12 then ofParts? (year + 1) 1 1 else ofParts? year (month + 1) 1

/-- The last day of a month, which is the day before the next one. The last month of the calendar
has none after it and has 31 days. -/
def lastOfMonth (year : Int) (month : Nat) : Nat :=
  ((monthAfter? year month).bind previous?).elim 31 day

def weekday (d : Date) : Nat := ((d.number + 5) % 7).toNat

def yearText (year : Int) : String :=
  let digits := Text.padded 4 year.natAbs
  if year < 0 then "-" ++ digits else if 9999 < year then "+" ++ digits else digits

def text (d : Date) : String :=
  yearText d.year ++ "-" ++ Text.padded 2 d.month ++ "-" ++ Text.padded 2 d.day

end Date

end Forecast
