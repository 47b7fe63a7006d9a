import Forecast.Calendar.Date
import Forecast.Phrase.Error
import Forecast.Result

namespace Forecast.Phrase

inductive Direction where
  | next
  | last
  deriving DecidableEq

inductive Measure where
  | seconds (n : Nat)
  | days (n : Nat)
  | months (n : Nat)
  deriving DecidableEq

inductive Day where
  | counted (count : Int) (measure : Measure)
  | absolute (year : Int) (month day : Nat)
  | weekday (day : Nat) (direction : Option Direction)
  | monthDay (month day : Nat) (direction : Option Direction)
  deriving DecidableEq

structure Clock where
  hour : Nat
  minute : Nat
  second : Nat
  offset : Int
  deriving DecidableEq

namespace Clock

def midnight : Clock := ⟨0, 0, 0, 0⟩

def seconds? (c : Clock) : Option Nat :=
  if c.hour < 24 ∧ c.minute < 60 ∧ c.second < 60 then
    some (3600 * c.hour + 60 * c.minute + c.second)
  else none

/-- The date in universal time when a clock on date `d` shows this time. -/
def date? (c : Clock) (d : Date) : Option Date := do
  let seconds ← c.seconds?
  Date.ofNumber? ((86400 * d.number + seconds - c.offset) / 86400)

end Clock

namespace Day

def move (d : Date) (days : Int) : Result Error Date :=
  (d.addDays? days).elim (.aborted .offCalendar) .ok

/-- The nearest such weekday on the side of the direction. Today counts, unless the direction is
`last` and the clock time is past midnight. -/
def ofWeekday (today : Date) (clock : Clock) (day : Nat) (direction : Option Direction) :
    Result Error Date := do
  let d ← move today ((day : Int) - today.weekday)
  match direction with
  | some .last =>
    if today.number < d.number then move d (-7)
    else if d = today then
      match clock.seconds? with
      | none => throw .badDate
      | some seconds => if 0 < seconds then move d (-7) else return d
    else return d
  | _ => if d.number < today.number then move d 7 else return d

/-- That day of this year, or of the next or last one if it lies on the wrong side of today. -/
def ofMonthDay? (today : Date) (month day : Nat) (direction : Option Direction) : Option Date := do
  let d ← Date.ofParts? today.year month day
  match direction with
  | some .next =>
    if d.number < today.number then Date.ofParts? (today.year + 1) month day else some d
  | some .last =>
    if today.number < d.number then Date.ofParts? (today.year - 1) month day else some d
  | none => some d

/-- Year and month that lie `n` months after a date. Going back into an earlier year, a December
comes out as month thirteen of the year before. -/
def monthAfter (today : Date) (n : Int) : Int × Int :=
  let month := (today.month : Int) - 1 + n
  if 0 ≤ month then (today.year + month / 12, month % 12 + 1)
  else (today.year - (12 - month) / 12, 12 - (12 - month) % 12 + 1)

/-- The last existing day of a month that is at most `day`, searched down to the 28th. -/
def lastDayUpTo? (year : Int) (month : Nat) : Nat → Option Date
  | 0 => none
  | day + 1 =>
    match Date.ofParts? year month (day + 1) with
    | some d => some d
    | none => if day < 28 then none else lastDayUpTo? year month day

def addMonths? (today : Date) (n : Int) : Option Date :=
  let (year, month) := monthAfter today n
  lastDayUpTo? year month.toNat today.day

/-- The date that the day means with `today` as the reference and, if the phrase has one, a clock
time. Counted seconds make up for the clock time. -/
def resolve (today : Date) (clock : Option Clock) (day : Day) : Result Error Date :=
  let onClock (d : Date) : Result Error Date :=
    match clock with
    | none => .ok d
    | some c => (c.date? d).elim (.error .badDate) .ok
  match day with
  | counted count (.seconds n) => move today (count * n / 86400)
  | counted count (.days n) => move today (count * n) >>= onClock
  | counted count (.months n) => (addMonths? today (count * n)).elim (.error .shortMonth) onClock
  | absolute year month day => (Date.ofParts? year month day).elim (.error .badDate) onClock
  | weekday wanted direction =>
    ofWeekday today (clock.getD .midnight) wanted direction >>= onClock
  | monthDay month day direction =>
    (ofMonthDay? today month day direction).elim (.error .badDate) onClock

end Day

end Forecast.Phrase
