import Forecast.Plan
import Forecast.Result

namespace Forecast

/-- The only way to fail: day `day` of a run is not in the calendar. -/
structure OutOfCalendar where
  start : Date
  day : Nat
  deriving DecidableEq

def OutOfCalendar.message (e : OutOfCalendar) : String :=
  s!"day {e.day} after {e.start.text} is outside the supported calendar range"

def datesAfter (start : Date) (day : Nat) (d : Date) : Nat → Except OutOfCalendar (List Date)
  | 0 => .ok []
  | n + 1 =>
    match d.next? with
    | none => .error ⟨start, day + 1⟩
    | some d => (datesAfter start (day + 1) d n).map (d :: ·)

def datesFrom (start : Date) : Nat → Except OutOfCalendar (List Date)
  | 0 => .ok []
  | n + 1 => (datesAfter start 0 start n).map (start :: ·)

def Rule.apply (d : Date) (values : Values) (r : Rule) : Values :=
  if r.pattern.covers d then r.effect.run values else values

def runDay (rules : List Rule) (values : Values) (d : Date) : Values :=
  rules.foldl (Rule.apply d) values

def snapshots (rules : List Rule) (values : Values) : List Date → List Values
  | [] => []
  | d :: rest =>
    let values := runDay rules values d
    values :: snapshots rules values rest

namespace Plan

/-- The most snapshots there can be room for: one takes 40 bytes, and there are `2 ^ 63 - 1`. -/
def maxSnapshots : Nat := (Nat.pow 2 63 - 1) / 40

/-- The values after each day. Room for them is made before the first day. -/
def run (p : Plan) (start : Date) (days : Nat) : Result OutOfCalendar (List Values) :=
  if maxSnapshots < days then .aborted .capacity
  else .ofExcept ((datesFrom start days).map (snapshots p.rules p.initial))

def final (p : Plan) (start : Date) (days : Nat) : Except OutOfCalendar Values :=
  (datesFrom start days).map fun dates => dates.foldl (runDay p.rules) p.initial

end Plan

end Forecast
