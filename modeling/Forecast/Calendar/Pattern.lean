import Forecast.Calendar.Date

namespace Forecast

inductive DatePart where
  | any
  | exact (value : Int)
  deriving DecidableEq

/-- Some of year, month and day are fixed; a negative day counts back from the end of the month. -/
inductive DatePattern where
  | parts (year month day : DatePart)
  | never
  deriving DecidableEq

namespace DatePattern

inductive Error where
  | negativeYear (year : Int)
  | monthOutOfRange (month : Int)
  | dayOutOfRange (day : Int)
  deriving DecidableEq

def Error.message : Error → String
  | .negativeYear y => s!"year {y} must not be negative"
  | .monthOutOfRange m => s!"month {m} is out of range 1..=12"
  | .dayOutOfRange d =>
    s!"day {d} is out of range (1..=31, or -31..=-1 counting back from the end of the month)"

def every : DatePattern := .parts .any .any .any

def checkYear : DatePart → Except Error Unit
  | .exact y => if y < 0 then throw (.negativeYear y) else pure ()
  | .any => pure ()

def checkMonth : DatePart → Except Error Unit
  | .exact m => if 1 ≤ m ∧ m ≤ 12 then pure () else throw (.monthOutOfRange m)
  | .any => pure ()

def checkDay : DatePart → Except Error Unit
  | .exact d => if d ≠ 0 ∧ -31 ≤ d ∧ d ≤ 31 then pure () else throw (.dayOutOfRange d)
  | .any => pure ()

/-- The first part out of range, in the order year, month, day, is the error. -/
def ofParts (year month day : DatePart) : Except Error DatePattern := do
  checkYear year
  checkMonth month
  checkDay day
  return .parts year month day

def partMatches (value : Int) : DatePart → Bool
  | .any => true
  | .exact v => value == v

def dayMatches (d : Date) : DatePart → Bool
  | .any => true
  | .exact v =>
    if 0 < v then (d.day : Int) == v else (d.day : Int) - Date.lastOfMonth d.year d.month - 1 == v

def covers (p : DatePattern) (d : Date) : Bool :=
  match p with
  | .parts year month day => partMatches d.year year && partMatches d.month month && dayMatches d day
  | .never => false

def partText : DatePart → String
  | .any => "*"
  | .exact v => toString v

def text : DatePattern → String
  | .parts year month day => s!"{partText year}-{partText month}-{partText day}"
  | .never => "<never>"

end DatePattern

end Forecast
