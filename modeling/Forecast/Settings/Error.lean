import Forecast.Duration
import Forecast.StartDate

namespace Forecast.Settings

inductive Wanted where
  | string
  | word
  | number
  deriving DecidableEq

def Wanted.text : Wanted → String
  | string => "a string"
  | word => "a name or string"
  | number => "a number"

inductive Error where
  | duration (text : String)
  | tooLong (text : String)
  | startDate (text : String) (reason : StartDate.Error)
  -- the reading of a start date breaks off, and nothing is told of it
  | aborted (why : Abort)
  | pastCalendar (start : Date) (days : Nat)
  | wrongKind (key : String) (wanted : Wanted)
  | unknownWord (key value : String) (known : List String)
  | notPositive (key : String)
  deriving DecidableEq

def Error.message : Error → String
  | duration text =>
    s!"invalid duration \"{text}\", expected <number><d|w|m|y> such as \"90d\" or \"5y\""
  | tooLong text => s!"duration \"{text}\" exceeds the maximum of {Duration.maxDays} days"
  | startDate text reason => s!"invalid startDate \"{text}\": {reason.message}"
  | aborted _ => ""
  | pastCalendar start days =>
    s!"{days} days from {start.text} run past the last supported date"
  | wrongKind key wanted => s!"option `{key}` expects {wanted.text}"
  | unknownWord key value known =>
    s!"unknown {key} \"{value}\", expected one of " ++ ", ".intercalate known
  | notPositive key => s!"option `{key}` must be a positive number"

/-- An error of which nothing is told, since the program breaks off on it. -/
def Error.abort? : Error → Option Abort
  | aborted why => some why
  | _ => none

def checkHorizon (start : Date) (days : Nat) : Except Error Unit :=
  if start.number + (days - 1 : Nat) ≤ Date.lastNumber then .ok ()
  else .error (.pastCalendar start days)

def checkDays (days : Nat) : Except Error Unit :=
  if days ≤ Duration.maxDays then .ok () else .error (.tooLong s!"{days}d")

end Forecast.Settings
