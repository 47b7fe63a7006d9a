import Forecast.Calendar.Date

namespace Forecast

inductive ChartType where
  | line
  | area
  deriving DecidableEq

inductive Legend where
  | none
  | line
  deriving DecidableEq

def ChartType.text : ChartType → String
  | line => "line"
  | area => "area"

def Legend.text : Legend → String
  | none => "none"
  | line => "line"

structure Tracked where
  key : String
  label : String
  color : Option String
  deriving DecidableEq

structure Settings where
  start : Date
  days : Nat
  height : Nat
  tracked : List Tracked
  chartType : ChartType
  strokeWidth : Float
  legend : Legend

namespace Settings

def defaultDays : Nat := 5 * 365

def default (start : Date) (tracked : List Tracked) : Settings :=
  ⟨start, defaultDays, 200, tracked, .line, 2.0, .line⟩

end Settings

end Forecast
