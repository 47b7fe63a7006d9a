import Forecast.Calendar.Pattern
import Forecast.Plan.Effect
import Forecast.Settings

namespace Forecast

structure Rule where
  description : String
  pattern : DatePattern
  effect : Effect

/-- A script made ready to run, with the variables told apart by their numbers. -/
structure Plan where
  names : List String
  initial : Values
  dates : List (String × DatePattern)
  rules : List Rule
  settings : Settings

namespace Plan

def initialState (p : Plan) : List (String × Float) := p.names.zip p.initial

def date? (p : Plan) (name : String) : Option DatePattern := p.dates.lookup name

end Plan

end Forecast
