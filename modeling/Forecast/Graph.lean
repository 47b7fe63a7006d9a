import Forecast.Run

namespace Forecast

structure Range where
  low : Float
  high : Float

namespace Range

def zero : Range := ⟨0.0, 0.0⟩

/-- Takes in a sample. What is not a number compares with nothing and changes nothing. -/
def widen (r : Range) (x : Float) : Range :=
  ⟨if x < r.low then x else r.low, if r.high < x then x else r.high⟩

end Range

structure Graph where
  series : List (List Float)
  range : Range
  settings : Settings

def Values.sample (values : Values) (slot : Option Nat) : Float := slot.elim nan values.read

/-- What is gathered of a run on the way: the samples of each tracked variable so far, and the
range of them all. -/
structure Drawing where
  series : List (Array Float)
  range : Range

namespace Drawing

def start (slots : List (Option Nat)) : Drawing := ⟨slots.map fun _ => #[], Range.zero⟩

def add (slots : List (Option Nat)) (drawing : Drawing) (values : Values) : Drawing :=
  let day := slots.map values.sample
  ⟨List.zipWith Array.push drawing.series day, day.foldl Range.widen drawing.range⟩

def day (rules : List Rule) (slots : List (Option Nat)) : Drawing × Values → Date → Drawing × Values
  | (drawing, values), d =>
    let values := runDay rules values d
    (drawing.add slots values, values)

end Drawing

namespace Plan

def slots (p : Plan) : List (Option Nat) := p.settings.tracked.map fun t => p.names.idxOf? t.key

def simulate (p : Plan) : Except OutOfCalendar (Graph × Values) :=
  (datesFrom p.settings.start p.settings.days).map fun dates =>
    let (drawing, last) := dates.foldl (Drawing.day p.rules p.slots) (Drawing.start p.slots, p.initial)
    (⟨drawing.series.map Array.toList, drawing.range, p.settings⟩, last)

def graph (p : Plan) : Except OutOfCalendar Graph := p.simulate.map Prod.fst

end Plan

end Forecast
