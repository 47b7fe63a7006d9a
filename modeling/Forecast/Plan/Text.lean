import Forecast.Decimal.Layout
import Forecast.Plan
import Forecast.Text.Quoted

namespace Forecast

/-- Numbers from `0.0001` up to sixteen digits are written with a point; of two nearest digits
the greater is taken. -/
def Plan.layout : Layout := ⟨-3, 16, .up, "", "NaN", infinityText⟩

def Plan.stateText (p : Plan) : String :=
  let entries := p.initialState.map fun (name, x) =>
    Text.quoted name.toList ++ ": " ++ Plan.layout.text x
  "\x7b" ++ ", ".intercalate entries ++ "\x7d"

def Rule.text (r : Rule) : String :=
  "CompiledRule \x7b description: " ++ Text.quoted r.description.toList ++
    ", apply: \"<function>\" \x7d"

end Forecast
