import Forecast.Decimal.Layout
import Forecast.Evaluation
import Forecast.Json

namespace Forecast

/-- Numbers from `0.00001` up to sixteen digits are written with a point; a positive exponent has
its sign, and a tie goes to the even digit. -/
def Json.layout : Layout := ⟨-4, 16, .even, "+", "null", fun _ => "null"⟩

namespace Json

def float (x : Float) : Json := number (layout.text x)

def nat (n : Nat) : Json := number (toString n)

def ofDiagnostic (d : Diagnostic) : Json :=
  object [("line", nat d.position.line), ("column", nat d.position.column),
    ("message", string d.message)]

def ofTracked (t : Tracked) : Json :=
  object [("key", string t.key), ("label", string t.label), ("color", t.color.elim null string)]

def ofSettings (s : Settings) : Json :=
  object [("startDate", string s.start.text), ("nrDays", nat s.days), ("heightPx", nat s.height),
    ("stateKeysProps", array (s.tracked.map ofTracked)), ("chartType", string s.chartType.text),
    ("strokeWidth", float s.strokeWidth), ("legend", string s.legend.text)]

def ofGraph (g : Graph) : Json :=
  object [("data", array (g.series.map fun samples => array (samples.map float))),
    ("range", array [float g.range.low, float g.range.high]), ("options", ofSettings g.settings)]

def ofEvaluation (e : Evaluation) : Json :=
  object [("diagnostics", array (e.diagnostics.map ofDiagnostic)),
    ("graph", e.graph.elim null ofGraph)]

end Json

end Forecast
