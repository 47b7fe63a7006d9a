import Forecast.Decimal.Layout
import Forecast.Evaluation

namespace Forecast.Report

inductive Style where
  | bold
  | dim
  | red
  | green
  | yellow
  | blue
  | cyan
  | gray

def Style.code : Style → String
  | bold => "1"
  | dim => "2"
  | red => "31"
  | green => "32"
  | yellow => "33"
  | blue => "34"
  | cyan => "36"
  | gray => "90"

def paint (color : Bool) (style : Style) (text : String) : String :=
  if color then "\x1b[" ++ style.code ++ "m" ++ text ++ "\x1b[0m" else text

/-- The lines of a text whose first line starts with `line`, in reverse. A newline ends a line and
takes a carriage return before it along; the last line may lack its newline. -/
def linesAfter (line : List Char) : List Char → List (List Char)
  | [] => if line = [] then [] else [line.reverse]
  | '\n' :: rest =>
    (if line.head? = some '\r' then line.tail else line).reverse :: linesAfter [] rest
  | c :: rest => linesAfter (c :: line) rest

def lines (text : List Char) : List (List Char) := linesAfter [] text

def heading (color : Bool) (title : String) : List String :=
  ["", paint color .gray ("━━━ " ++ title ++ " ━━━")]

def sourceLine (source : List Char) (line : Nat) : Option (List Char) :=
  (Position.fromLine? source (line - 1)).map fun (_, rest) => (lines rest).headD []

/-- A diagnostic with the line that it is about and a caret below its column. -/
def diagnosticLines (color : Bool) (source : List Char) (d : Diagnostic) : List String :=
  ["  " ++ paint color .yellow d.position.text ++ " " ++ paint color .red d.message] ++
    match sourceLine source d.position.line with
    | none => []
    | some text =>
      ["    " ++ paint color .dim (String.ofList text),
        "    " ++ String.ofList (List.replicate (d.position.column - 1) ' ') ++
          paint color .bold (paint color .red "^")]

def least (samples : List Float) : Float :=
  samples.foldl (fun low x => if x < low then x else low) (1.0 / 0.0)

def greatest (samples : List Float) : Float :=
  samples.foldl (fun high x => if high < x then x else high) (-1.0 / 0.0)

def sampleLine (color : Bool) (samples : List Float) : String :=
  match samples.head?, samples.getLast? with
  | some first, some last =>
    let finite := samples.filter Float.isFinite
    "      " ++ paint color .dim "first:" ++ " " ++ twoPlaces first ++ "  " ++
      paint color .dim "│ last:" ++ " " ++ paint color .green (twoPlaces last) ++ "  " ++
      paint color .dim "│ min:" ++ " " ++ twoPlaces (least finite) ++ "  " ++
      paint color .dim "│ max:" ++ " " ++ twoPlaces (greatest finite)
  | _, _ => "      " ++ paint color .dim "no samples"

def caption (t : Tracked) : String :=
  if t.label = t.key then t.key else t.label ++ " (" ++ t.key ++ ")"

def seriesLines (color : Bool) (g : Graph) : List String :=
  let entries := (g.settings.tracked.zip g.series).flatMap fun (t, samples) =>
    ["  " ++ paint color .bold (paint color .blue (caption t)), sampleLine color samples]
  if g.series.isEmpty then entries ++ [paint color .dim "  No tracked variables"] else entries

def rangeLine (color : Bool) (g : Graph) : String :=
  "  " ++ paint color .yellow (twoPlaces g.range.low) ++ " " ++ paint color .dim "to" ++ " " ++
    paint color .yellow (twoPlaces g.range.high) ++ "  " ++ paint color .dim "│" ++ " " ++
    toString g.settings.days ++ " days from " ++ paint color .blue g.settings.start.text

def dateLines (color : Bool) (names : List String) : List String :=
  if names.isEmpty then [] else ["  " ++ paint color .dim "dates:" ++ " " ++ ", ".intercalate names]

def hiddenLines (color : Bool) (tracked : List String) (final : List (String × Float)) :
    List String :=
  let hidden := final.filter fun (name, _) => !tracked.contains name
  if hidden.isEmpty then []
  else
    ["  " ++ paint color .dim "hidden (final):" ++ " " ++
      ", ".intercalate (hidden.map fun (name, x) => name ++ " = " ++ twoPlaces x)]

def graphLines (color : Bool) (e : FullEvaluation) (g : Graph) : List String :=
  heading color "Series" ++ seriesLines color g ++ heading color "Range" ++ [rangeLine color g] ++
    dateLines color e.dateNames ++ hiddenLines color e.trackedKeys (e.final.getD [])

def text (color : Bool) (source : List Char) (e : FullEvaluation) (timing : String) : String :=
  let title := "⚙  Evaluating: " ++ toString (lines source).length ++ " lines"
  let diagnostics := e.evaluation.diagnostics
  let parts :=
    ["", paint color .bold (paint color .cyan title)] ++
      (if diagnostics.isEmpty then []
        else heading color "Diagnostics" ++ diagnostics.flatMap (diagnosticLines color source)) ++
      e.evaluation.graph.elim [] (graphLines color e) ++
      heading color "Timing" ++ ["  Total: " ++ timing, ""]
  String.join (parts.map (· ++ "\n"))

end Forecast.Report
