import Forecast.Graph
import Forecast.Plan.OfScript
import Forecast.Script.Reader

namespace Forecast

/-- What is given beside the script: the date of today, and a first day and a number of days
that win over those of the script. -/
structure Request where
  today : Date
  start : Option Date
  days : Option Nat

def Blame.fault (size : Nat) (b : Blame) : Fault :=
  match b.token, b.cause with
  | some t, .expected kinds => ⟨t.span, .mismatched (some t.text) kinds⟩
  | some t, .datePart => ⟨t.span, .datePart t.text⟩
  | some t, .number => ⟨t.span, .number t.text⟩
  | some t, .extraneous => ⟨t.span, .extraneous t.text⟩
  | none, .expected kinds => ⟨⟨size, size⟩, .mismatched none kinds⟩
  | none, .datePart => ⟨⟨size, size⟩, .datePart Problem.endText⟩
  | none, .number => ⟨⟨size, size⟩, .number Problem.endText⟩
  | none, .extraneous => ⟨⟨size, size⟩, .extraneous Problem.endText⟩

/-- The script in a text, as far as it is correct; broken text is reported before wrong tokens. -/
def Script.ofText (source : List Char) : Checked Script :=
  let broken := (Token.brokenParts source).map fun (span, text) => ⟨span, .unrecognized text⟩
  let (script, blames) := Script.ofTokens (Token.ofText source)
  ⟨script, broken ++ blames.map (Blame.fault (byteLength source))⟩

namespace Plan

def override (p : Plan) (r : Request) : Plan :=
  { p with
    settings.start := r.start.getD p.settings.start
    settings.days := r.days.getD p.settings.days }

def checkSpan (p : Plan) : Except Settings.Error Unit := do
  Settings.checkDays p.settings.days
  Settings.checkHorizon p.settings.start p.settings.days

/-- The plan of a script, or everything that is wrong with it, unless a start date breaks the
program off. What is wrong with the span of days in the end has no place in the text and is reported
at its start. -/
def finish (r : Request) (source : List Char) (plan : Checked Plan) :
    Result (List Diagnostic) Plan :=
  match plan.faults.findSome? (·.problem.abort?) with
  | some why => .aborted why
  | none =>
    if plan.faults ≠ [] then .error (plan.faults.map (.ofFault source))
    else
      let plan := plan.value.override r
      match plan.checkSpan with
      | .ok () => .ok plan
      | .error e => .error [⟨.first, .setting e⟩]

def ofText (r : Request) (source : List Char) : Result (List Diagnostic) Plan :=
  let script := Script.ofText source
  if script.faults ≠ [] then .error (script.faults.map (.ofFault source))
  else finish r source (ofScript r.today script.value)

end Plan

structure Evaluation where
  diagnostics : List Diagnostic
  graph : Option Graph

/-- An evaluation with what only a plan tells: the names of the tracked variables and of the
dates, and the values of all variables after the last day. -/
structure FullEvaluation where
  evaluation : Evaluation
  trackedKeys : List String
  dateNames : List String
  final : Option (List (String × Float))

def evaluate (r : Request) (source : List Char) : Result OutOfCalendar Evaluation :=
  match Plan.ofText r source with
  | .aborted why => .aborted why
  | .error diagnostics => .ok ⟨diagnostics, none⟩
  | .ok plan => .ofExcept (plan.graph.map fun graph => ⟨[], some graph⟩)

def evaluateFully (r : Request) (source : List Char) : Result OutOfCalendar FullEvaluation :=
  match Plan.ofText r source with
  | .aborted why => .aborted why
  | .error diagnostics => .ok ⟨⟨diagnostics, none⟩, [], [], none⟩
  | .ok plan =>
    .ofExcept (plan.simulate.map fun (graph, last) =>
      ⟨⟨[], some graph⟩, plan.settings.tracked.map Tracked.key, plan.dates.map Prod.fst,
        some (plan.names.zip last)⟩)

end Forecast
