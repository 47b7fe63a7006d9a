import Forecast.Plan
import Forecast.Plan.Resolve
import Forecast.Settings.OfProperties

namespace Forecast

/-- Values of pattern parts are cut to 32 bits, which takes none of them into or out of range. -/
def clampPart (v : Int) : Int := max (-2147483648) (min v 2147483647)

def PartLiteral.part (p : PartLiteral) : DatePart := p.value.elim .any fun v => .exact (clampPart v)

def PatternLiteral.pattern (p : PatternLiteral) : Except DatePattern.Error DatePattern :=
  DatePattern.ofParts p.year.part p.month.part p.day.part

def PatternLiteral.blamed (p : PatternLiteral) : DatePattern.Error → Span
  | .negativeYear _ => p.year.span
  | .monthOutOfRange _ => p.month.span
  | .dayOutOfRange _ => p.day.span

/-- A pattern that is out of range is reported and matches no date. -/
def PatternLiteral.resolve (p : PatternLiteral) : Checked DatePattern :=
  match p.pattern with
  | .ok pattern => pure pattern
  | .error e => do
    Checked.report (p.blamed e) (.pattern e)
    return .never

namespace Plan

def dateTable (declarations : List Declaration) : List (String × DatePattern) :=
  declarations.filterMap fun
    | .date name literal => some (name.name, literal.resolve.value)
    | _ => none

structure Draft where
  names : List String
  initial : Values
  tracked : List Tracked
  dates : List (String × DatePattern)
  rules : List Rule

namespace Draft

def empty : Draft := ⟨[], [], [], [], []⟩

def addVar (d : Draft) (name : Ident) (initial : NumberExpr)
    (properties : Option (List Property)) : Checked Draft := do
  let known := d.names.contains name.name
  if known then Checked.report name.span (.varExists name.name)
  let value ← initial.resolve d.names
  let tracked ← Tracked.ofProperties name.name properties
  if known then return d
  return { d with
    names := d.names ++ [name.name]
    initial := d.initial ++ [value.eval d.initial]
    tracked := if tracked.color = some Tracked.hiddenColor then d.tracked
      else d.tracked ++ [tracked] }

def addDate (d : Draft) (name : Ident) (literal : PatternLiteral) : Checked Draft := do
  let pattern ← literal.resolve
  if (d.dates.lookup name.name).isSome then
    Checked.report name.span (.dateExists name.name)
    return d
  return { d with dates := d.dates ++ [(name.name, pattern)] }

def resolveWhen (table : List (String × DatePattern)) : When → Checked (String × DatePattern)
  | .pattern literal => do
    let pattern ← literal.resolve
    return (pattern.text, pattern)
  | .named ident =>
    match table.lookup ident.name with
    | some pattern => pure (ident.name, pattern)
    | none => do
      Checked.report ident.span (.dateNotFound ident.name)
      return (ident.name, .never)

def addRule (table : List (String × DatePattern)) (d : Draft) (when : When) (action : Action) :
    Checked Draft := do
  let (text, pattern) ← resolveWhen table when
  let effect ← action.resolve d.names
  return { d with rules := d.rules ++ [⟨"at " ++ text, pattern, effect⟩] }

def add (table : List (String × DatePattern)) (d : Draft) : Declaration → Checked Draft
  | .var name initial properties => d.addVar name initial properties
  | .date name literal => d.addDate name literal
  | .rule when action => d.addRule table when action

def addAll (table : List (String × DatePattern)) (d : Draft) : List Declaration → Checked Draft
  | [] => pure d
  | declaration :: rest => do (← d.add table declaration).addAll table rest

end Draft

def ofScript (today : Date) (script : Script) : Checked Plan := do
  let d ← Draft.empty.addAll (dateTable script.declarations) script.declarations
  let settings ← Settings.ofProperties today d.tracked script.options
  return ⟨d.names, d.initial, d.dates, d.rules, settings⟩

end Plan

end Forecast
