import Forecast.Checked
import Forecast.Settings

namespace Forecast

namespace PropertyValue

def expectString (key : String) : PropertyValue → Except Settings.Error String
  | .string text _ => .ok text
  | _ => .error (.wrongKind key .string)

def expectWord (key : String) : PropertyValue → Except Settings.Error String
  | .string text _ => .ok text
  | .name ident => .ok ident.name
  | .number .. => .error (.wrongKind key .word)

def expectPositive (key : String) : PropertyValue → Except Settings.Error Float
  | .number negative magnitude _ =>
    let x := if negative then -magnitude.toFloat else magnitude.toFloat
    if 0.0 < x ∧ x.isFinite then .ok x else .error (.notPositive key)
  | _ => .error (.wrongKind key .number)

end PropertyValue

namespace Tracked

def hiddenColor : String := "hidden"

def apply (t : Tracked) (p : Property) : Except Settings.Error Tracked :=
  match p.key.name with
  | "label" => (p.value.expectString "label").map fun label => { t with label }
  | "color" => (p.value.expectString "color").map fun color => { t with color := some color }
  | _ => .ok t

def applyAll (t : Tracked) : List Property → Checked Tracked
  | [] => pure t
  | p :: rest =>
    match t.apply p with
    | .ok t => t.applyAll rest
    | .error e => do
      Checked.report p.value.span (.setting e)
      t.applyAll rest

def ofProperties (name : String) (properties : Option (List Property)) : Checked Tracked :=
  applyAll ⟨name, name, none⟩ (properties.getD [])

end Tracked

def ChartType.ofWord (word : String) : Except Settings.Error ChartType :=
  match word with
  | "line" => .ok .line
  | "area" => .ok .area
  | _ => .error (.unknownWord "chartType" word ["line", "area"])

def Legend.ofWord (word : String) : Except Settings.Error Legend :=
  match word with
  | "none" => .ok .none
  | "line" => .ok .line
  | _ => .error (.unknownWord "legend" word ["none", "line"])

namespace Settings

def duration (text : String) : Except Error Nat :=
  match Duration.ofText text.toList with
  | .ok days => .ok days
  | .error .malformed => .error (.duration text)
  | .error .tooLong => .error (.tooLong text)

def startDate (today : Date) (text : String) : Except Error Date :=
  match StartDate.ofText today text.toList with
  | .ok d => .ok d
  | .error e => .error (.startDate text e)
  | .aborted why => .error (.aborted why)

/-- Pixels are whole: a half goes up, and there is at least one and at most what 32 bits hold. -/
def pixels (x : Float) : Nat := Nat.max 1 x.round.toUInt32.toNat

/-- Settings in the making, with the places of the values that the start and the number of days
come from. -/
structure Draft where
  settings : Settings
  startSpan : Option Span
  daysSpan : Option Span

namespace Draft

def apply (today : Date) (d : Draft) (p : Property) : Except Error Draft :=
  let key := p.key.name
  match key with
  | "startDate" => do
    let start ← startDate today (← p.value.expectString key)
    return { d with settings.start := start, startSpan := some p.value.span }
  | "duration" => do
    let days ← duration (← p.value.expectString key)
    return { d with settings.days := days, daysSpan := some p.value.span }
  | "height" => do return { d with settings.height := pixels (← p.value.expectPositive key) }
  | "strokeWidth" => do return { d with settings.strokeWidth := ← p.value.expectPositive key }
  | "chartType" => do return { d with settings.chartType := ← ChartType.ofWord (← p.value.expectWord key) }
  | "legend" => do return { d with settings.legend := ← Legend.ofWord (← p.value.expectWord key) }
  | "label" | "color" => (p.value.expectString key).map fun _ => d
  | _ => .ok d

def applyAll (today : Date) (d : Draft) : List Property → Checked Draft
  | [] => pure d
  | p :: rest =>
    match d.apply today p with
    | .ok d => d.applyAll today rest
    | .error e => do
      Checked.report p.value.span (.setting e)
      d.applyAll today rest

/-- A span of days that leaves the calendar is blamed on the start if the script gives one, else
on the duration; the blamed setting keeps its default. -/
def finish (today : Date) (d : Draft) : Checked Settings :=
  match checkHorizon d.settings.start d.settings.days, d.startSpan, d.daysSpan with
  | .ok (), _, _ => pure d.settings
  | .error e, some span, _ => do
    Checked.report span (.setting e)
    return { d.settings with start := today }
  | .error e, none, some span => do
    Checked.report span (.setting e)
    return { d.settings with days := defaultDays }
  | .error _, none, none => pure d.settings

end Draft

def ofProperties (today : Date) (tracked : List Tracked) (properties : Option (List Property)) :
    Checked Settings := do
  let draft ← Draft.applyAll today ⟨default today tracked, none, none⟩ (properties.getD [])
  draft.finish today

end Settings

end Forecast
