import Forecast.Script.Step

namespace Forecast.PatternLiteral

inductive Leading where
  | nothing
  | year (year : PartLiteral)
  | month (year month : PartLiteral)

/-- A part is expected, perhaps after its minus sign, or a separator after one or two parts. -/
inductive Reading where
  | part (leading : Leading) (minus : Option Span)
  | separator (year : PartLiteral) (month : Option PartLiteral)

def start : Reading := .part .nothing none

/-- The magnitude of a part: digits alone, and few enough for 64 bits with a sign. -/
def magnitude? (text : List Char) : Option Nat :=
  if text ≠ [] ∧ text.all Char.isDigit ∧ Text.digitsValue text < Nat.pow 2 63 then
    some (Text.digitsValue text)
  else none

def Leading.complete (p : PartLiteral) : Leading → Step Reading PatternLiteral
  | .nothing => .more (.separator p none)
  | .year y => .more (.separator y (some p))
  | .month y m => .done ⟨y, m, p⟩

def numberStep (leading : Leading) (minus : Option Span) (t : Token) :
    Step Reading PatternLiteral :=
  match magnitude? t.text.toList, minus with
  | some n, none => leading.complete ⟨some n, t.span⟩
  | some n, some sign => leading.complete ⟨some (-n), sign.to t.span⟩
  | none, _ => .wrong .datePart

def partKinds : List Token.Kind := [.number, .symbol .minus, .symbol .star]

def separatorKinds : List Token.Kind := [.symbol .minus, .symbol .slash]

def partStep (leading : Leading) : Option Token → Step Reading PatternLiteral
  | none => .wrong (.expected partKinds)
  | some t =>
    match t.kind with
    | .symbol .star => leading.complete ⟨none, t.span⟩
    | .symbol .minus => .more (.part leading (some t.span))
    | .number => numberStep leading none t
    | _ => .wrong (.expected partKinds)

def magnitudeStep (leading : Leading) (minus : Span) : Option Token → Step Reading PatternLiteral
  | none => .wrong (.expected [.number])
  | some t =>
    if t.kind = .number then numberStep leading (some minus) t else .wrong (.expected [.number])

def separatorStep (year : PartLiteral) (month : Option PartLiteral) (t : Option Token) :
    Step Reading PatternLiteral :=
  if (t.any fun t => separatorKinds.contains t.kind) then
    match month with
    | none => .more (.part (.year year) none)
    | some month => .more (.part (.month year month) none)
  else .wrong (.expected separatorKinds)

def Reading.step : Reading → Option Token → Step Reading PatternLiteral
  | .part leading none, t => partStep leading t
  | .part leading (some minus), t => magnitudeStep leading minus t
  | .separator year month, t => separatorStep year month t

end Forecast.PatternLiteral
