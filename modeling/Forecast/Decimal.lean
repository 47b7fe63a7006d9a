import Forecast.Text.Digits

namespace Forecast

structure Decimal where
  mantissa : Nat
  places : Nat
  deriving DecidableEq

namespace Decimal

/-- Digits, perhaps with a point before, between or after them. -/
def ofText? (text : List Char) : Option Decimal :=
  let whole := text.takeWhile Char.isDigit
  match text.drop whole.length with
  | [] => if whole = [] then none else some ⟨Text.digitsValue whole, 0⟩
  | '.' :: fraction =>
    if fraction.all Char.isDigit ∧ whole ++ fraction ≠ [] then
      some ⟨Text.digitsValue (whole ++ fraction), fraction.length⟩
    else none
  | _ => none

def toFloat (d : Decimal) : Float := Float.ofScientific d.mantissa true d.places

end Decimal

end Forecast
