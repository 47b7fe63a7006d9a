import Forecast.Text.Blank
import Forecast.Text.Digits

namespace Forecast.Duration

/-- The longest forecast, a hundred years of 366 days. -/
def maxDays : Nat := 36600

inductive Error where
  | malformed
  | tooLong
  deriving DecidableEq

def daysOfUnit? : Char → Option Nat
  | 'd' => some 1
  | 'w' => some 7
  | 'm' => some 31
  | 'y' => some 365
  | _ => none

/-- The digits and the days of the unit: digits and a letter, with blanks around and between
them. -/
def parts? (text : List Char) : Option (List Char × Nat) :=
  let text := Text.skipBlanks text
  let digits := text.takeWhile Char.isDigit
  match digits, Text.skipBlanks (text.drop digits.length) with
  | [], _ => none
  | _, [] => none
  | _, c :: rest =>
    if Text.skipBlanks rest = [] then (daysOfUnit? c).map fun unit => (digits, unit) else none

/-- So many units of some days each. The product is made in 64 bits, and the days are kept in
32. -/
def days? (digits : List Char) (unit : Nat) : Option Nat := do
  let count ← Text.digitsWithin? 64 digits
  let days ← Text.fits? 64 (count * unit)
  if maxDays < days then none else Text.fits? 32 days

def ofText (text : List Char) : Except Error Nat :=
  match parts? text with
  | none => .error .malformed
  | some (digits, unit) =>
    match days? digits unit with
    | some days => .ok days
    | none => .error .tooLong

end Forecast.Duration
