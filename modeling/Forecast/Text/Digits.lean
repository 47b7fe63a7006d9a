namespace Forecast.Text

def padded (width n : Nat) : String := String.ofList ((Nat.toDigits 10 n).leftpad width '0')

/-- The number that a run of digits denotes; every other character counts as its distance
from the zero. -/
def digitsValue (digits : List Char) : Nat :=
  digits.foldl (fun n c => 10 * n + (c.toNat - '0'.toNat)) 0

def fits? (bits n : Nat) : Option Nat := if n < Nat.pow 2 bits then some n else none

def addDigit? (bits n : Nat) (c : Char) : Option Nat := do
  let tens ← fits? bits (10 * n)
  fits? bits (tens + (c.toNat - '0'.toNat))

/-- The number that a run of digits denotes, unless a step of reading it takes more than some
bits. -/
def digitsWithin? (bits : Nat) (digits : List Char) : Option Nat := digits.foldlM (addDigit? bits) 0

end Forecast.Text
