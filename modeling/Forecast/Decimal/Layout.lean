import Forecast.Decimal.Shortest

namespace Forecast

/-- A format for floats. Numbers of at least `10 ^ (low - 1)` and less than `10 ^ high` are
written with a point. -/
structure Layout where
  low : Int
  high : Int
  tie : Tie
  plus : String
  nan : String
  infinite : Bool → String

namespace Layout

def plain (digits : List Char) (point : Int) : List Char :=
  let whole := digits.take point.toNat ++ List.replicate (point.toNat - digits.length) '0'
  let fraction := List.replicate (-point).toNat '0' ++ digits.drop point.toNat
  (if whole = [] then ['0'] else whole) ++ ['.'] ++ (if fraction = [] then ['0'] else fraction)

def scientific (plus : String) (digits : List Char) (exponent : Int) : List Char :=
  let fraction := digits.drop 1
  digits.take 1 ++ (if fraction = [] then [] else '.' :: fraction) ++ ['e'] ++
    (if exponent < 0 then [] else plus.toList) ++ (toString exponent).toList

def trimZeros (digits : List Char) : List Char := (digits.reverse.dropWhile (· = '0')).reverse

def magnitudeText (l : Layout) (b : Binary) : List Char :=
  if b.mantissa = 0 then plain [] 0
  else
    let d := Digits.shortest l.tie b
    let digits := Nat.toDigits 10 d.digits
    let point := (digits.length : Int) + d.exponent
    if l.low ≤ point ∧ point ≤ l.high then plain (trimZeros digits) point
    else scientific l.plus (trimZeros digits) (point - 1)

def text (l : Layout) (x : Float) : String :=
  if x.isNaN then l.nan
  else
    let (negative, b) := Binary.ofFloat x
    if x.isInf then l.infinite negative
    else String.ofList ((if negative then ['-'] else []) ++ l.magnitudeText b)

end Layout

/-- Numbers shown with two places: a half goes to the even neighbour. -/
def hundredths (b : Binary) : Nat :=
  let (num, den) := b.fraction
  let n := 100 * num / den
  let rest := 2 * (100 * num % den)
  if den < rest ∨ (rest = den ∧ n % 2 = 1) then n + 1 else n

def infinityText (negative : Bool) : String := if negative then "-inf" else "inf"

def twoPlaces (x : Float) : String :=
  if x.isNaN then "NaN"
  else
    let (negative, b) := Binary.ofFloat x
    if x.isInf then infinityText negative
    else
      let n := hundredths b
      (if negative then "-" else "") ++ toString (n / 100) ++ "." ++ Text.padded 2 (n % 100)

end Forecast
