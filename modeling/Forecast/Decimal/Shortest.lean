import Forecast.Decimal.Binary
import Forecast.Text.Digits

namespace Forecast

/-- Which of two decimal numbers is taken for a float midway between them. -/
inductive Tie where
  | up
  | even
  deriving DecidableEq

structure Digits where
  digits : Nat
  exponent : Int
  deriving DecidableEq

namespace Digits

/-- The `n` with `10 ^ (n - 1) ≤ b < 10 ^ n`; the binary logarithm leaves two candidates. -/
def magnitude (b : Binary) : Int :=
  let log := ((b.mantissa.log2 : Int) + b.exponent) * 30103 / 100000
  let (num, den) := b.fraction
  if Nat.pow 10 (log + 1).toNat * den ≤ num * Nat.pow 10 (-(log + 1)).toNat then log + 2
  else log + 1

/-- The point `n` of a grid, or the one after it, whichever is in the interval and nearer; the
float is `num / den` grid steps and `low` and `high` over `den` are the ends of the interval. -/
def nearestInside? (tie : Tie) (closed : Bool) (low num high den : Nat) : Option Nat :=
  let n := num / den
  let inside (n : Nat) : Bool :=
    if closed then low ≤ n * den && n * den ≤ high else low < n * den && n * den < high
  let upper : Bool := match tie with
    | .up => (2 * n + 1) * den ≤ 2 * num
    | .even => (2 * n + 1) * den < 2 * num || ((2 * n + 1) * den = 2 * num && n % 2 = 1)
  match inside n, inside (n + 1) with
  | true, true => some (if upper then n + 1 else n)
  | true, false => some n
  | false, true => some (n + 1)
  | false, false => none

/-- The nearest point in the interval on the grid of multiples of `10 ^ k`. Below a power of two
floats lie twice as close, so the interval is shorter there. -/
def onGrid? (tie : Tie) (b : Binary) (k : Int) : Option Digits :=
  let factor := Nat.pow 2 (b.exponent - 2).toNat * Nat.pow 10 (-k).toNat
  let den := Nat.pow 2 (2 - b.exponent).toNat * Nat.pow 10 k.toNat
  let below := if b.mantissa = Nat.pow 2 52 ∧ -1074 < b.exponent then 1 else 2
  (nearestInside? tie (b.mantissa % 2 = 0) ((4 * b.mantissa - below) * factor)
    (4 * b.mantissa * factor) ((4 * b.mantissa + 2) * factor) den).map fun n => ⟨n, k⟩

/-- The fewest digits from which a float is read back. Grids of decimal numbers are tried from
coarse to fine, and the first one with a point among the reals that round to the float gives the
nearest such point. Seventeen digits are always enough. -/
def shortest (tie : Tie) (b : Binary) : Digits :=
  let size := magnitude b
  ((List.range 17).findSome? fun (n : Nat) => onGrid? tie b (size - (n + 1))).getD ⟨0, 0⟩

end Digits

end Forecast
