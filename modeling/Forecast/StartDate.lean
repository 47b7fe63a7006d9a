import Forecast.Calendar.Written
import Forecast.Phrase.Reader

namespace Forecast.StartDate

/-- No number in a phrase may be larger; amounts of days are counted without a check. -/
def maxNumber : Nat := 36600

inductive Error where
  | largeNumber
  | phrase (e : Phrase.Error)
  deriving DecidableEq

def Error.message : Error → String
  | largeNumber => s!"relative offsets are limited to {maxNumber}"
  | phrase e => e.message

/-- Whether some run of digits, `n` being the value of the one before the text, exceeds a
limit. -/
def exceeds (limit n : Nat) : List Char → Bool
  | [] => limit < n
  | c :: rest =>
    if c.isDigit then exceeds limit (Text.digitsValue [c] + 10 * n) rest
    else limit < n || exceeds limit 0 rest

def ofText (today : Date) (text : List Char) : Result Error Date :=
  let trimmed := Text.trim text
  match Written.date? trimmed with
  | some d => .ok d
  | none =>
    if exceeds maxNumber 0 trimmed then .error .largeNumber
    else (Phrase.date today trimmed).mapError .phrase

end Forecast.StartDate
