import Forecast.Script.Tree
import Forecast.Token

namespace Forecast

/-- Why a token is wrong: another kind was expected, or the text of a number is unfit for its
place. -/
inductive Cause where
  | expected (kinds : List Token.Kind)
  | datePart
  | number
  | extraneous
  deriving DecidableEq

/-- The outcome of a step in the reading of an `α`, with `σ` for what has been read so far. -/
inductive Step (σ α : Type) where
  | more (state : σ)
  | done (result : α)
  | wrong (cause : Cause)

namespace Step

variable {σ α : Type}

def take (kind : Token.Kind) (t : Option Token) (f : Token → σ) : Step σ α :=
  match t with
  | some t => if t.kind = kind then more (f t) else wrong (.expected [kind])
  | none => wrong (.expected [kind])

end Step

namespace Token

def ident (t : Token) : Ident := ⟨t.text, t.span⟩

end Token

end Forecast
