import Forecast.Token

namespace Forecast

namespace Piece

inductive Role where
  | gap
  | token (kind : Token.Kind)
  | broken
  deriving DecidableEq

end Piece

structure Piece where
  role : Piece.Role
  text : List Char
  deriving DecidableEq

namespace Piece

def isBlank (c : Char) : Bool := c = ' ' || c = '\t' || c = '\r' || c = '\n' || c = '\x0c'

def isWordStart (c : Char) : Bool := c.isAlpha || c = '_'

def isWordPart (c : Char) : Bool := c.isAlphanum || c = '_'

def wordKind (word : List Char) : Token.Kind :=
  match Keyword.ofChars? word with
  | some k => .keyword k
  | none => .name

def digitRun (text : List Char) : Nat := (text.takeWhile Char.isDigit).length

/-- How many characters continue a number after its first digit: more digits, then perhaps a
point and the digits after it, if any. -/
def numberTail (rest : List Char) : Nat :=
  let whole := digitRun rest
  match rest.drop whole with
  | '.' :: fraction => whole + 1 + digitRun fraction
  | _ => whole

/-- How far a string goes on after its opening quote, and whether it is closed there. A backslash
takes the next character with it; neither may be a newline. -/
def stringTail : List Char → Nat × Bool
  | [] => (0, false)
  | '"' :: _ => (1, true)
  | '\n' :: _ => (0, false)
  | ['\\'] => (0, false)
  | '\\' :: '\n' :: _ => (0, false)
  | '\\' :: _ :: rest => ((stringTail rest).1 + 2, (stringTail rest).2)
  | _ :: rest => ((stringTail rest).1 + 1, (stringTail rest).2)

def symbol? (c : Char) (rest : List Char) : Option Symbol :=
  (Symbol.ofChars? (c :: rest.take 1)).or (Symbol.ofChars? [c])

/-- The role of the piece that starts with `c`, and how many more characters it has. -/
def classify (c : Char) (rest : List Char) : Role × Nat :=
  if isBlank c then (.gap, 0)
  else if c = '/' ∧ rest.head? = some '/' then (.gap, (rest.takeWhile (· ≠ '\n')).length)
  else if isWordStart c then
    let more := rest.takeWhile isWordPart
    (.token (wordKind (c :: more)), more.length)
  else if c.isDigit then (.token .number, numberTail rest)
  else if c = '.' ∧ digitRun rest ≠ 0 then (.token .number, digitRun rest)
  else if c = '"' then
    match stringTail rest with
    | (n, true) => (.token .string, n)
    | (n, false) => (.broken, n)
  else
    match symbol? c rest with
    | some s => (.token (.symbol s), s.chars.length - 1)
    | none => (.broken, 0)

def split : List Char → List Piece
  | [] => []
  | c :: rest =>
    let (role, more) := classify c rest
    ⟨role, c :: rest.take more⟩ :: split (rest.drop more)
termination_by text => text.length
decreasing_by simp only [List.length_drop, List.length_cons]; omega

def place (offset : Nat) : List Piece → List (Span × Piece)
  | [] => []
  | p :: rest =>
    let stop := offset + byteLength p.text
    (⟨offset, stop⟩, p) :: place stop rest

def token? : Span × Piece → Option Token
  | (span, ⟨.token kind, text⟩) => some ⟨kind, String.ofList text, span⟩
  | _ => none

def broken? : Span × Piece → Option (Span × String)
  | (span, ⟨.broken, text⟩) => some (span, String.ofList text)
  | _ => none

end Piece

namespace Token

def ofText (text : List Char) : List Token :=
  (Piece.place 0 (Piece.split text)).filterMap Piece.token?

def brokenParts (text : List Char) : List (Span × String) :=
  (Piece.place 0 (Piece.split text)).filterMap Piece.broken?

end Token

end Forecast
