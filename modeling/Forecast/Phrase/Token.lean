import Forecast.Text.Digits
import Forecast.Text.Letter
import Forecast.Text.Quoted

namespace Forecast.Phrase

inductive Token where
  | number (n : Nat)
  | word (letters : List Char)
  | quote (text : List Char)
  | mark (c : Char)
  | stop
  deriving DecidableEq

namespace Token

def text : Token → String
  | .number n => s!"Int({n})"
  | .word letters => s!"Iden({Text.quoted letters})"
  | .quote text => s!"Str({Text.quoted text})"
  | .mark c => s!"Char({Text.quotedChar c})"
  | .stop => "End"

def isWordStart (c : Char) : Bool := Text.isAlphabetic c || c = '_'

def isWordPart (c : Char) : Bool := isWordStart c || Text.isNumeric c

/-- The first character of a text, whichever it is, with those after it that belong to `p`, and
what follows them. A null at the start is passed over. -/
def runOf (p : Char → Bool) : List Char → List Char × List Char
  | [] => ([], [])
  | c :: rest =>
    let more := rest.takeWhile p
    (if c = '\x00' then more else c :: more, rest.drop more.length)

/-- A quote is a run up to the next `mark`; a `mark` right at its start belongs to it. -/
def quoteFrom (mark : Char) (text : List Char) : Token × List Char :=
  let (body, rest) := runOf (· ≠ mark) text
  (.quote body, rest.drop 1)

def start : List Char → Token × List Char
  | [] => (.stop, [])
  | c :: rest =>
    if c.isDigit then
      let digits := rest.takeWhile Char.isDigit
      (.number (Text.digitsValue (c :: digits)), rest.drop digits.length)
    else if isWordStart c then
      let letters := rest.takeWhile isWordPart
      (.word (c :: letters), rest.drop letters.length)
    else if c = '\'' ∨ c = '"' then quoteFrom c rest
    else (.mark c, rest)

/-- The first token of a text and what follows it. A null is the end of the phrase, unless there
are blanks before it. -/
def next (text : List Char) : Token × List Char :=
  if text.head? = some '\x00' then (.stop, text) else start (Text.skipBlanks text)

end Token

end Forecast.Phrase
