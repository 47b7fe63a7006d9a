import Forecast.Script.Step

namespace Forecast.PropertyList

/-- What comes next: the opening brace, an entry, the colon after its key, its value, or the
number after the minus sign of a value. -/
inductive Reading where
  | opening
  | entry (done : List Property)
  | colon (done : List Property) (key : Ident)
  | value (done : List Property) (key : Ident)
  | magnitude (done : List Property) (key : Ident) (minus : Span)

/-- The text between the quotes of a string, where a backslash stands for the character after
it. -/
def unescape : List Char → List Char
  | '\\' :: c :: rest => c :: unescape rest
  | ['\\'] => []
  | c :: rest => c :: unescape rest
  | [] => []

def unquote (text : List Char) : List Char := unescape (text.drop 1).dropLast

def addNumber (done : List Property) (key : Ident) (minus : Option Span) (t : Token) :
    Step Reading (List Property) :=
  match Decimal.ofText? t.text.toList with
  | some d =>
    .more (.entry (done ++ [⟨key, .number minus.isSome d ((minus.getD t.span).to t.span)⟩]))
  | none => .wrong .number

def entryKinds : List Token.Kind := [.name, .symbol .closeBrace]

def valueKinds : List Token.Kind := [.name, .number, .string, .symbol .minus]

def entryStep (done : List Property) : Option Token → Step Reading (List Property)
  | none => .wrong (.expected entryKinds)
  | some t =>
    match t.kind with
    | .symbol .comma => .more (.entry done)
    | .symbol .semicolon => .more (.entry done)
    | .symbol .closeBrace => .done done
    | .name => .more (.colon done t.ident)
    | _ => .wrong (.expected entryKinds)

def valueStep (done : List Property) (key : Ident) : Option Token → Step Reading (List Property)
  | none => .wrong (.expected valueKinds)
  | some t =>
    match t.kind with
    | .string =>
      .more (.entry (done ++ [⟨key, .string (String.ofList (unquote t.text.toList)) t.span⟩]))
    | .name => .more (.entry (done ++ [⟨key, .name t.ident⟩]))
    | .number => addNumber done key none t
    | .symbol .minus => .more (.magnitude done key t.span)
    | _ => .wrong (.expected valueKinds)

def magnitudeStep (done : List Property) (key : Ident) (minus : Span) :
    Option Token → Step Reading (List Property)
  | none => .wrong (.expected [.number])
  | some t =>
    if t.kind = .number then addNumber done key (some minus) t else .wrong (.expected [.number])

def Reading.step : Reading → Option Token → Step Reading (List Property)
  | .opening, t => .take (.symbol .openBrace) t fun _ => .entry []
  | .entry done, t => entryStep done t
  | .colon done key, t => .take (.symbol .colon) t fun _ => .value done key
  | .value done key, t => valueStep done key t
  | .magnitude done key minus, t => magnitudeStep done key minus t

end Forecast.PropertyList
