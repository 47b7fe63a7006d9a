namespace Forecast

/-- A number is kept as its text. -/
inductive Json where
  | null
  | number (text : String)
  | string (text : String)
  | array (items : List Json)
  | object (fields : List (String × Json))

namespace Json

def hexDigit (n : Nat) : Char := (Nat.toDigits 16 n).headD '0'

def escape (c : Char) : List Char :=
  if c = '"' then ['\\', '"']
  else if c = '\\' then ['\\', '\\']
  else if c = '\n' then ['\\', 'n']
  else if c = '\r' then ['\\', 'r']
  else if c = '\t' then ['\\', 't']
  else if c = '\x08' then ['\\', 'b']
  else if c = '\x0c' then ['\\', 'f']
  else if c.toNat < 32 then ['\\', 'u', '0', '0', hexDigit (c.toNat / 16), hexDigit (c.toNat % 16)]
  else [c]

def quoted (text : String) : String :=
  String.ofList ('"' :: text.toList.flatMap escape ++ ['"'])

abbrev Depth := Option Nat

def Depth.deeper (d : Depth) : Depth := d.map (· + 1)

def Depth.newline : Depth → String
  | none => ""
  | some n => String.ofList ('\n' :: List.replicate (2 * n) ' ')

def Depth.colon : Depth → String
  | none => ":"
  | some _ => ": "

mutual

def write (d : Depth) (out : String) : Json → String
  | null => out ++ "null"
  | number text => out ++ text
  | string text => out ++ quoted text
  | array [] => out ++ "[]"
  | array (first :: rest) =>
    writeItems d.deeper (write d.deeper (out ++ "[" ++ d.deeper.newline) first) rest ++
      d.newline ++ "]"
  | object [] => out ++ "\x7b\x7d"
  | object ((key, first) :: rest) =>
    writeFields d.deeper
      (write d.deeper (out ++ "\x7b" ++ d.deeper.newline ++ quoted key ++ d.colon) first) rest ++
      d.newline ++ "\x7d"

def writeItems (d : Depth) (out : String) : List Json → String
  | [] => out
  | item :: rest => writeItems d (write d (out ++ "," ++ d.newline) item) rest

def writeFields (d : Depth) (out : String) : List (String × Json) → String
  | [] => out
  | (key, item) :: rest =>
    writeFields d (write d (out ++ "," ++ d.newline ++ quoted key ++ d.colon) item) rest

end

def compact (j : Json) : String := j.write none ""

def pretty (j : Json) : String := j.write (some 0) ""

end Json

end Forecast
