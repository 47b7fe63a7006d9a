import Forecast.Calendar.Date
import Forecast.Calendar.Names
import Forecast.Text.Blank

namespace Forecast.Written

/-- A month name may be cut to three letters; the full form is read if it is there. -/
inductive Item where
  | year
  | month
  | day
  | shortName
  | fullName
  | blanks
  | mark (c : Char)
  deriving DecidableEq

structure Fields where
  year : Int
  month : Nat
  day : Nat

def readDigits? (limit : Nat) (text : List Char) : Option (Nat × List Char) :=
  let digits := (text.take limit).takeWhile Char.isDigit
  if digits = [] then none else some (Text.digitsValue digits, text.drop digits.length)

/-- A year has up to four digits, or a sign and any number of them. -/
def readYear? (text : List Char) : Option (Int × List Char) :=
  match Text.skipBlanks text with
  | '-' :: rest => (readDigits? rest.length rest).map fun (n, rest) => (-(n : Int), rest)
  | '+' :: rest => (readDigits? rest.length rest).map fun (n, rest) => ((n : Int), rest)
  | rest => (readDigits? 4 rest).map fun (n, rest) => ((n : Int), rest)

def readPart? (max : Nat) (text : List Char) : Option (Nat × List Char) := do
  let (n, rest) ← readDigits? 2 (Text.skipBlanks text)
  if 1 ≤ n ∧ n ≤ max then some (n, rest) else none

def readShortName? (text : List Char) : Option (Nat × List Char) :=
  (monthOfLetters? ((text.take 3).map Char.toLower)).map fun m => (m, text.drop 3)

def nameEnding (month : Nat) : List Char := (monthNames.getD (month - 1) []).drop 3

def readFullName? (text : List Char) : Option (Nat × List Char) := do
  let (m, rest) ← readShortName? text
  let ending := nameEnding m
  if (rest.take ending.length).map Char.toLower = ending then some (m, rest.drop ending.length)
  else some (m, rest)

def Item.read? (fields : Fields) (text : List Char) : Item → Option (Fields × List Char)
  | .year => (readYear? text).map fun (y, rest) => (⟨y, fields.month, fields.day⟩, rest)
  | .month => (readPart? 12 text).map fun (m, rest) => (⟨fields.year, m, fields.day⟩, rest)
  | .day => (readPart? 31 text).map fun (d, rest) => (⟨fields.year, fields.month, d⟩, rest)
  | .shortName => (readShortName? text).map fun (m, rest) => (⟨fields.year, m, fields.day⟩, rest)
  | .fullName => (readFullName? text).map fun (m, rest) => (⟨fields.year, m, fields.day⟩, rest)
  | .blanks => some (fields, Text.skipBlanks text)
  | .mark c =>
    match text with
    | d :: rest => if c = d then some (fields, rest) else none
    | [] => none

abbrev Format := List Item

def Format.read? (fields : Fields) (text : List Char) : Format → Option Fields
  | [] => if text = [] then some fields else none
  | item :: items => do
    let (fields, rest) ← item.read? fields text
    Format.read? fields rest items

def Format.date? (format : Format) (text : List Char) : Option Date := do
  let fields ← format.read? ⟨0, 0, 0⟩ text
  Date.ofParts? fields.year fields.month fields.day

def hyphenated : Format := [.year, .mark '-', .month, .mark '-', .day]

/-- The formats of a start date: `2024-03-05`, `2024/03/05`, `Mar 5 2024`, `March 5 2024`,
`Mar 5, 2024`, `March 5, 2024`, `5 Mar 2024` and `5 March 2024`. -/
def formats : List Format :=
  [hyphenated,
    [.year, .mark '/', .month, .mark '/', .day],
    [.shortName, .blanks, .day, .blanks, .year],
    [.fullName, .blanks, .day, .blanks, .year],
    [.shortName, .blanks, .day, .mark ',', .blanks, .year],
    [.fullName, .blanks, .day, .mark ',', .blanks, .year],
    [.day, .blanks, .shortName, .blanks, .year],
    [.day, .blanks, .fullName, .blanks, .year]]

def date? (text : List Char) : Option Date := formats.findSome? (·.date? text)

end Forecast.Written
