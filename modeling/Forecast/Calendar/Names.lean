namespace Forecast

def monthNames : List (List Char) :=
  ["january", "february", "march", "april", "may", "june", "july", "august", "september",
    "october", "november", "december"].map String.toList

def weekdayNames : List (List Char) :=
  ["monday", "tuesday", "wednesday", "thursday", "friday", "saturday", "sunday"].map String.toList

def nameIndex? (names : List (List Char)) (letters : List Char) : Option Nat :=
  names.findIdx? (·.take 3 = letters)

def monthOfLetters? (letters : List Char) : Option Nat := (nameIndex? monthNames letters).map (· + 1)

def weekdayOfLetters? (letters : List Char) : Option Nat := nameIndex? weekdayNames letters

end Forecast
