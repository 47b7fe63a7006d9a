import Forecast.Calendar.Names
import Forecast.Phrase.Day
import Forecast.Source.Position
import Forecast.Text.Lower

namespace Forecast.Phrase

abbrev Reader := StateT (List Char) (Result Error)

/-- What the reading of the day has already seen of the clock time: nothing, an hour, an hour and
the `:` or `.` after it, or an hour that is complete. -/
inductive Ahead where
  | nothing
  | hour (hour : Nat)
  | colon (hour : Nat)
  | point (hour : Nat)
  | exact (hour : Nat)
  deriving DecidableEq

namespace Reader

def token : Reader Token := modifyGet Token.next

def peek? : Reader (Option Char) := return (← get).head?

def skip : Reader Unit := modify List.tail

def takes (c : Char) : Reader Bool := do
  if (← peek?) = some c then
    skip
    return true
  else return false

def number : Reader Nat := do
  match ← token with
  | .number n => return n
  | t => throw (.numberExpected t)

def mark : Reader Char := do
  match ← token with
  | .mark c => return c
  | t => throw (.markExpected t)

def markOf (wanted : Char) : Reader Unit := do
  let found ← mark
  if found ≠ wanted then throw (.otherMark wanted found)

end Reader

open Reader

def firstBytes (n : Nat) : List Char → Result Error (List Char)
  | [] => .ok []
  | c :: rest =>
    if n = 0 then .ok []
    else if n < c.utf8Size then .aborted .splitCharacter
    else (firstBytes (n - c.utf8Size) rest).map (c :: ·)

def monthNamed? (word : List Char) : Result Error (Option Nat) :=
  (firstBytes 3 word).map monthOfLetters?

def weekdayNamed? (word : List Char) : Result Error (Option Nat) :=
  (firstBytes 3 word).map weekdayOfLetters?

def measureOfLetter? : Char → Option Measure
  | 's' => some (.seconds 1)
  | 'm' => some (.seconds 60)
  | 'h' => some (.seconds 3600)
  | 'd' => some (.days 1)
  | 'w' => some (.days 7)
  | 'y' => some (.months 12)
  | _ => none

def measureOfLetters? (letters : List Char) : Option Measure :=
  [("sec", Measure.seconds 1), ("min", .seconds 60), ("hou", .seconds 3600), ("day", .days 1),
    ("wee", .days 7), ("mon", .months 1), ("yea", .months 12)].findSome? fun (name, measure) =>
      if name.toList = letters then some measure else none

def measureNamed? (word : List Char) : Result Error (Option Measure) :=
  if byteLength word < 3 then
    (firstBytes 1 word).map fun letters => letters.head?.bind measureOfLetter?
  else (firstBytes 3 word).map measureOfLetters?

def shortcut? (t : Token) : Option Int :=
  [("now", 0), ("today", 0), ("yesterday", -1), ("tomorrow", 1)].findSome? fun (name, days) =>
    if t = .word name.toList then some days else none

def direction? (t : Token) : Option Direction :=
  if t = .word "next".toList then some .next
  else if t = .word "last".toList then some .last
  else none

def hourOfHalf (half : List Char) (hour : Nat) : Result Error Nat :=
  if half = "am".toList then .ok hour
  else if half = "pm".toList then .ok (hour + 12)
  else .error .halfOfDayExpected

/-- A day that starts with a name. After a month there may be a day, and after that a comma and
a year; another token than a day is passed over. -/
def readNamedDay (direction : Option Direction) (word : List Char) : Reader Day := do
  if let some day ← weekdayNamed? word then return .weekday day direction
  let some month ← monthNamed? word | throw .dayNameExpected
  match ← token with
  | .number day =>
    if ← takes ',' then return .absolute (← number) month day
    else return .monthDay month day direction
  | _ => return .monthDay month 1 direction

/-- An amount of some measure: backwards with a sign in front or `ago` behind. A number behind is
the hour of a clock time; other tokens but words are passed over. -/
def readCounted (negative : Bool) (n : Nat) (measure : Measure) : Reader (Day × Ahead) := do
  if negative then return (.counted (-n) measure, .nothing)
  match ← token with
  | .word w =>
    if w = "ago".toList then return (.counted (-n) measure, .nothing) else throw .agoExpected
  | .number hour => return (.counted n measure, .hour hour)
  | _ => return (.counted n measure, .nothing)

/-- What a number and the word after it say. The token after a month is taken, and is the year
if it is a number. -/
def readNumberWord (negative : Bool) (direction : Option Direction) (n : Nat)
    (word : List Char) : Reader (Option Day × Ahead) := do
  if let some month ← monthNamed? word then
    match ← token with
    | .number year => return (some (.absolute year month n), .nothing)
    | _ => return (some (.monthDay month n direction), .nothing)
  if let some measure ← measureNamed? word then
    let (day, ahead) ← readCounted negative n measure
    return (some day, ahead)
  if word = "am".toList ∨ word = "pm".toList then return (none, .exact (← hourOfHalf word n))
  throw .unitExpected

/-- Of a year, two digits stand for 1941 to 2040. -/
def fullYear (year : Nat) : Nat :=
  if year < 100 then if 40 < year then 1900 + year else 2000 + year else year

def readNumberedDay (negative : Bool) (direction : Option Direction) (n : Nat) :
    Reader (Option Day × Ahead) := do
  match ← token with
  | .stop => return (some (.absolute n 1 1), .nothing)
  | .word w => readNumberWord negative direction n (Text.lower w)
  | .mark '-' =>
    let month ← number
    markOf '-'
    return (some (.absolute n month (← number)), .nothing)
  | .mark '/' =>
    let day ← number
    if ← takes '/' then return (some (.absolute (fullYear (← number)) n day), .nothing)
    else return (some (.monthDay n day direction), .nothing)
  | .mark ':' => return (none, .colon n)
  | .mark '.' => return (none, .point n)
  | .mark c => throw (.unexpectedMark c)
  | t => throw (.unexpectedToken t)

def readDay : Reader (Option Day × Ahead) := do
  let first ← token
  if first = .stop then throw .noDate
  let negative := first = .mark '-'
  let start ← if negative then token else pure first
  if start = .stop then throw .nothingAfterSign
  if let some days := shortcut? start then
    return (some (.counted days (.days 1)), .nothing)
  let direction := direction? start
  let t ← if direction.isSome then token else pure start
  match t with
  | .stop => throw .nothingAfterDirection
  | .word w => return (some (← readNamedDay direction (Text.lower w)), .nothing)
  | .number n => readNumberedDay negative direction n
  | t => throw (.notExpected t)

def readOffset : Reader Int := do
  let n ← number
  if ← takes ':' then return 60 * ((← number) + 60 * n)
  else return 60 * (n % 100 + 60 * (n / 100))

def readZone (hour minute second : Nat) : Token → Reader Clock
  | .mark '+' => return ⟨hour, minute, second, ← readOffset⟩
  | .mark '-' => return ⟨hour, minute, second, -(← readOffset)⟩
  | .mark _ => throw .offsetSignExpected
  | .word w =>
    if w = ['Z'] then return ⟨hour, minute, second, 0⟩
    else return ⟨← hourOfHalf w hour, minute, second, 0⟩
  | _ => return ⟨hour, minute, second, 0⟩

/-- Whether a run can stand behind the point of a number: digits, or an exponent alone. -/
def isFraction : List Char → Bool
  | [] => false
  | c :: rest =>
    if c = 'e' ∨ c = 'E' then rest ≠ [] && rest.all Char.isDigit
    else c.isDigit && rest.all Char.isDigit

def checkFraction (fraction : List Char) : Result Error Unit :=
  if fraction = [] then .error .fractionExpected
  else if isFraction fraction then .ok ()
  else .aborted .malformedFraction

/-- Passes over a fraction of a second: a character, whichever it is, and the numerals after it. -/
def skipFraction : Reader Unit := do
  let (fraction, rest) := Token.runOf Text.isNumeric (← get)
  checkFraction fraction
  set rest

def readSeconds : Reader (Nat × Token) := do
  match ← token with
  | .mark ':' =>
    let second ← number
    return (second, ← token)
  | .mark _ => throw .colonExpected
  | t => return (0, t)

def readColonTime (hour : Nat) : Reader Clock := do
  let minute ← number
  let (second, t) ← readSeconds
  if t = .mark '.' then
    skipFraction
    readZone hour minute second (← token)
  else readZone hour minute second t

def readPointTime (hour : Nat) : Reader Clock := do
  let minute ← number
  match ← token with
  | .stop => return ⟨hour, minute, 0, 0⟩
  | .word w => return ⟨← hourOfHalf w hour, minute, 0, 0⟩
  | t => throw (.wordExpected t)

def readFreshTime : Reader (Option Clock) := do
  let _ ← takes 'T'
  match ← token with
  | .stop => return none
  | .number hour =>
    match ← token with
    | .mark ':' => return some (← readColonTime hour)
    | .mark '.' => return some (← readPointTime hour)
    | .mark c => throw (.unexpectedMark c)
    | .word w => return some ⟨← hourOfHalf w hour, 0, 0, 0⟩
    | t => throw (.unexpectedToken t)
  | t => throw (.numberExpected t)

def readTime : Ahead → Reader (Option Clock)
  | .nothing => readFreshTime
  | .exact hour => return some ⟨hour, 0, 0, 0⟩
  | .colon hour => return some (← readColonTime hour)
  | .point hour => return some (← readPointTime hour)
  | .hour hour => do
    match ← mark with
    | ':' => return some (← readColonTime hour)
    | '.' => return some (← readPointTime hour)
    | c => throw (.separatorExpected c)

def read : Reader (Option Day × Option Clock) := do
  let (day, ahead) ← readDay
  return (day, ← readTime ahead)

/-- The date that a phrase means when today is `today`. A clock time alone is meant today. -/
def date (today : Date) (text : List Char) : Result Error Date := do
  let ((day, clock), _) ← read text
  match day, clock with
  | some day, clock => day.resolve today clock
  | none, some clock => (clock.date? today).elim (.error .badTime) .ok
  | none, none => return today

end Forecast.Phrase
