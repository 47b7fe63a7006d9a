namespace Forecast

structure Span where
  start : Nat
  stop : Nat
  deriving DecidableEq

def Span.to (s t : Span) : Span := ⟨s.start, t.stop⟩

def byteLength (text : List Char) : Nat := text.foldr (fun c n => c.utf8Size + n) 0

def splitBytes? : List Char → Nat → Option (List Char × List Char)
  | text, 0 => some ([], text)
  | [], _ + 1 => none
  | c :: rest, n + 1 =>
    if n + 1 < c.utf8Size then none
    else (splitBytes? rest (n + 1 - c.utf8Size)).map fun (before, after) => (c :: before, after)

def slice? (text : List Char) (start stop : Nat) : Option (List Char) := do
  let (_, rest) ← splitBytes? text start
  let (slice, _) ← splitBytes? rest (stop - start)
  return slice

def laterLineStarts (offset : Nat) : List Char → List Nat
  | [] => []
  | c :: rest =>
    let next := offset + c.utf8Size
    if c = '\n' then next :: laterLineStarts next rest else laterLineStarts next rest

def lineStarts (text : List Char) : List Nat := 0 :: laterLineStarts 0 text

structure Position where
  line : Nat
  column : Nat
  deriving DecidableEq

namespace Position

def first : Position := ⟨1, 1⟩

/-- The place of an offset: its line is the last one that starts no later, its column is after the
characters of that line before it. -/
def ofOffset (text : List Char) (offset : Nat) : Position :=
  let offset := min offset (byteLength text)
  let starts := lineStarts text
  let line := (starts.takeWhile (· ≤ offset)).length - 1
  let start := starts.getD line 0
  ⟨line + 1, (slice? text start offset).elim (offset - start) List.length + 1⟩

/-- The text from the start of a line on, with the offset of that start; lines count from zero
and each newline ends one. -/
def fromLine? : List Char → Nat → Option (Nat × List Char)
  | text, 0 => some (0, text)
  | [], _ + 1 => none
  | c :: rest, n + 1 =>
    (fromLine? rest (if c = '\n' then n else n + 1)).map fun (o, t) => (o + c.utf8Size, t)

def lineStart? (text : List Char) (line : Nat) : Option Nat := (fromLine? text line).map Prod.fst

def columnOffset? : List Char → Nat → Option Nat
  | _, 0 => some 0
  | [], _ + 1 => none
  | c :: rest, n + 1 =>
    if c = '\n' then none else (columnOffset? rest n).map (· + c.utf8Size)

/-- The byte offset of a place; none if the text has no such place. The place after the last
character of a line exists. -/
def offset? (text : List Char) : Position → Option Nat
  | ⟨line + 1, column + 1⟩ => do
    let (start, rest) ← fromLine? text line
    let inLine ← columnOffset? rest column
    return start + inLine
  | _ => none

def text (p : Position) : String := s!"{p.line}:{p.column}"

def label (p : Position) (message : String) : String := s!"{p.text} {message}"

end Position

end Forecast
