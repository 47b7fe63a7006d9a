import Forecast.Script.Clause
import Forecast.Token.Piece

namespace Forecast

structure Blame where
  token : Option Token
  cause : Cause

inductive Event where
  | declaration (d : Declaration)
  | options (properties : List Property)
  | fault (blame : Blame)

/-- Where the reading stands: between clauses, in a declaration, passing over the rest of a wrong
one; in the options, passing over the rest of wrong ones, after them, or past a report of what
follows them. -/
inductive Mode where
  | between
  | clause (c : Clause)
  | skipping
  | options (reading : PropertyList.Reading)
  | skippingOptions
  | closed
  | ended

namespace Mode

def startsClause (t : Token) : Bool :=
  t.kind = .keyword .varWord || t.kind = .keyword .dateWord || t.kind = .keyword .atWord ||
    t.kind = .keyword .optionsWord

def extraneous (t : Token) : Event := .fault ⟨some t, .extraneous⟩

def betweenStep (t : Token) : List Event × Mode :=
  match t.kind with
  | .symbol .semicolon => ([], between)
  | .keyword .varWord => ([], clause .varName)
  | .keyword .dateWord => ([], clause .dateName)
  | .keyword .atWord => ([], clause .ruleWhen)
  | .keyword .optionsWord => ([], options .opening)
  | _ => ([extraneous t], skipping)

def skippingStep (t : Token) : List Event × Mode :=
  if startsClause t then betweenStep t else ([], skipping)

def skippingOptionsStep (t : Token) : List Event × Mode :=
  if startsClause t then ([extraneous t], ended) else ([], skippingOptions)

def clauseStep (t : Token) : Clause.Outcome → List Event × Mode
  | .more c => ([], clause c)
  | .last d => ([.declaration d], between)
  | .before d => (.declaration d :: (betweenStep t).1, (betweenStep t).2)
  | .wrong cause => (.fault ⟨some t, cause⟩ :: (skippingStep t).1, (skippingStep t).2)

def optionsStep (t : Token) : Step PropertyList.Reading (List Property) → List Event × Mode
  | .more r => ([], options r)
  | .done properties => ([.options properties], closed)
  | .wrong cause =>
    (.fault ⟨some t, cause⟩ :: (skippingOptionsStep t).1, (skippingOptionsStep t).2)

def closedStep (t : Token) : List Event × Mode :=
  if t.kind = .symbol .semicolon then ([], closed) else ([extraneous t], ended)

def step (t : Token) : Mode → List Event × Mode
  | between => betweenStep t
  | clause c => clauseStep t (c.step (some t))
  | skipping => skippingStep t
  | options r => optionsStep t (r.step (some t))
  | skippingOptions => skippingOptionsStep t
  | closed => closedStep t
  | ended => ([], ended)

def finish : Mode → List Event
  | clause c =>
    match c.step none with
    | .before d | .last d => [.declaration d]
    | .wrong cause => [.fault ⟨none, cause⟩]
    | .more _ => []
  | options r =>
    match r.step none with
    | .wrong cause => [.fault ⟨none, cause⟩]
    | .done properties => [.options properties]
    | .more _ => []
  | _ => []

def read (mode : Mode) : List Token → List Event
  | [] => mode.finish
  | t :: ts => (mode.step t).1 ++ (mode.step t).2.read ts

end Mode

namespace Event

def declaration? : Event → Option Declaration
  | declaration d => some d
  | _ => none

def options? : Event → Option (List Property)
  | options properties => some properties
  | _ => none

def blame? : Event → Option Blame
  | fault b => some b
  | _ => none

end Event

namespace Script

def ofEvents (events : List Event) : Script :=
  ⟨events.filterMap Event.declaration?, events.findSome? Event.options?⟩

/-- The script that a list of tokens makes, as far as it is correct, and the wrong tokens. -/
def ofTokens (tokens : List Token) : Script × List Blame :=
  let events := Mode.between.read tokens
  (ofEvents events, events.filterMap Event.blame?)

end Script

end Forecast
