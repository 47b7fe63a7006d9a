import Forecast.Calendar.Pattern
import Forecast.Script.Step
import Forecast.Settings.Error

namespace Forecast

inductive Problem where
  | unrecognized (text : String)
  | mismatched (found : Option String) (expected : List Token.Kind)
  | extraneous (found : String)
  | datePart (text : String)
  | number (text : String)
  | varExists (name : String)
  | varNotFound (name : String)
  | dateExists (name : String)
  | dateNotFound (name : String)
  | pattern (e : DatePattern.Error)
  | setting (e : Settings.Error)
  deriving DecidableEq

namespace Problem

def expectedText : List Token.Kind → String
  | [kind] => kind.display
  | kinds => "\x7b" ++ ", ".intercalate (kinds.map Token.Kind.display) ++ "\x7d"

def endText : String := "<EOF>"

def message : Problem → String
  | unrecognized text => s!"token recognition error at: '{text}'"
  | mismatched found expected =>
    s!"mismatched input '{found.getD endText}' expecting {expectedText expected}"
  | extraneous found => s!"extraneous input '{found}' expecting {endText}"
  | datePart text => s!"invalid date part '{text}', expected an integer or '*'"
  | number text => s!"invalid number '{text}'"
  | varExists name => s!"var `{name}` already exists"
  | varNotFound name => s!"var `{name}` not found"
  | dateExists name => s!"date `{name}` already exists"
  | dateNotFound name => s!"date `{name}` not found"
  | pattern e => e.message
  | setting e => e.message

def abort? : Problem → Option Abort
  | setting e => e.abort?
  | _ => none

end Problem

structure Fault where
  span : Span
  problem : Problem
  deriving DecidableEq

structure Diagnostic where
  position : Position
  problem : Problem
  deriving DecidableEq

namespace Diagnostic

def ofFault (source : List Char) (f : Fault) : Diagnostic :=
  ⟨Position.ofOffset source f.span.start, f.problem⟩

def message (d : Diagnostic) : String := d.problem.message

def text (d : Diagnostic) : String := d.position.label d.message

end Diagnostic

end Forecast
