import Forecast.Decimal
import Forecast.Source.Position

namespace Forecast

structure Ident where
  name : String
  span : Span
  deriving DecidableEq

inductive ArithOp where
  | add | sub | mul | div
  deriving DecidableEq

inductive CompareOp where
  | equal | greater | less | greaterEqual | lessEqual
  deriving DecidableEq

inductive AssignOp where
  | set | add | sub | mul | div
  deriving DecidableEq

inductive NumberExpr where
  | literal (value : Decimal) (span : Span)
  | reference (name : Ident)
  | negate (e : NumberExpr)
  | binary (op : ArithOp) (lhs rhs : NumberExpr)
  deriving DecidableEq

structure Comparison where
  op : CompareOp
  lhs : NumberExpr
  rhs : NumberExpr
  deriving DecidableEq

inductive Conjunction where
  | one (c : Comparison)
  | and (earlier : Conjunction) (c : Comparison)
  deriving DecidableEq

inductive Condition where
  | one (c : Conjunction)
  | or (earlier : Condition) (c : Conjunction)
  deriving DecidableEq

mutual

inductive Action where
  | assign (target : Ident) (op : AssignOp) (value : NumberExpr)
  | choose (test : Condition) (yes : Block) (no : Otherwise)
  | block (body : Block)

inductive Otherwise where
  | nothing
  | block (body : Block)
  | chain (test : Condition) (yes : Block) (no : Otherwise)

inductive Block where
  | nil
  | cons (first : Action) (rest : Block)

end

def Block.snoc : Block → Action → Block
  | .nil, a => .cons a .nil
  | .cons first rest, a => .cons first (rest.snoc a)

inductive PropertyValue where
  | string (text : String) (span : Span)
  | number (negative : Bool) (magnitude : Decimal) (span : Span)
  | name (ident : Ident)
  deriving DecidableEq

def PropertyValue.span : PropertyValue → Span
  | .string _ span => span
  | .number _ _ span => span
  | .name ident => ident.span

structure Property where
  key : Ident
  value : PropertyValue
  deriving DecidableEq

/-- One part of a date pattern; without a value it is the wildcard. -/
structure PartLiteral where
  value : Option Int
  span : Span
  deriving DecidableEq

structure PatternLiteral where
  year : PartLiteral
  month : PartLiteral
  day : PartLiteral
  deriving DecidableEq

inductive When where
  | pattern (literal : PatternLiteral)
  | named (ident : Ident)
  deriving DecidableEq

inductive Declaration where
  | var (name : Ident) (initial : NumberExpr) (properties : Option (List Property))
  | date (name : Ident) (pattern : PatternLiteral)
  | rule (when : When) (action : Action)

structure Script where
  declarations : List Declaration
  options : Option (List Property)

end Forecast
