import Forecast.Checked
import Forecast.Plan.Effect

namespace Forecast

def Ident.resolve (scope : List String) (ident : Ident) : Checked (Option Nat) :=
  match scope.idxOf? ident.name with
  | some slot => pure (some slot)
  | none => do
    Checked.report ident.span (.varNotFound ident.name)
    return none

def NumberExpr.resolve (scope : List String) : NumberExpr → Checked Expr
  | .literal value _ => pure (.constant value.toFloat)
  | .reference ident => do return (← ident.resolve scope).elim .unknown .slot
  | .negate e => do return .negate (← e.resolve scope)
  | .binary op lhs rhs => do return .binary op (← lhs.resolve scope) (← rhs.resolve scope)

def Comparison.resolve (scope : List String) (c : Comparison) : Checked Test := do
  return .compare c.op (← c.lhs.resolve scope) (← c.rhs.resolve scope)

def Conjunction.resolve (scope : List String) : Conjunction → Checked Test
  | .one c => c.resolve scope
  | .and earlier c => do return .and (← earlier.resolve scope) (← c.resolve scope)

def Condition.resolve (scope : List String) : Condition → Checked Test
  | .one c => c.resolve scope
  | .or earlier c => do return .or (← earlier.resolve scope) (← c.resolve scope)

/-- The target of an assignment is looked up before the names in its value. -/
def resolveAssign (scope : List String) (target : Ident) (op : AssignOp) (value : NumberExpr) :
    Checked Effect := do
  let slot ← target.resolve scope
  let value ← value.resolve scope
  return slot.elim .skip fun slot => .assign slot op value

mutual

def Action.resolve (scope : List String) : Action → Checked Effect
  | .assign target op value => resolveAssign scope target op value
  | .choose test yes no => do
    return .choose (← test.resolve scope) (← yes.resolve scope) (← no.resolve scope)
  | .block body => body.resolve scope

def Otherwise.resolve (scope : List String) : Otherwise → Checked Effect
  | .nothing => pure .skip
  | .block body => body.resolve scope
  | .chain test yes no => do
    return .choose (← test.resolve scope) (← yes.resolve scope) (← no.resolve scope)

def Block.resolve (scope : List String) : Block → Checked Effect
  | .nil => pure .skip
  | .cons first rest => do return .seq (← first.resolve scope) (← rest.resolve scope)

end

end Forecast
