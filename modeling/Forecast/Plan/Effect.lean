import Forecast.Script.Tree

namespace Forecast

def nan : Float := 0.0 / 0.0

def ArithOp.apply (op : ArithOp) (a b : Float) : Float :=
  match op with
  | add => a + b
  | sub => a - b
  | mul => a * b
  | div => a / b

/-- No comparison holds of what is not a number. -/
def CompareOp.apply (op : CompareOp) (a b : Float) : Bool :=
  match op with
  | equal => a == b
  | greater => b < a
  | less => a < b
  | greaterEqual => b ≤ a
  | lessEqual => a ≤ b

def AssignOp.apply (op : AssignOp) (current value : Float) : Float :=
  match op with
  | set => value
  | add => current + value
  | sub => current - value
  | mul => current * value
  | div => current / value

abbrev Values := List Float

def Values.read (values : Values) (slot : Nat) : Float := values.getD slot nan

inductive Expr where
  | constant (x : Float)
  | slot (i : Nat)
  | unknown
  | negate (e : Expr)
  | binary (op : ArithOp) (lhs rhs : Expr)

def Expr.eval (values : Values) : Expr → Float
  | constant x => x
  | slot i => values.read i
  | unknown => nan
  | negate e => -(e.eval values)
  | binary op lhs rhs => op.apply (lhs.eval values) (rhs.eval values)

inductive Test where
  | compare (op : CompareOp) (lhs rhs : Expr)
  | and (a b : Test)
  | or (a b : Test)

def Test.eval (values : Values) : Test → Bool
  | compare op lhs rhs => op.apply (lhs.eval values) (rhs.eval values)
  | and a b => a.eval values && b.eval values
  | or a b => a.eval values || b.eval values

inductive Effect where
  | skip
  | assign (slot : Nat) (op : AssignOp) (value : Expr)
  | seq (first second : Effect)
  | choose (test : Test) (yes no : Effect)

def Effect.run (values : Values) : Effect → Values
  | skip => values
  | assign slot op value => values.set slot (op.apply (values.read slot) (value.eval values))
  | seq first second => second.run (first.run values)
  | choose test yes no => if test.eval values then yes.run values else no.run values

end Forecast
