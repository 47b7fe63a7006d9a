import Mathlib.Logic.Function.Basic
import Forecast.Plan.OfScript

namespace Forecast

abbrev Env := String → Float

def NumberExpr.meaning (known : List String) (env : Env) : NumberExpr → Float
  | .literal value _ => value.toFloat
  | .reference x => if x.name ∈ known then env x.name else nan
  | .negate e => -(e.meaning known env)
  | .binary op lhs rhs => op.apply (lhs.meaning known env) (rhs.meaning known env)

def Comparison.holds (known : List String) (env : Env) (c : Comparison) : Bool :=
  c.op.apply (c.lhs.meaning known env) (c.rhs.meaning known env)

def Conjunction.holds (known : List String) (env : Env) : Conjunction → Bool
  | .one c => c.holds known env
  | .and earlier c => earlier.holds known env && c.holds known env

def Condition.holds (known : List String) (env : Env) : Condition → Bool
  | .one c => c.holds known env
  | .or earlier c => earlier.holds known env || c.holds known env

mutual

/-- The environment that an action leaves. Assigning to an unknown name does nothing. -/
def Action.act (known : List String) (env : Env) : Action → Env
  | .assign x op e =>
    if x.name ∈ known then
      Function.update env x.name (op.apply (env x.name) (e.meaning known env))
    else env
  | .choose test yes no => if test.holds known env then yes.act known env else no.act known env
  | .block body => body.act known env

def Otherwise.act (known : List String) (env : Env) : Otherwise → Env
  | .nothing => env
  | .block body => body.act known env
  | .chain test yes no => if test.holds known env then yes.act known env else no.act known env

def Block.act (known : List String) (env : Env) : Block → Env
  | .nil => env
  | .cons first rest => rest.act known (first.act known env)

end

def Declaration.learn (known : List String) : Declaration → List String
  | .var x _ _ => if x.name ∈ known then known else known ++ [x.name]
  | .date _ _ => known
  | .rule _ _ => known

/-- The first declaration of a variable gives it its value; later ones change nothing. -/
def Declaration.introduce (known : List String) (env : Env) : Declaration → Env
  | .var x e _ => if x.name ∈ known then env else Function.update env x.name (e.meaning known env)
  | .date _ _ => env
  | .rule _ _ => env

def PatternLiteral.holds (d : Date) (p : PatternLiteral) : Bool :=
  match p.pattern with
  | .ok pattern => pattern.covers d
  | .error _ => false

namespace Script

def vars (s : Script) : List String := s.declarations.foldl Declaration.learn []

def initialFrom (known : List String) (env : Env) : List Declaration → Env
  | [] => env
  | d :: rest => initialFrom (d.learn known) (d.introduce known env) rest

def initialEnv (s : Script) : Env := initialFrom [] (fun _ => nan) s.declarations

def dateNamed? (s : Script) (name : String) : Option PatternLiteral :=
  s.declarations.findSome? fun
    | .date x p => if x.name = name then some p else none
    | _ => none

def whenHolds (s : Script) (d : Date) : When → Bool
  | .pattern p => p.holds d
  | .named x => (s.dateNamed? x.name).any (·.holds d)

def dayFrom (s : Script) (d : Date) (known : List String) (env : Env) : List Declaration → Env
  | [] => env
  | .var x e ps :: rest => s.dayFrom d (Declaration.learn known (.var x e ps)) env rest
  | .date _ _ :: rest => s.dayFrom d known env rest
  | .rule when a :: rest =>
    s.dayFrom d known (if s.whenHolds d when then a.act known env else env) rest

def day (s : Script) (d : Date) (env : Env) : Env := s.dayFrom d [] env s.declarations

/-- The environment when so many days have passed, the first of them `start`. Past the end of the
calendar nothing happens any more. -/
def envAfter (s : Script) (start : Date) : Nat → Env
  | 0 => s.initialEnv
  | n + 1 => (start.addDays? n).elim (s.envAfter start n) fun d => s.day d (s.envAfter start n)

end Script

end Forecast
