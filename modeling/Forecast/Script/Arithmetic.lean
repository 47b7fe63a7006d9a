import Forecast.Script.Step

namespace Forecast.Arithmetic

abbrev Left := Option (NumberExpr × ArithOp)

def Left.combine (left : Left) (right : NumberExpr) : NumberExpr :=
  match left with
  | none => right
  | some (lhs, op) => .binary op lhs right

/-- What waits for an operand: a sum, a product inside that sum, and minus signs. -/
structure Pending where
  sum : Left
  product : Left
  negations : Nat

def Pending.none : Pending := ⟨.none, .none, 0⟩

def negated : Nat → NumberExpr → NumberExpr
  | 0, e => e
  | n + 1, e => .negate (negated n e)

/-- An operand is expected, or a product has been read that may go on. -/
inductive Reading where
  | operand (inner : Pending) (outer : List Pending)
  | product (e : NumberExpr) (sum : Left) (outer : List Pending)

def start : Reading := .operand .none []

def Pending.fill (p : Pending) (e : NumberExpr) (outer : List Pending) : Reading :=
  .product (p.product.combine (negated p.negations e)) p.sum outer

def productOp? : Token.Kind → Option ArithOp
  | .symbol .star => some .mul
  | .symbol .slash => some .div
  | _ => none

def sumOp? : Token.Kind → Option ArithOp
  | .symbol .plus => some .add
  | .symbol .minus => some .sub
  | _ => none

def operandKinds : List Token.Kind :=
  [.name, .number, .symbol .minus, .symbol .openParen]

def operandStep (inner : Pending) (outer : List Pending) : Option Token → Step Reading NumberExpr
  | none => .wrong (.expected operandKinds)
  | some t =>
    match t.kind with
    | .name => .more (inner.fill (.reference t.ident) outer)
    | .number =>
      match Decimal.ofText? t.text.toList with
      | some d => .more (inner.fill (.literal d t.span) outer)
      | none => .wrong .number
    | .symbol .minus => .more (.operand { inner with negations := inner.negations + 1 } outer)
    | .symbol .openParen => .more (.operand .none (inner :: outer))
    | _ => .wrong (.expected operandKinds)

/-- After a whole sum: inside parentheses they must be closed, outside of them it ends here. -/
def sumStep (e : NumberExpr) (outer : List Pending) (t : Option Token) : Step Reading NumberExpr :=
  match outer with
  | [] => .done e
  | p :: outer => .take (.symbol .closeParen) t fun _ => p.fill e outer

def productStep (e : NumberExpr) (sum : Left) (outer : List Pending) (t : Option Token) :
    Step Reading NumberExpr :=
  match t.bind (productOp? ·.kind), t.bind (sumOp? ·.kind) with
  | some op, _ => .more (.operand ⟨sum, some (e, op), 0⟩ outer)
  | none, some op => .more (.operand ⟨some (sum.combine e, op), none, 0⟩ outer)
  | none, none => sumStep (sum.combine e) outer t

def Reading.step : Reading → Option Token → Step Reading NumberExpr
  | .operand inner outer, t => operandStep inner outer t
  | .product e sum outer, t => productStep e sum outer t

end Forecast.Arithmetic
