import Forecast.Script.Arithmetic
import Forecast.Script.PatternLiteral
import Forecast.Script.PropertyList

namespace Forecast

mutual

inductive ActionPlace where
  | rule (when : When)
  | block (place : BlockPlace) (done : Block)

inductive BlockPlace where
  | action (place : ActionPlace)
  | yes (place : ChoicePlace) (test : Condition)
  | no (place : ChoicePlace) (test : Condition) (yes : Block)

inductive ChoicePlace where
  | action (place : ActionPlace)
  | chain (place : ChoicePlace) (test : Condition) (yes : Block)

end

/-- What comes after a finished action: nothing, or more of the block around it. -/
inductive Resumed where
  | finished (d : Declaration)
  | inside (place : BlockPlace) (done : Block)

def ActionPlace.plug (a : Action) : ActionPlace → Resumed
  | .rule when => .finished (.rule when a)
  | .block place done => .inside place (done.snoc a)

def ChoicePlace.plug (test : Condition) (yes : Block) (no : Otherwise) : ChoicePlace → Resumed
  | .action place => place.plug (.choose test yes no)
  | .chain place test' yes' => place.plug test' yes' (.chain test yes no)

structure OpenCondition where
  alternatives : Option Condition
  conjuncts : Option Conjunction

namespace OpenCondition

def start : OpenCondition := ⟨none, none⟩

def conjunction (o : OpenCondition) (c : Comparison) : Conjunction :=
  match o.conjuncts with
  | none => .one c
  | some earlier => .and earlier c

def condition (o : OpenCondition) (c : Comparison) : Condition :=
  match o.alternatives with
  | none => .one (o.conjunction c)
  | some earlier => .or earlier (o.conjunction c)

end OpenCondition

inductive Clause where
  | varName
  | varAssign (name : Ident)
  | initial (name : Ident) (reading : Arithmetic.Reading)
  | varProperties (name : Ident) (initial : NumberExpr) (reading : PropertyList.Reading)
  | dateName
  | dateAssign (name : Ident)
  | datePattern (name : Ident) (reading : PatternLiteral.Reading)
  | ruleWhen
  | rulePattern (reading : PatternLiteral.Reading)
  | ruleComma (when : When)
  | action (place : ActionPlace)
  | inside (place : BlockPlace) (done : Block)
  | operator (place : ActionPlace) (target : Ident)
  | value (place : ActionPlace) (target : Ident) (op : AssignOp) (reading : Arithmetic.Reading)
  | openTest (place : ChoicePlace)
  | compareLeft (place : ChoicePlace) (before : OpenCondition) (reading : Arithmetic.Reading)
  | compareRight (place : ChoicePlace) (before : OpenCondition) (lhs : NumberExpr)
      (op : CompareOp) (reading : Arithmetic.Reading)
  | openYes (place : ChoicePlace) (test : Condition)
  | afterYes (place : ChoicePlace) (test : Condition) (yes : Block)
  | afterElse (place : ChoicePlace) (test : Condition) (yes : Block)

namespace Clause

def assignOp? : Token.Kind → Option AssignOp
  | .symbol .assign => some .set
  | .symbol .plusAssign => some .add
  | .symbol .minusAssign => some .sub
  | .symbol .starAssign => some .mul
  | .symbol .slashAssign => some .div
  | _ => none

def compareOp? : Token.Kind → Option CompareOp
  | .symbol .equal => some .equal
  | .symbol .greater => some .greater
  | .symbol .less => some .less
  | .symbol .greaterEqual => some .greaterEqual
  | .symbol .lessEqual => some .lessEqual
  | _ => none

def assignKinds : List Token.Kind :=
  [.symbol .assign, .symbol .plusAssign, .symbol .minusAssign, .symbol .starAssign,
    .symbol .slashAssign]

def compareKinds : List Token.Kind :=
  [.symbol .equal, .symbol .greater, .symbol .less, .symbol .greaterEqual, .symbol .lessEqual,
    .symbol .plus, .symbol .minus, .symbol .star, .symbol .slash]

def actionKinds : List Token.Kind := [.keyword .ifWord, .name, .symbol .openBrace]

def insideKinds : List Token.Kind := actionKinds ++ [.symbol .closeBrace]

def elseKinds : List Token.Kind := [.keyword .ifWord, .symbol .openBrace]

/-- The outcome of a step: a declaration is complete with the token or before it. -/
inductive Outcome where
  | more (c : Clause)
  | last (d : Declaration)
  | before (d : Declaration)
  | wrong (cause : Cause)

def actionStep (place : ActionPlace) : Option Token → Outcome
  | none => .wrong (.expected actionKinds)
  | some t =>
    match t.kind with
    | .name => .more (.operator place t.ident)
    | .keyword .ifWord => .more (.openTest (.action place))
    | .symbol .openBrace => .more (.inside (.action place) .nil)
    | _ => .wrong (.expected actionKinds)

def afterAction : Resumed → Outcome
  | .finished d => .last d
  | .inside place done => .more (.inside place done)

/-- Puts a closed block in its place. A conditional may still go on with `else`. -/
def close (body : Block) : BlockPlace → Outcome
  | .action place => afterAction (place.plug (.block body))
  | .yes place test => .more (.afterYes place test body)
  | .no place test yes => afterAction (place.plug test yes (.block body))

def insideStep (place : BlockPlace) (done : Block) : Option Token → Outcome
  | none => .wrong (.expected insideKinds)
  | some t =>
    match t.kind with
    | .symbol .semicolon => .more (.inside place done)
    | .symbol .closeBrace => close done place
    | _ => actionStep (.block place done) (some t)

def besideAction (t : Option Token) : Resumed → Outcome
  | .finished d => .before d
  | .inside place done => insideStep place done t

def take (kind : Token.Kind) (t : Option Token) (next : Token → Clause) : Outcome :=
  match t with
  | some t => if t.kind = kind then .more (next t) else .wrong (.expected [kind])
  | none => .wrong (.expected [kind])

def initialStep (name : Ident) (t : Option Token) : Step Arithmetic.Reading NumberExpr → Outcome
  | .more r => .more (.initial name r)
  | .done e =>
    if t.any (·.kind = .symbol .openBrace) then .more (.varProperties name e (.entry []))
    else .before (.var name e none)
  | .wrong c => .wrong c

def varPropertiesStep (name : Ident) (initial : NumberExpr) :
    Step PropertyList.Reading (List Property) → Outcome
  | .more r => .more (.varProperties name initial r)
  | .done properties => .last (.var name initial (some properties))
  | .wrong c => .wrong c

def datePatternStep (name : Ident) : Step PatternLiteral.Reading PatternLiteral → Outcome
  | .more r => .more (.datePattern name r)
  | .done p => .last (.date name p)
  | .wrong c => .wrong c

def rulePatternStep : Step PatternLiteral.Reading PatternLiteral → Outcome
  | .more r => .more (.rulePattern r)
  | .done p => .more (.ruleComma (.pattern p))
  | .wrong c => .wrong c

def ruleWhenStep (t : Option Token) : Outcome :=
  match t with
  | some ⟨.name, text, span⟩ => .more (.ruleComma (.named ⟨text, span⟩))
  | _ => rulePatternStep (PatternLiteral.start.step t)

def operatorStep (place : ActionPlace) (target : Ident) (t : Option Token) : Outcome :=
  match t.bind (assignOp? ·.kind) with
  | some op => .more (.value place target op Arithmetic.start)
  | none => .wrong (.expected assignKinds)

def valueStep (place : ActionPlace) (target : Ident) (op : AssignOp) (t : Option Token) :
    Step Arithmetic.Reading NumberExpr → Outcome
  | .more r => .more (.value place target op r)
  | .done e => besideAction t (place.plug (.assign target op e))
  | .wrong c => .wrong c

def compareLeftStep (place : ChoicePlace) (before : OpenCondition) (t : Option Token) :
    Step Arithmetic.Reading NumberExpr → Outcome
  | .more r => .more (.compareLeft place before r)
  | .done e =>
    match t.bind (compareOp? ·.kind) with
    | some op => .more (.compareRight place before e op Arithmetic.start)
    | none => .wrong (.expected compareKinds)
  | .wrong c => .wrong c

def comparedStep (place : ChoicePlace) (before : OpenCondition) (c : Comparison)
    (t : Option Token) : Outcome :=
  match t.map Token.kind with
  | some (.symbol .andAnd) =>
    .more (.compareLeft place ⟨before.alternatives, some (before.conjunction c)⟩ Arithmetic.start)
  | some (.symbol .orOr) =>
    .more (.compareLeft place ⟨some (before.condition c), none⟩ Arithmetic.start)
  | some (.symbol .closeParen) => .more (.openYes place (before.condition c))
  | _ => .wrong (.expected [.symbol .closeParen])

def compareRightStep (place : ChoicePlace) (before : OpenCondition) (lhs : NumberExpr)
    (op : CompareOp) (t : Option Token) : Step Arithmetic.Reading NumberExpr → Outcome
  | .more r => .more (.compareRight place before lhs op r)
  | .done e => comparedStep place before ⟨op, lhs, e⟩ t
  | .wrong c => .wrong c

def afterYesStep (place : ChoicePlace) (test : Condition) (yes : Block) (t : Option Token) :
    Outcome :=
  if t.any (·.kind = .keyword .elseWord) then .more (.afterElse place test yes)
  else besideAction t (place.plug test yes .nothing)

def afterElseStep (place : ChoicePlace) (test : Condition) (yes : Block) (t : Option Token) :
    Outcome :=
  match t.map Token.kind with
  | some (.keyword .ifWord) => .more (.openTest (.chain place test yes))
  | some (.symbol .openBrace) => .more (.inside (.no place test yes) .nil)
  | _ => .wrong (.expected elseKinds)

def step (c : Clause) (t : Option Token) : Outcome :=
  match c with
  | varName => take .name t fun t => varAssign t.ident
  | varAssign name => take (.symbol .assign) t fun _ => initial name Arithmetic.start
  | initial name r => initialStep name t (r.step t)
  | varProperties name e r => varPropertiesStep name e (r.step t)
  | dateName => take .name t fun t => dateAssign t.ident
  | dateAssign name => take (.symbol .assign) t fun _ => datePattern name PatternLiteral.start
  | datePattern name r => datePatternStep name (r.step t)
  | ruleWhen => ruleWhenStep t
  | rulePattern r => rulePatternStep (r.step t)
  | ruleComma when => take (.symbol .comma) t fun _ => action (.rule when)
  | action place => actionStep place t
  | inside place done => insideStep place done t
  | operator place target => operatorStep place target t
  | value place target op r => valueStep place target op t (r.step t)
  | openTest place =>
    take (.symbol .openParen) t fun _ => compareLeft place OpenCondition.start Arithmetic.start
  | compareLeft place before r => compareLeftStep place before t (r.step t)
  | compareRight place before lhs op r => compareRightStep place before lhs op t (r.step t)
  | openYes place test => take (.symbol .openBrace) t fun _ => inside (.yes place test) .nil
  | afterYes place test yes => afterYesStep place test yes t
  | afterElse place test yes => afterElseStep place test yes t

end Clause

end Forecast
