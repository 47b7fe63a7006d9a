import Forecast.Proofs.Script.Rendering
import Forecast.Script.Reader

namespace Forecast

namespace Token

def unplaced (t : Token) : Token := ⟨t.kind, t.text, ⟨0, 0⟩⟩

@[simp] theorem kind_unplaced (t : Token) : t.unplaced.kind = t.kind := rfl

@[simp] theorem text_unplaced (t : Token) : t.unplaced.text = t.text := rfl

theorem bind_kind_unplaced {β : Type} (f : Kind → Option β) (t : Option Token) :
    (t.map unplaced).bind (f ·.kind) = t.bind (f ·.kind) := by
  cases t <;> rfl

theorem any_kind_unplaced (f : Kind → Bool) (t : Option Token) :
    (t.map unplaced).any (f ·.kind) = t.any (f ·.kind) := by
  cases t <;> rfl

theorem map_kind_unplaced (t : Option Token) : (t.map unplaced).map kind = t.map kind := by
  cases t <;> rfl

end Token

namespace Step

variable {σ α : Type}

def map (f : σ → σ) (g : α → α) : Step σ α → Step σ α
  | more state => more (f state)
  | done result => done (g result)
  | wrong cause => wrong cause

theorem take_unplaced (kind : Token.Kind) (t : Option Token) {f f' : Token → σ} {g : σ → σ}
    {h : α → α} (hf : ∀ t, f' t.unplaced = g (f t)) :
    (take kind (t.map Token.unplaced) f' : Step σ α) = (take kind t f).map g h := by
  cases t with
  | none => rfl
  | some t =>
      rw [Option.map_some, take, take, Token.kind_unplaced, hf]
      split_ifs <;> rfl

end Step

namespace Arithmetic

def Left.unplaced (left : Left) : Left := Option.map (fun (e, op) => (e.unplaced, op)) left

def Pending.unplaced (p : Pending) : Pending := ⟨p.sum.unplaced, p.product.unplaced, p.negations⟩

def Reading.unplaced : Reading → Reading
  | .operand inner outer => .operand inner.unplaced (outer.map Pending.unplaced)
  | .product e sum outer => .product e.unplaced sum.unplaced (outer.map Pending.unplaced)

theorem unplaced_combine (left : Left) (e : NumberExpr) :
    (left.combine e).unplaced = left.unplaced.combine e.unplaced := by
  cases left <;> rfl

theorem unplaced_negated (n : Nat) (e : NumberExpr) :
    (negated n e).unplaced = negated n e.unplaced := by
  induction n with
  | zero => rfl
  | succ n ih => rw [negated, negated, NumberExpr.unplaced, ih]

theorem unplaced_fill (p : Pending) (e : NumberExpr) (outer : List Pending) :
    (p.fill e outer).unplaced = p.unplaced.fill e.unplaced (outer.map Pending.unplaced) := by
  rw [Pending.fill, Pending.fill, Reading.unplaced, unplaced_combine, unplaced_negated]
  rfl

theorem operandStep_unplaced (inner : Pending) (outer : List Pending) (t : Option Token) :
    operandStep inner.unplaced (outer.map Pending.unplaced) (t.map Token.unplaced) =
      (operandStep inner outer t).map Reading.unplaced NumberExpr.unplaced := by
  cases t with
  | none => rfl
  | some t =>
      simp only [Option.map_some, operandStep, Token.kind_unplaced, Token.text_unplaced]
      split
      · exact congrArg Step.more (unplaced_fill inner (.reference t.ident) outer).symm
      · cases Decimal.ofText? t.text.toList with
        | none => rfl
        | some d => exact congrArg Step.more (unplaced_fill inner (.literal d t.span) outer).symm
      · rfl
      · rfl
      · rfl

theorem sumStep_unplaced (e : NumberExpr) (outer : List Pending) (t : Option Token) :
    sumStep e.unplaced (outer.map Pending.unplaced) (t.map Token.unplaced) =
      (sumStep e outer t).map Reading.unplaced NumberExpr.unplaced := by
  cases outer with
  | nil => rfl
  | cons p outer => exact Step.take_unplaced _ t fun _ => (unplaced_fill p e outer).symm

theorem productStep_unplaced (e : NumberExpr) (sum : Left) (outer : List Pending)
    (t : Option Token) :
    productStep e.unplaced sum.unplaced (outer.map Pending.unplaced) (t.map Token.unplaced) =
      (productStep e sum outer t).map Reading.unplaced NumberExpr.unplaced := by
  rw [productStep, productStep, Token.bind_kind_unplaced, Token.bind_kind_unplaced,
    ← unplaced_combine, sumStep_unplaced]
  split <;> rfl

theorem Reading.step_unplaced (r : Reading) (t : Option Token) :
    r.unplaced.step (t.map Token.unplaced) =
      (r.step t).map Reading.unplaced NumberExpr.unplaced := by
  cases r with
  | operand inner outer => exact operandStep_unplaced inner outer t
  | product e sum outer => exact productStep_unplaced e sum outer t

end Arithmetic

namespace PatternLiteral

def Leading.unplaced : Leading → Leading
  | .nothing => .nothing
  | .year y => .year y.unplaced
  | .month y m => .month y.unplaced m.unplaced

def Reading.unplaced : Reading → Reading
  | .part leading minus => .part leading.unplaced (minus.map fun _ => ⟨0, 0⟩)
  | .separator year month => .separator year.unplaced (month.map PartLiteral.unplaced)

theorem complete_unplaced (p : PartLiteral) (leading : Leading) :
    leading.unplaced.complete p.unplaced =
      (leading.complete p).map Reading.unplaced PatternLiteral.unplaced := by
  cases leading <;> rfl

theorem numberStep_unplaced (leading : Leading) (minus : Option Span) (t : Token) :
    numberStep leading.unplaced (minus.map fun _ => ⟨0, 0⟩) t.unplaced =
      (numberStep leading minus t).map Reading.unplaced PatternLiteral.unplaced := by
  unfold numberStep
  rw [Token.text_unplaced]
  cases magnitude? t.text.toList with
  | none => cases minus <;> rfl
  | some n =>
      cases minus with
      | none => exact complete_unplaced ⟨some n, t.span⟩ leading
      | some minus => exact complete_unplaced ⟨some (-n), minus.to t.span⟩ leading

theorem partStep_unplaced (leading : Leading) (t : Option Token) :
    partStep leading.unplaced (t.map Token.unplaced) =
      (partStep leading t).map Reading.unplaced PatternLiteral.unplaced := by
  cases t with
  | none => rfl
  | some t =>
      simp only [Option.map_some, partStep, Token.kind_unplaced]
      split
      · exact complete_unplaced ⟨none, t.span⟩ leading
      · rfl
      · exact numberStep_unplaced leading none t
      · rfl

theorem magnitudeStep_unplaced (leading : Leading) (minus : Span) (t : Option Token) :
    magnitudeStep leading.unplaced ⟨0, 0⟩ (t.map Token.unplaced) =
      (magnitudeStep leading minus t).map Reading.unplaced PatternLiteral.unplaced := by
  cases t with
  | none => rfl
  | some t =>
      rw [Option.map_some, magnitudeStep, magnitudeStep, Token.kind_unplaced]
      split_ifs
      · exact numberStep_unplaced leading (some minus) t
      · rfl

theorem separatorStep_unplaced (year : PartLiteral) (month : Option PartLiteral)
    (t : Option Token) :
    separatorStep year.unplaced (month.map PartLiteral.unplaced) (t.map Token.unplaced) =
      (separatorStep year month t).map Reading.unplaced PatternLiteral.unplaced := by
  unfold separatorStep
  rw [Token.any_kind_unplaced (separatorKinds.contains ·)]
  cases t.any (separatorKinds.contains ·.kind) with
  | false => rfl
  | true => cases month <;> rfl

theorem Reading.step_unplaced (r : Reading) (t : Option Token) :
    r.unplaced.step (t.map Token.unplaced) =
      (r.step t).map Reading.unplaced PatternLiteral.unplaced := by
  cases r with
  | part leading minus =>
      cases minus with
      | none => exact partStep_unplaced leading t
      | some minus => exact magnitudeStep_unplaced leading minus t
  | separator year month => exact separatorStep_unplaced year month t

end PatternLiteral

namespace PropertyList

def Reading.unplaced : Reading → Reading
  | .opening => .opening
  | .entry done => .entry (done.map Property.unplaced)
  | .colon done key => .colon (done.map Property.unplaced) key.unplaced
  | .value done key => .value (done.map Property.unplaced) key.unplaced
  | .magnitude done key _ => .magnitude (done.map Property.unplaced) key.unplaced ⟨0, 0⟩

theorem unplaced_entry (done : List Property) (p : Property) :
    (Reading.entry (done ++ [p])).unplaced =
      .entry (done.map Property.unplaced ++ [p.unplaced]) := by
  rw [Reading.unplaced, List.map_append, List.map_singleton]

theorem addNumber_unplaced (done : List Property) (key : Ident) (minus : Option Span) (t : Token) :
    addNumber (done.map Property.unplaced) key.unplaced (minus.map fun _ => ⟨0, 0⟩) t.unplaced =
      (addNumber done key minus t).map Reading.unplaced (List.map Property.unplaced) := by
  unfold addNumber
  rw [Token.text_unplaced]
  cases Decimal.ofText? t.text.toList with
  | none => rfl
  | some d =>
      dsimp only
      rw [Step.map, unplaced_entry]
      cases minus <;> rfl

theorem entryStep_unplaced (done : List Property) (t : Option Token) :
    entryStep (done.map Property.unplaced) (t.map Token.unplaced) =
      (entryStep done t).map Reading.unplaced (List.map Property.unplaced) := by
  cases t with
  | none => rfl
  | some t =>
      simp only [Option.map_some, entryStep, Token.kind_unplaced]
      split <;> rfl

theorem valueStep_unplaced (done : List Property) (key : Ident) (t : Option Token) :
    valueStep (done.map Property.unplaced) key.unplaced (t.map Token.unplaced) =
      (valueStep done key t).map Reading.unplaced (List.map Property.unplaced) := by
  cases t with
  | none => rfl
  | some t =>
      simp only [Option.map_some, valueStep, Token.kind_unplaced]
      split
      · exact congrArg Step.more (unplaced_entry done
          ⟨key, .string (String.ofList (unquote t.text.toList)) t.span⟩).symm
      · exact congrArg Step.more (unplaced_entry done ⟨key, .name t.ident⟩).symm
      · exact addNumber_unplaced done key none t
      · rfl
      · rfl

theorem magnitudeStep_unplaced (done : List Property) (key : Ident) (minus : Span)
    (t : Option Token) :
    magnitudeStep (done.map Property.unplaced) key.unplaced ⟨0, 0⟩ (t.map Token.unplaced) =
      (magnitudeStep done key minus t).map Reading.unplaced (List.map Property.unplaced) := by
  cases t with
  | none => rfl
  | some t =>
      rw [Option.map_some, magnitudeStep, magnitudeStep, Token.kind_unplaced]
      split_ifs
      · exact addNumber_unplaced done key (some minus) t
      · rfl

theorem Reading.step_unplaced (r : Reading) (t : Option Token) :
    r.unplaced.step (t.map Token.unplaced) =
      (r.step t).map Reading.unplaced (List.map Property.unplaced) := by
  cases r with
  | opening => exact Step.take_unplaced _ t fun _ => rfl
  | entry done => exact entryStep_unplaced done t
  | colon done key => exact Step.take_unplaced _ t fun _ => rfl
  | value done key => exact valueStep_unplaced done key t
  | magnitude done key minus => exact magnitudeStep_unplaced done key minus t

end PropertyList

theorem Block.unplaced_snoc : ∀ (b : Block) (a : Action),
    (b.snoc a).unplaced = b.unplaced.snoc a.unplaced
  | .nil, a => by rw [snoc, unplaced, unplaced, unplaced, snoc]
  | .cons first rest, a => by rw [snoc, unplaced, unplaced_snoc rest a, unplaced, snoc]

mutual

def ActionPlace.unplaced : ActionPlace → ActionPlace
  | .rule when => .rule when.unplaced
  | .block place done => .block place.unplaced done.unplaced

def BlockPlace.unplaced : BlockPlace → BlockPlace
  | .action place => .action place.unplaced
  | .yes place test => .yes place.unplaced test.unplaced
  | .no place test yes => .no place.unplaced test.unplaced yes.unplaced

def ChoicePlace.unplaced : ChoicePlace → ChoicePlace
  | .action place => .action place.unplaced
  | .chain place test yes => .chain place.unplaced test.unplaced yes.unplaced

end

def Resumed.unplaced : Resumed → Resumed
  | .finished d => .finished d.unplaced
  | .inside place done => .inside place.unplaced done.unplaced

theorem ActionPlace.unplaced_plug (place : ActionPlace) (a : Action) :
    (place.plug a).unplaced = place.unplaced.plug a.unplaced := by
  cases place with
  | rule when => rw [plug, Resumed.unplaced, Declaration.unplaced, unplaced, plug]
  | block place done => rw [plug, Resumed.unplaced, Block.unplaced_snoc, unplaced, plug]

theorem ChoicePlace.unplaced_plug (test : Condition) (yes : Block) (no : Otherwise) :
    ∀ place : ChoicePlace, (place.plug test yes no).unplaced =
      place.unplaced.plug test.unplaced yes.unplaced no.unplaced
  | .action place => by
      rw [plug, ActionPlace.unplaced_plug, Action.unplaced, unplaced, plug]
  | .chain place test' yes' => by
      rw [plug, unplaced_plug, Otherwise.unplaced, unplaced, plug]

def OpenCondition.unplaced (o : OpenCondition) : OpenCondition :=
  ⟨o.alternatives.map Condition.unplaced, o.conjuncts.map Conjunction.unplaced⟩

theorem OpenCondition.unplaced_conjunction (o : OpenCondition) (c : Comparison) :
    (o.conjunction c).unplaced = o.unplaced.conjunction c.unplaced := by
  obtain ⟨alternatives, conjuncts⟩ := o
  cases conjuncts <;> rfl

theorem OpenCondition.unplaced_condition (o : OpenCondition) (c : Comparison) :
    (o.condition c).unplaced = o.unplaced.condition c.unplaced := by
  have hconjunction := o.unplaced_conjunction c
  obtain ⟨alternatives, conjuncts⟩ := o
  cases alternatives with
  | none => exact congrArg Condition.one hconjunction
  | some earlier => exact congrArg (Condition.or earlier.unplaced) hconjunction

namespace Clause

def unplaced : Clause → Clause
  | varName => varName
  | varAssign name => varAssign name.unplaced
  | initial name r => initial name.unplaced r.unplaced
  | varProperties name e r => varProperties name.unplaced e.unplaced r.unplaced
  | dateName => dateName
  | dateAssign name => dateAssign name.unplaced
  | datePattern name r => datePattern name.unplaced r.unplaced
  | ruleWhen => ruleWhen
  | rulePattern r => rulePattern r.unplaced
  | ruleComma when => ruleComma when.unplaced
  | action place => action place.unplaced
  | inside place done => inside place.unplaced done.unplaced
  | operator place target => operator place.unplaced target.unplaced
  | value place target op r => value place.unplaced target.unplaced op r.unplaced
  | openTest place => openTest place.unplaced
  | compareLeft place before r => compareLeft place.unplaced before.unplaced r.unplaced
  | compareRight place before lhs op r =>
    compareRight place.unplaced before.unplaced lhs.unplaced op r.unplaced
  | openYes place test => openYes place.unplaced test.unplaced
  | afterYes place test yes => afterYes place.unplaced test.unplaced yes.unplaced
  | afterElse place test yes => afterElse place.unplaced test.unplaced yes.unplaced

def Outcome.unplaced : Outcome → Outcome
  | .more c => .more c.unplaced
  | .last d => .last d.unplaced
  | .before d => .before d.unplaced
  | .wrong cause => .wrong cause

theorem take_unplaced (kind : Token.Kind) (t : Option Token) {next next' : Token → Clause}
    (hnext : ∀ t, next' t.unplaced = (next t).unplaced) :
    take kind (t.map Token.unplaced) next' = (take kind t next).unplaced := by
  cases t with
  | none => rfl
  | some t =>
      rw [Option.map_some, take, take, Token.kind_unplaced, hnext]
      split_ifs <;> rfl

theorem actionStep_unplaced (place : ActionPlace) (t : Option Token) :
    actionStep place.unplaced (t.map Token.unplaced) = (actionStep place t).unplaced := by
  cases t with
  | none => rfl
  | some t =>
      simp only [Option.map_some, actionStep, Token.kind_unplaced]
      split
      · rfl
      · rw [Outcome.unplaced, unplaced, ChoicePlace.unplaced]
      · rw [Outcome.unplaced, unplaced, BlockPlace.unplaced, Block.unplaced]
      · rfl

theorem afterAction_unplaced (resumed : Resumed) :
    afterAction resumed.unplaced = (afterAction resumed).unplaced := by
  cases resumed <;> rfl

theorem close_unplaced (body : Block) (place : BlockPlace) :
    close body.unplaced place.unplaced = (close body place).unplaced := by
  cases place with
  | action place =>
      rw [BlockPlace.unplaced, close, close, ← afterAction_unplaced, ActionPlace.unplaced_plug,
        Action.unplaced]
  | yes place test => rw [BlockPlace.unplaced, close, close, Outcome.unplaced, unplaced]
  | no place test yes =>
      rw [BlockPlace.unplaced, close, close, ← afterAction_unplaced, ChoicePlace.unplaced_plug,
        Otherwise.unplaced]

theorem insideStep_unplaced (place : BlockPlace) (done : Block) (t : Option Token) :
    insideStep place.unplaced done.unplaced (t.map Token.unplaced) =
      (insideStep place done t).unplaced := by
  cases t with
  | none => rfl
  | some t =>
      have haction := actionStep_unplaced (.block place done) (some t)
      rw [ActionPlace.unplaced] at haction
      simp only [Option.map_some, insideStep, Token.kind_unplaced]
      split
      · rfl
      · exact close_unplaced done place
      · exact haction

theorem besideAction_unplaced (t : Option Token) (resumed : Resumed) :
    besideAction (t.map Token.unplaced) resumed.unplaced = (besideAction t resumed).unplaced := by
  cases resumed with
  | finished d => rfl
  | inside place done => exact insideStep_unplaced place done t

theorem initialStep_unplaced (name : Ident) (t : Option Token)
    (step : Step Arithmetic.Reading NumberExpr) :
    initialStep name.unplaced (t.map Token.unplaced)
        (step.map Arithmetic.Reading.unplaced NumberExpr.unplaced) =
      (initialStep name t step).unplaced := by
  cases step with
  | more r => rfl
  | wrong cause => rfl
  | done e =>
      rw [Step.map, initialStep, initialStep, Token.any_kind_unplaced (· = .symbol .openBrace)]
      split_ifs <;> rfl

theorem varPropertiesStep_unplaced (name : Ident) (initial : NumberExpr)
    (step : Step PropertyList.Reading (List Property)) :
    varPropertiesStep name.unplaced initial.unplaced
        (step.map PropertyList.Reading.unplaced (List.map Property.unplaced)) =
      (varPropertiesStep name initial step).unplaced := by
  cases step <;> rfl

theorem datePatternStep_unplaced (name : Ident)
    (step : Step PatternLiteral.Reading PatternLiteral) :
    datePatternStep name.unplaced
        (step.map PatternLiteral.Reading.unplaced PatternLiteral.unplaced) =
      (datePatternStep name step).unplaced := by
  cases step <;> rfl

theorem rulePatternStep_unplaced (step : Step PatternLiteral.Reading PatternLiteral) :
    rulePatternStep (step.map PatternLiteral.Reading.unplaced PatternLiteral.unplaced) =
      (rulePatternStep step).unplaced := by
  cases step <;> rfl

theorem ruleWhenStep_unplaced (t : Option Token) :
    ruleWhenStep (t.map Token.unplaced) = (ruleWhenStep t).unplaced := by
  have hstart : rulePatternStep (PatternLiteral.start.step (t.map Token.unplaced)) =
      (rulePatternStep (PatternLiteral.start.step t)).unplaced := by
    rw [← rulePatternStep_unplaced, ← PatternLiteral.Reading.step_unplaced]
    rfl
  cases t with
  | none => exact hstart
  | some t =>
      obtain ⟨kind, text, span⟩ := t
      cases kind with
      | name => rfl
      | keyword k => exact hstart
      | number => exact hstart
      | string => exact hstart
      | symbol s => exact hstart

theorem operatorStep_unplaced (place : ActionPlace) (target : Ident) (t : Option Token) :
    operatorStep place.unplaced target.unplaced (t.map Token.unplaced) =
      (operatorStep place target t).unplaced := by
  rw [operatorStep, operatorStep, Token.bind_kind_unplaced]
  cases t.bind (assignOp? ·.kind) <;> rfl

theorem valueStep_unplaced (place : ActionPlace) (target : Ident) (op : AssignOp)
    (t : Option Token) (step : Step Arithmetic.Reading NumberExpr) :
    valueStep place.unplaced target.unplaced op (t.map Token.unplaced)
        (step.map Arithmetic.Reading.unplaced NumberExpr.unplaced) =
      (valueStep place target op t step).unplaced := by
  cases step with
  | more r => rfl
  | wrong cause => rfl
  | done e =>
      rw [Step.map, valueStep, valueStep, ← besideAction_unplaced, ActionPlace.unplaced_plug,
        Action.unplaced]

theorem compareLeftStep_unplaced (place : ChoicePlace) (before : OpenCondition)
    (t : Option Token) (step : Step Arithmetic.Reading NumberExpr) :
    compareLeftStep place.unplaced before.unplaced (t.map Token.unplaced)
        (step.map Arithmetic.Reading.unplaced NumberExpr.unplaced) =
      (compareLeftStep place before t step).unplaced := by
  cases step with
  | more r => rfl
  | wrong cause => rfl
  | done e =>
      rw [Step.map, compareLeftStep, compareLeftStep, Token.bind_kind_unplaced]
      cases t.bind (compareOp? ·.kind) <;> rfl

theorem comparedStep_unplaced (place : ChoicePlace) (before : OpenCondition) (c : Comparison)
    (t : Option Token) :
    comparedStep place.unplaced before.unplaced c.unplaced (t.map Token.unplaced) =
      (comparedStep place before c t).unplaced := by
  rw [comparedStep, comparedStep, Token.map_kind_unplaced, ← OpenCondition.unplaced_conjunction,
    ← OpenCondition.unplaced_condition]
  split <;> rfl

theorem compareRightStep_unplaced (place : ChoicePlace) (before : OpenCondition)
    (lhs : NumberExpr) (op : CompareOp) (t : Option Token)
    (step : Step Arithmetic.Reading NumberExpr) :
    compareRightStep place.unplaced before.unplaced lhs.unplaced op (t.map Token.unplaced)
        (step.map Arithmetic.Reading.unplaced NumberExpr.unplaced) =
      (compareRightStep place before lhs op t step).unplaced := by
  cases step with
  | more r => rfl
  | wrong cause => rfl
  | done e => exact comparedStep_unplaced place before ⟨op, lhs, e⟩ t

theorem afterYesStep_unplaced (place : ChoicePlace) (test : Condition) (yes : Block)
    (t : Option Token) :
    afterYesStep place.unplaced test.unplaced yes.unplaced (t.map Token.unplaced) =
      (afterYesStep place test yes t).unplaced := by
  rw [afterYesStep, afterYesStep, Token.any_kind_unplaced (· = .keyword .elseWord)]
  split_ifs
  · rfl
  · rw [← besideAction_unplaced, ChoicePlace.unplaced_plug, Otherwise.unplaced]

theorem afterElseStep_unplaced (place : ChoicePlace) (test : Condition) (yes : Block)
    (t : Option Token) :
    afterElseStep place.unplaced test.unplaced yes.unplaced (t.map Token.unplaced) =
      (afterElseStep place test yes t).unplaced := by
  rw [afterElseStep, afterElseStep, Token.map_kind_unplaced]
  split
  · rw [Outcome.unplaced, unplaced, ChoicePlace.unplaced]
  · rw [Outcome.unplaced, unplaced, BlockPlace.unplaced, Block.unplaced]
  · rfl

theorem step_unplaced (c : Clause) (t : Option Token) :
    c.unplaced.step (t.map Token.unplaced) = (c.step t).unplaced := by
  cases c with
  | varName => exact take_unplaced _ t fun _ => rfl
  | varAssign name => exact take_unplaced _ t fun _ => rfl
  | initial name r =>
      rw [unplaced, step, step, Arithmetic.Reading.step_unplaced, initialStep_unplaced]
  | varProperties name e r =>
      rw [unplaced, step, step, PropertyList.Reading.step_unplaced, varPropertiesStep_unplaced]
  | dateName => exact take_unplaced _ t fun _ => rfl
  | dateAssign name => exact take_unplaced _ t fun _ => rfl
  | datePattern name r =>
      rw [unplaced, step, step, PatternLiteral.Reading.step_unplaced, datePatternStep_unplaced]
  | ruleWhen => exact ruleWhenStep_unplaced t
  | rulePattern r =>
      rw [unplaced, step, step, PatternLiteral.Reading.step_unplaced, rulePatternStep_unplaced]
  | ruleComma when =>
      exact take_unplaced _ t fun _ => by rw [unplaced, ActionPlace.unplaced]
  | action place => exact actionStep_unplaced place t
  | inside place done => exact insideStep_unplaced place done t
  | operator place target => exact operatorStep_unplaced place target t
  | value place target op r =>
      rw [unplaced, step, step, Arithmetic.Reading.step_unplaced, valueStep_unplaced]
  | openTest place => exact take_unplaced _ t fun _ => rfl
  | compareLeft place before r =>
      rw [unplaced, step, step, Arithmetic.Reading.step_unplaced, compareLeftStep_unplaced]
  | compareRight place before lhs op r =>
      rw [unplaced, step, step, Arithmetic.Reading.step_unplaced, compareRightStep_unplaced]
  | openYes place test =>
      exact take_unplaced _ t fun _ => by rw [unplaced, BlockPlace.unplaced, Block.unplaced]
  | afterYes place test yes => exact afterYesStep_unplaced place test yes t
  | afterElse place test yes => exact afterElseStep_unplaced place test yes t

end Clause

def Blame.unplaced (b : Blame) : Blame := ⟨b.token.map Token.unplaced, b.cause⟩

def Event.unplaced : Event → Event
  | declaration d => .declaration d.unplaced
  | options properties => .options (properties.map Property.unplaced)
  | fault b => .fault b.unplaced

namespace Mode

def unplaced : Mode → Mode
  | between => between
  | clause c => clause c.unplaced
  | skipping => skipping
  | options r => options r.unplaced
  | skippingOptions => skippingOptions
  | closed => closed
  | ended => ended

def unplacedStep (s : List Event × Mode) : List Event × Mode :=
  (s.1.map Event.unplaced, s.2.unplaced)

theorem betweenStep_unplaced (t : Token) :
    betweenStep t.unplaced = unplacedStep (betweenStep t) := by
  unfold betweenStep
  rw [Token.kind_unplaced]
  split <;> rfl

theorem startsClause_unplaced (t : Token) : startsClause t.unplaced = startsClause t := rfl

theorem skippingStep_unplaced (t : Token) :
    skippingStep t.unplaced = unplacedStep (skippingStep t) := by
  rw [skippingStep, skippingStep, startsClause_unplaced, betweenStep_unplaced]
  split_ifs <;> rfl

theorem skippingOptionsStep_unplaced (t : Token) :
    skippingOptionsStep t.unplaced = unplacedStep (skippingOptionsStep t) := by
  rw [skippingOptionsStep, skippingOptionsStep, startsClause_unplaced]
  split_ifs <;> rfl

theorem clauseStep_unplaced (t : Token) (outcome : Clause.Outcome) :
    clauseStep t.unplaced outcome.unplaced = unplacedStep (clauseStep t outcome) := by
  cases outcome with
  | more c => rfl
  | last d => rfl
  | before d =>
      rw [Clause.Outcome.unplaced, clauseStep, betweenStep_unplaced]
      rfl
  | wrong cause =>
      rw [Clause.Outcome.unplaced, clauseStep, skippingStep_unplaced]
      rfl

theorem optionsStep_unplaced (t : Token) (step : Step PropertyList.Reading (List Property)) :
    optionsStep t.unplaced
        (step.map PropertyList.Reading.unplaced (List.map Property.unplaced)) =
      unplacedStep (optionsStep t step) := by
  cases step with
  | more r => rfl
  | done properties => rfl
  | wrong cause =>
      rw [Step.map, optionsStep, skippingOptionsStep_unplaced]
      rfl

theorem closedStep_unplaced (t : Token) : closedStep t.unplaced = unplacedStep (closedStep t) := by
  rw [closedStep, closedStep, Token.kind_unplaced]
  split_ifs <;> rfl

theorem step_unplaced (mode : Mode) (t : Token) :
    mode.unplaced.step t.unplaced = unplacedStep (mode.step t) := by
  cases mode with
  | between => exact betweenStep_unplaced t
  | clause c =>
      rw [unplaced, step, step, ← clauseStep_unplaced, ← Clause.step_unplaced]
      rfl
  | skipping => exact skippingStep_unplaced t
  | options r =>
      rw [unplaced, step, step, ← optionsStep_unplaced, ← PropertyList.Reading.step_unplaced]
      rfl
  | skippingOptions => exact skippingOptionsStep_unplaced t
  | closed => exact closedStep_unplaced t
  | ended => rfl

theorem finish_unplaced (mode : Mode) : mode.unplaced.finish = mode.finish.map Event.unplaced := by
  cases mode with
  | clause c =>
      have hstep : c.unplaced.step none = (c.step none).unplaced := c.step_unplaced none
      rw [unplaced, finish, finish, hstep]
      cases c.step none <;> rfl
  | options r =>
      have hstep : r.unplaced.step none =
          (r.step none).map PropertyList.Reading.unplaced (List.map Property.unplaced) :=
        r.step_unplaced none
      rw [unplaced, finish, finish, hstep]
      cases r.step none <;> rfl
  | between => rfl
  | skipping => rfl
  | skippingOptions => rfl
  | closed => rfl
  | ended => rfl

theorem read_unplaced (mode : Mode) (ts : List Token) :
    mode.unplaced.read (ts.map Token.unplaced) = (mode.read ts).map Event.unplaced := by
  induction ts generalizing mode with
  | nil => exact mode.finish_unplaced
  | cons t ts ih =>
      rw [List.map_cons, read, read, step_unplaced, unplacedStep, ih, List.map_append]

end Mode

namespace Script

theorem ofEvents_unplaced (events : List Event) :
    ofEvents (events.map Event.unplaced) = (ofEvents events).unplaced := by
  have hdeclaration : ∀ e : Event,
      e.unplaced.declaration? = e.declaration?.map Declaration.unplaced := by
    rintro (d | ps | b) <;> rfl
  have hoptions : ∀ e : Event,
      e.unplaced.options? = e.options?.map (List.map Property.unplaced) := by
    rintro (d | ps | b) <;> rfl
  have hdeclarations : (events.map Event.unplaced).filterMap Event.declaration? =
      (events.filterMap Event.declaration?).map Declaration.unplaced := by
    rw [List.filterMap_map, List.map_filterMap]
    exact congrArg (List.filterMap · events) (funext hdeclaration)
  have hfind : (events.map Event.unplaced).findSome? Event.options? =
      (events.findSome? Event.options?).map (List.map Property.unplaced) := by
    rw [List.findSome?_map, List.map_findSome?]
    exact congrArg (List.findSome? · events) (funext hoptions)
  rw [ofEvents, ofEvents, unplaced, hdeclarations, hfind]

/-- The tree of a script and its wrong tokens depend on the kinds and the texts of its tokens, up
to places. -/
theorem ofTokens_unplaced (ts : List Token) :
    ofTokens (ts.map Token.unplaced) =
      ((ofTokens ts).1.unplaced, (ofTokens ts).2.map Blame.unplaced) := by
  have hblame : ∀ e : Event, e.unplaced.blame? = e.blame?.map Blame.unplaced := by
    rintro (d | ps | b) <;> rfl
  have hread : Mode.between.read (ts.map Token.unplaced) =
      (Mode.between.read ts).map Event.unplaced := Mode.between.read_unplaced ts
  rw [ofTokens, ofTokens, hread, ofEvents_unplaced, List.filterMap_map, List.map_filterMap]
  exact Prod.ext rfl (congrArg (List.filterMap · (Mode.between.read ts)) (funext hblame))

end Script

end Forecast
