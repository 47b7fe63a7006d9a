import Forecast.Proofs.Script.Complete

namespace Forecast

open Clause

inductive TestSpelled : List Token → Condition → Prop
  | mk {i l r : Token} {u : List Token} {test : Condition} (hi : i.kind = .keyword .ifWord)
      (hl : l.kind = .symbol .openParen) (ht : test.Spelled u) (hr : r.kind = .symbol .closeParen) :
      TestSpelled (i :: l :: (u ++ [r])) test

mutual

inductive ActionPlace.Reads : ActionPlace → List Token → Prop
  | rule {k c : Token} {v : List Token} {when : When} (hk : k.kind = .keyword .atWord)
      (hd : when.Spelled v) (hc : c.kind = .symbol .comma) :
      ActionPlace.Reads (.rule when) (k :: (v ++ [c]))
  | block {l : Token} {v w : List Token} {place : BlockPlace} {done : Block}
      (hp : BlockPlace.Reads place v) (hl : l.kind = .symbol .openBrace)
      (hw : done.Contents w) : ActionPlace.Reads (.block place done) (v ++ l :: w)

inductive BlockPlace.Reads : BlockPlace → List Token → Prop
  | action {w : List Token} {place : ActionPlace} (hp : ActionPlace.Reads place w) :
      BlockPlace.Reads (.action place) w
  | yes {u v : List Token} {place : ChoicePlace} {test : Condition}
      (hp : ChoicePlace.Reads place v) (ht : TestSpelled u test) :
      BlockPlace.Reads (.yes place test) (v ++ u)
  | no {e : Token} {u v w : List Token} {place : ChoicePlace} {test : Condition} {yes : Block}
      (hp : ChoicePlace.Reads place v) (ht : TestSpelled u test) (hy : yes.Spelled w)
      (he : e.kind = .keyword .elseWord) :
      BlockPlace.Reads (.no place test yes) (v ++ (u ++ (w ++ [e])))

inductive ChoicePlace.Reads : ChoicePlace → List Token → Prop
  | action {w : List Token} {place : ActionPlace} (hp : ActionPlace.Reads place w) :
      ChoicePlace.Reads (.action place) w
  | chain {e : Token} {u v w : List Token} {place : ChoicePlace} {test : Condition} {yes : Block}
      (hp : ChoicePlace.Reads place v) (ht : TestSpelled u test) (hy : yes.Spelled w)
      (he : e.kind = .keyword .elseWord) :
      ChoicePlace.Reads (.chain place test yes) (v ++ (u ++ (w ++ [e])))

end

def Resumed.Reads : Resumed → List Token → Prop
  | .finished d, w => d.Spelled w
  | .inside place done, w => (ActionPlace.block place done).Reads w

theorem TestSpelled.conditional {u v w : List Token} {test : Condition} {yes : Block}
    {no : Otherwise} (ht : TestSpelled u test) (hy : yes.Spelled v) (hn : no.Spelled w) :
    Conditional (u ++ (v ++ w)) test yes no := by
  cases ht with
  | mk hi hl ht hr => simpa using Conditional.branch hi hl ht hr hy hn

theorem ActionPlace.Reads.plug {place : ActionPlace} {v w : List Token} {a : Action}
    (hp : place.Reads v) (ha : a.Spelled w) : (place.plug a).Reads (v ++ w) := by
  cases hp with
  | rule hk hd hc =>
      rw [List.cons_append, List.append_assoc]
      exact Declaration.Spelled.rule hk hd hc ha
  | block hp hl hw =>
      rw [List.append_assoc, List.cons_append]
      exact ActionPlace.Reads.block hp hl (.action hw ha)

theorem ChoicePlace.Reads.plug : ∀ {place : ChoicePlace} {v w : List Token} {test : Condition}
    {yes : Block} {no : Otherwise}, place.Reads v → Conditional w test yes no →
      (place.plug test yes no).Reads (v ++ w)
  | _, _, _, _, _, _, .action hp, h => hp.plug (.choose h)
  | _, _, _, _, _, _, .chain hp ht hy he, h => by
      have hchain := hp.plug (ht.conditional hy (.chain he h))
      rw [ChoicePlace.plug]
      simpa only [List.append_assoc, List.cons_append, List.nil_append] using hchain

/-- The words of a left side, if there is one, and the operator after it. -/
inductive EarlierReads {α : Type} (Spelled : List Token → α → Prop) (op : Symbol) :
    Option α → List Token → Prop
  | none : EarlierReads Spelled op none []
  | some {t : Token} {v : List Token} {earlier : α} (he : Spelled v earlier)
      (ht : t.kind = .symbol op) : EarlierReads Spelled op (some earlier) (v ++ [t])

/-- The words of a condition before the comparison that is being read. -/
inductive OpenCondition.Reads : OpenCondition → List Token → Prop
  | mk {u v : List Token} {o : OpenCondition}
      (ha : EarlierReads Condition.Spelled .orOr o.alternatives u)
      (hc : EarlierReads Conjunction.Spelled .andAnd o.conjuncts v) : Reads o (u ++ v)

theorem OpenCondition.reads_start : OpenCondition.start.Reads [] :=
  @OpenCondition.Reads.mk [] [] .start .none .none

theorem OpenCondition.spelled_conjunction {o : OpenCondition} {v w : List Token} {c : Comparison}
    (ho : EarlierReads Conjunction.Spelled .andAnd o.conjuncts v) (hc : c.Spelled w) :
    (o.conjunction c).Spelled (v ++ w) := by
  obtain ⟨alternatives, conjuncts⟩ := o
  rw [conjunction]
  cases ho with
  | none => exact .one hc
  | some he ht =>
      rw [List.append_assoc]
      exact .and he ht hc

theorem OpenCondition.Reads.spelled_condition {o : OpenCondition} {v w : List Token}
    {c : Comparison} (ho : o.Reads v) (hc : c.Spelled w) : (o.condition c).Spelled (v ++ w) := by
  obtain ⟨alternatives, conjuncts⟩ := o
  cases ho with
  | mk ha hconjuncts =>
      have hconjunction := OpenCondition.spelled_conjunction hconjuncts hc
      rw [condition]
      cases ha with
      | none => exact .one hconjunction
      | some he ht =>
          simp only [List.append_assoc, List.cons_append, List.nil_append]
          exact .or he ht hconjunction

inductive Clause.Reads : Clause → List Token → Prop
  | varName {k : Token} (hk : k.kind = .keyword .varWord) : Reads .varName [k]
  | varAssign {k x : Token} (hk : k.kind = .keyword .varWord) (hx : x.kind = .name) :
      Reads (.varAssign x.ident) [k, x]
  | initial {k x t : Token} {w : List Token} {r : Arithmetic.Reading}
      (hk : k.kind = .keyword .varWord) (hx : x.kind = .name) (ht : t.kind = .symbol .assign)
      (hr : r.Reads w) : Reads (.initial x.ident r) (k :: x :: t :: w)
  | varProperties {k x t : Token} {v w : List Token} {e : NumberExpr} {r : PropertyList.Reading}
      (hk : k.kind = .keyword .varWord) (hx : x.kind = .name) (ht : t.kind = .symbol .assign)
      (he : e.Spelled v) (hr : r.Reads w) :
      Reads (.varProperties x.ident e r) (k :: x :: t :: (v ++ w))
  | dateName {k : Token} (hk : k.kind = .keyword .dateWord) : Reads .dateName [k]
  | dateAssign {k x : Token} (hk : k.kind = .keyword .dateWord) (hx : x.kind = .name) :
      Reads (.dateAssign x.ident) [k, x]
  | datePattern {k x t : Token} {w : List Token} {r : PatternLiteral.Reading}
      (hk : k.kind = .keyword .dateWord) (hx : x.kind = .name) (ht : t.kind = .symbol .assign)
      (hr : r.Reads w) : Reads (.datePattern x.ident r) (k :: x :: t :: w)
  | ruleWhen {k : Token} (hk : k.kind = .keyword .atWord) : Reads .ruleWhen [k]
  | rulePattern {k : Token} {w : List Token} {r : PatternLiteral.Reading}
      (hk : k.kind = .keyword .atWord) (hr : r.Reads w) : Reads (.rulePattern r) (k :: w)
  | ruleComma {k : Token} {w : List Token} {when : When} (hk : k.kind = .keyword .atWord)
      (hd : when.Spelled w) : Reads (.ruleComma when) (k :: w)
  | action {w : List Token} {place : ActionPlace} (hp : place.Reads w) : Reads (.action place) w
  | inside {w : List Token} {place : BlockPlace} {done : Block}
      (hp : (ActionPlace.block place done).Reads w) : Reads (.inside place done) w
  | operator {x : Token} {w : List Token} {place : ActionPlace} (hp : place.Reads w)
      (hx : x.kind = .name) : Reads (.operator place x.ident) (w ++ [x])
  | value {op : AssignOp} {x t : Token} {v w : List Token} {place : ActionPlace}
      {r : Arithmetic.Reading} (hp : place.Reads v) (hx : x.kind = .name)
      (ht : t.kind = .symbol op.symbol) (hr : r.Reads w) :
      Reads (.value place x.ident op r) (v ++ x :: t :: w)
  | openTest {i : Token} {w : List Token} {place : ChoicePlace} (hp : place.Reads w)
      (hi : i.kind = .keyword .ifWord) : Reads (.openTest place) (w ++ [i])
  | compareLeft {i l : Token} {u v w : List Token} {place : ChoicePlace} {before : OpenCondition}
      {r : Arithmetic.Reading} (hp : place.Reads u) (hi : i.kind = .keyword .ifWord)
      (hl : l.kind = .symbol .openParen) (ho : before.Reads v) (hr : r.Reads w) :
      Reads (.compareLeft place before r) (u ++ i :: l :: (v ++ w))
  | compareRight {op : CompareOp} {i l s : Token} {u v w w' : List Token} {place : ChoicePlace}
      {before : OpenCondition} {lhs : NumberExpr} {r : Arithmetic.Reading} (hp : place.Reads u)
      (hi : i.kind = .keyword .ifWord) (hl : l.kind = .symbol .openParen) (ho : before.Reads v)
      (hlhs : lhs.Spelled w) (hs : s.kind = .symbol op.symbol) (hr : r.Reads w') :
      Reads (.compareRight place before lhs op r) (u ++ i :: l :: (v ++ (w ++ s :: w')))
  | openYes {u v : List Token} {place : ChoicePlace} {test : Condition} (hp : place.Reads u)
      (ht : TestSpelled v test) : Reads (.openYes place test) (u ++ v)
  | afterYes {u v w : List Token} {place : ChoicePlace} {test : Condition} {yes : Block}
      (hp : place.Reads u) (ht : TestSpelled v test) (hy : yes.Spelled w) :
      Reads (.afterYes place test yes) (u ++ (v ++ w))
  | afterElse {e : Token} {u v w : List Token} {place : ChoicePlace} {test : Condition}
      {yes : Block} (hp : place.Reads u) (ht : TestSpelled v test) (hy : yes.Spelled w)
      (he : e.kind = .keyword .elseWord) :
      Reads (.afterElse place test yes) (u ++ (v ++ (w ++ [e])))

/-- The outcome of a step accounts for the words before its token and those with it. -/
def Clause.Outcome.Accounts (before after : List Token) : Outcome → Prop
  | .more c => c.Reads after
  | .last d => d.Spelled after
  | .before d => d.Spelled before
  | .wrong _ => True

theorem accounts_afterAction {res : Resumed} {v w : List Token} (h : res.Reads w) :
    (afterAction res).Accounts v w := by
  cases res with
  | finished d => exact h
  | inside place done => exact Clause.Reads.inside h

theorem accounts_close {place : BlockPlace} {body : Block} {u v w : List Token}
    (hp : place.Reads v) (hb : body.Spelled w) : (close body place).Accounts u (v ++ w) := by
  cases hp with
  | action hp => exact accounts_afterAction (hp.plug (.block hb))
  | yes hp ht =>
      rw [List.append_assoc]
      exact Clause.Reads.afterYes hp ht hb
  | no hp ht hy he =>
      have hplug := hp.plug (ht.conditional hy (.block he hb))
      simp only [List.append_assoc, List.cons_append, List.nil_append]
      exact accounts_afterAction hplug

theorem accounts_actionStep {place : ActionPlace} {w : List Token} (hp : place.Reads w)
    (t : Token) : (actionStep place (some t)).Accounts w (w ++ [t]) := by
  rw [actionStep]
  split
  · rename_i ht
    exact Clause.Reads.operator hp ht
  · rename_i ht
    exact Clause.Reads.openTest (.action hp) ht
  · rename_i ht
    exact Clause.Reads.inside (.block (.action hp) ht .nil)
  · exact trivial

theorem accounts_insideStep {place : BlockPlace} {done : Block} {w : List Token}
    (hp : (ActionPlace.block place done).Reads w) (t : Token) :
    (insideStep place done (some t)).Accounts w (w ++ [t]) := by
  rw [insideStep]
  split
  · rename_i ht
    cases hp with
    | block hp hl hw =>
        rw [List.append_assoc, List.cons_append]
        exact Clause.Reads.inside (.block hp hl (.semicolon hw ht))
  · rename_i ht
    cases hp with
    | block hp hl hw =>
        rw [List.append_assoc, List.cons_append]
        exact accounts_close hp (.braces hl hw ht)
  · exact accounts_actionStep hp t

theorem accounts_besideAction {res : Resumed} {w : List Token} (h : res.Reads w) (t : Token) :
    (besideAction (some t) res).Accounts w (w ++ [t]) := by
  cases res with
  | finished d => exact h
  | inside place done => exact accounts_insideStep h t

theorem kind_of_assignOp? {k : Token.Kind} {op : AssignOp} (h : assignOp? k = some op) :
    k = .symbol op.symbol := by
  unfold assignOp? at h
  split at h <;> cases h <;> rfl

theorem kind_of_compareOp? {k : Token.Kind} {op : CompareOp} (h : compareOp? k = some op) :
    k = .symbol op.symbol := by
  unfold compareOp? at h
  split at h <;> cases h <;> rfl

theorem accounts_initialStep {k x s : Token} {w : List Token} {r : Arithmetic.Reading}
    (hk : k.kind = .keyword .varWord) (hx : x.kind = .name) (hs : s.kind = .symbol .assign)
    (hr : r.Reads w) (t : Token) :
    (initialStep x.ident (some t) (r.step (some t))).Accounts (k :: x :: s :: w)
      (k :: x :: s :: w ++ [t]) := by
  cases hstep : r.step (some t) with
  | more r' => exact Clause.Reads.initial hk hx hs (hr.step hstep)
  | wrong c => exact trivial
  | done e =>
      have he := hr.spelled hstep
      rw [initialStep, Option.any_some]
      split_ifs with ht
      · exact Clause.Reads.varProperties hk hx hs he (.entry (by simpa using ht) .nil)
      · exact Declaration.Spelled.var hk hx hs he

theorem accounts_valueStep {op : AssignOp} {x s : Token} {v w : List Token} {place : ActionPlace}
    {r : Arithmetic.Reading} (hp : place.Reads v) (hx : x.kind = .name)
    (hs : s.kind = .symbol op.symbol) (hr : r.Reads w) (t : Token) :
    (valueStep place x.ident op (some t) (r.step (some t))).Accounts (v ++ x :: s :: w)
      (v ++ x :: s :: w ++ [t]) := by
  cases hstep : r.step (some t) with
  | more r' =>
      rw [List.append_assoc, List.cons_append, List.cons_append]
      exact Clause.Reads.value hp hx hs (hr.step hstep)
  | wrong c => exact trivial
  | done e =>
      have hplug := hp.plug (.assign hx hs (hr.spelled hstep))
      exact accounts_besideAction hplug t

section Conditions

variable {op : CompareOp} {i l s : Token} {u v w w' : List Token} {place : ChoicePlace}
  {before : OpenCondition} {r : Arithmetic.Reading}

theorem accounts_compareLeftStep (hp : place.Reads u) (hi : i.kind = .keyword .ifWord)
    (hl : l.kind = .symbol .openParen) (ho : before.Reads v) (hr : r.Reads w) (t : Token) :
    (compareLeftStep place before (some t) (r.step (some t))).Accounts (u ++ i :: l :: (v ++ w))
      (u ++ i :: l :: (v ++ w) ++ [t]) := by
  cases hstep : r.step (some t) with
  | more r' =>
      simp only [List.append_assoc, List.cons_append]
      exact Clause.Reads.compareLeft hp hi hl ho (hr.step hstep)
  | wrong c => exact trivial
  | done e =>
      rw [compareLeftStep, Option.bind_some]
      split
      · rename_i op hop
        have hread := Clause.Reads.compareRight hp hi hl ho (hr.spelled hstep)
          (kind_of_compareOp? hop) Arithmetic.reads_start
        simpa only [Outcome.Accounts, List.append_assoc, List.cons_append] using hread
      · exact trivial

theorem accounts_comparedStep {c : Comparison} (hp : place.Reads u)
    (hi : i.kind = .keyword .ifWord) (hl : l.kind = .symbol .openParen) (ho : before.Reads v)
    (hc : c.Spelled w) (t : Token) :
    (comparedStep place before c (some t)).Accounts (u ++ i :: l :: (v ++ w))
      (u ++ i :: l :: (v ++ w) ++ [t]) := by
  have hcondition := ho.spelled_condition hc
  rw [comparedStep, Option.map_some]
  split
  · rename_i ht
    cases ho with
    | @mk u₁ u₂ _ ha hconjuncts =>
        have hconjunction := OpenCondition.spelled_conjunction hconjuncts hc
        have hopen : OpenCondition.Reads ⟨before.alternatives, some (before.conjunction c)⟩
            (u₁ ++ (u₂ ++ w ++ [t])) := .mk ha (.some hconjunction (Option.some.inj ht))
        have hread := Clause.Reads.compareLeft hp hi hl hopen Arithmetic.reads_start
        simpa only [Outcome.Accounts, List.append_assoc, List.cons_append, List.append_nil] using hread
  · rename_i ht
    have hopen : OpenCondition.Reads ⟨some (before.condition c), none⟩ (v ++ w ++ [t] ++ []) :=
      .mk (.some hcondition (Option.some.inj ht)) .none
    have hread := Clause.Reads.compareLeft hp hi hl hopen Arithmetic.reads_start
    simpa only [Outcome.Accounts, List.append_assoc, List.cons_append, List.append_nil] using hread
  · rename_i ht
    have hread := Clause.Reads.openYes hp (.mk hi hl hcondition (Option.some.inj ht))
    simpa only [Outcome.Accounts, List.append_assoc, List.cons_append] using hread
  · exact trivial

theorem accounts_compareRightStep {lhs : NumberExpr} (hp : place.Reads u)
    (hi : i.kind = .keyword .ifWord) (hl : l.kind = .symbol .openParen) (ho : before.Reads v)
    (hlhs : lhs.Spelled w) (hs : s.kind = .symbol op.symbol) (hr : r.Reads w') (t : Token) :
    (compareRightStep place before lhs op (some t) (r.step (some t))).Accounts
      (u ++ i :: l :: (v ++ (w ++ s :: w'))) (u ++ i :: l :: (v ++ (w ++ s :: w')) ++ [t]) := by
  cases hstep : r.step (some t) with
  | more r' =>
      simp only [List.append_assoc, List.cons_append]
      exact Clause.Reads.compareRight hp hi hl ho hlhs hs (hr.step hstep)
  | wrong c => exact trivial
  | done e => exact accounts_comparedStep hp hi hl ho (.compare hlhs hs (hr.spelled hstep)) t

end Conditions

theorem accounts_take {kind : Token.Kind} {t : Token} {next : Token → Clause} {w : List Token}
    (h : t.kind = kind → (next t).Reads (w ++ [t])) :
    (Clause.take kind (some t) next).Accounts w (w ++ [t]) := by
  rw [Clause.take]
  split_ifs with ht
  · exact h ht
  · exact trivial

theorem accounts_rulePatternStep {k : Token} {w : List Token} {r : PatternLiteral.Reading}
    (hk : k.kind = .keyword .atWord) (hr : r.Reads w) (t : Token) :
    (rulePatternStep (r.step (some t))).Accounts (k :: w) (k :: w ++ [t]) := by
  have hstep := hr.step t
  cases h : r.step (some t) with
  | more r' =>
      rw [h] at hstep
      exact Clause.Reads.rulePattern hk hstep
  | done p =>
      rw [h] at hstep
      exact Clause.Reads.ruleComma hk (.pattern hstep)
  | wrong c => exact trivial

theorem Clause.Reads.step {c : Clause} {w : List Token} (hc : c.Reads w) (t : Token) :
    (c.step (some t)).Accounts w (w ++ [t]) := by
  cases hc with
  | varName hk =>
      rw [Clause.step]
      exact accounts_take fun hx => .varAssign hk hx
  | varAssign hk hx =>
      rw [Clause.step]
      exact accounts_take fun ht => .initial hk hx ht Arithmetic.reads_start
  | initial hk hx hs hr => exact accounts_initialStep hk hx hs hr t
  | @varProperties k x s v w e r hk hx hs he hr =>
      have hstep := hr.step t
      rw [Clause.step]
      cases h : r.step (some t) with
      | more r' =>
          rw [h] at hstep
          simp only [List.append_assoc, List.cons_append]
          exact Clause.Reads.varProperties hk hx hs he hstep
      | done ps =>
          rw [h] at hstep
          simp only [List.append_assoc, List.cons_append]
          exact Declaration.Spelled.varWith hk hx hs he hstep
      | wrong c => exact trivial
  | dateName hk =>
      rw [Clause.step]
      exact accounts_take fun hx => .dateAssign hk hx
  | dateAssign hk hx =>
      rw [Clause.step]
      exact accounts_take fun ht => .datePattern hk hx ht PatternLiteral.reads_start
  | @datePattern k x s w r hk hx hs hr =>
      have hstep := hr.step t
      rw [Clause.step]
      cases h : r.step (some t) with
      | more r' =>
          rw [h] at hstep
          exact Clause.Reads.datePattern hk hx hs hstep
      | done p =>
          rw [h] at hstep
          exact Declaration.Spelled.date hk hx hs hstep
      | wrong c => exact trivial
  | ruleWhen hk =>
      rw [Clause.step]
      by_cases ht : t.kind = .name
      · obtain ⟨kind, text, span⟩ := t
        obtain rfl : kind = .name := ht
        exact Clause.Reads.ruleComma hk (.named rfl)
      · rw [ruleWhenStep_of_ne_name ht]
        exact accounts_rulePatternStep hk PatternLiteral.reads_start t
  | rulePattern hk hr => exact accounts_rulePatternStep hk hr t
  | ruleComma hk hd =>
      rw [Clause.step]
      exact accounts_take fun ht => .action (.rule hk hd ht)
  | action hp => exact accounts_actionStep hp t
  | inside hp => exact accounts_insideStep hp t
  | operator hp hx =>
      rw [Clause.step, operatorStep, Option.bind_some]
      split
      · rename_i op hop
        rw [List.append_assoc]
        exact Clause.Reads.value hp hx (kind_of_assignOp? hop) Arithmetic.reads_start
      · exact trivial
  | value hp hx hs hr => exact accounts_valueStep hp hx hs hr t
  | openTest hp hi =>
      rw [Clause.step]
      refine accounts_take fun ht => ?_
      rw [List.append_assoc]
      exact .compareLeft hp hi ht OpenCondition.reads_start Arithmetic.reads_start
  | compareLeft hp hi hl ho hr => exact accounts_compareLeftStep hp hi hl ho hr t
  | compareRight hp hi hl ho hlhs hs hr => exact accounts_compareRightStep hp hi hl ho hlhs hs hr t
  | openYes hp ht =>
      rw [Clause.step]
      exact accounts_take fun hl => .inside (.block (.yes hp ht) hl .nil)
  | afterYes hp ht hy =>
      rw [Clause.step, afterYesStep, Option.any_some]
      split_ifs with he
      · rw [List.append_assoc, List.append_assoc]
        exact Clause.Reads.afterElse hp ht hy (by simpa using he)
      · -- Without an `else` the conditional is over before the token.
        have hplug := hp.plug (ht.conditional hy .nothing)
        rw [List.append_nil] at hplug
        exact accounts_besideAction hplug t
  | afterElse hp ht hy he =>
      rw [Clause.step, afterElseStep, Option.map_some]
      split
      · rename_i hi
        exact Clause.Reads.openTest (.chain hp ht hy he) (Option.some.inj hi)
      · rename_i hl
        exact Clause.Reads.inside (.block (.no hp ht hy he) (Option.some.inj hl) .nil)
      · exact trivial

def Clause.Outcome.Ends (w : List Token) : Outcome → Prop
  | .before d => d.Spelled w
  | .wrong _ => True
  | .more _ => False
  | .last _ => False

theorem ends_besideAction {res : Resumed} {w : List Token} (h : res.Reads w) :
    (besideAction none res).Ends w := by
  cases res with
  | finished d => exact h
  | inside place done => exact trivial

theorem Clause.Reads.ends {c : Clause} {w : List Token} (hc : c.Reads w) : (c.step none).Ends w := by
  cases hc with
  | varName | varAssign | dateName | dateAssign | ruleWhen | ruleComma | action | inside |
      operator | openTest | openYes | afterElse => exact trivial
  | @initial k x s w r hk hx hs hr =>
      rw [Clause.step]
      obtain ⟨e, hstep⟩ | ⟨kinds, hstep⟩ := r.step_none
      · rw [hstep]
        exact Declaration.Spelled.var hk hx hs (hr.spelled hstep)
      · rw [hstep]
        exact trivial
  | @varProperties k x s v w e r hk hx hs he hr =>
      obtain ⟨kinds, hstep⟩ := r.step_none
      rw [Clause.step, hstep]
      exact trivial
  | @datePattern k x s w r hk hx hs hr =>
      obtain ⟨kinds, hstep⟩ := r.step_none
      rw [Clause.step, hstep]
      exact trivial
  | @rulePattern k w r hk hr =>
      obtain ⟨kinds, hstep⟩ := r.step_none
      rw [Clause.step, hstep]
      exact trivial
  | @value op x s v w place r hp hx hs hr =>
      rw [Clause.step]
      obtain ⟨e, hstep⟩ | ⟨kinds, hstep⟩ := r.step_none
      · rw [hstep]
        exact ends_besideAction (hp.plug (.assign hx hs (hr.spelled hstep)))
      · rw [hstep]
        exact trivial
  | @compareLeft i l u v w place before r hp hi hl ho hr =>
      rw [Clause.step]
      obtain ⟨e, hstep⟩ | ⟨kinds, hstep⟩ := r.step_none <;>
        rw [hstep] <;> exact trivial
  | @compareRight op i l s u v w w' place before lhs r hp hi hl ho hlhs hs hr =>
      rw [Clause.step]
      obtain ⟨e, hstep⟩ | ⟨kinds, hstep⟩ := r.step_none <;>
        rw [hstep] <;> exact trivial
  | afterYes hp ht hy =>
      have hplug := hp.plug (ht.conditional hy .nothing)
      rw [List.append_nil] at hplug
      exact ends_besideAction hplug

inductive Mode.Reads : Mode → List Token → Prop
  | between {w : List Token} {ds : List Declaration} (h : Declarations w ds) : Reads .between w
  | clause {v w : List Token} {ds : List Declaration} {c : Clause} (h : Declarations v ds)
      (hc : c.Reads w) : Reads (.clause c) (v ++ w)
  | options {k : Token} {v w : List Token} {ds : List Declaration} {r : PropertyList.Reading}
      (h : Declarations v ds) (hk : k.kind = .keyword .optionsWord) (hr : r.Reads w) :
      Reads (.options r) (v ++ k :: w)
  | closed {k : Token} {u v w : List Token} {ds : List Declaration} {ps : List Property}
      (h : Declarations u ds) (hk : k.kind = .keyword .optionsWord)
      (hps : PropertyList.Spelled v ps) (hw : ∀ t ∈ w, t.kind = .symbol .semicolon) :
      Reads .closed (u ++ k :: (v ++ w))

def Event.IsFault (e : Event) : Prop := e.blame?.isSome

theorem Event.not_isFault_declaration (d : Declaration) : ¬ (Event.declaration d).IsFault := by
  rintro ⟨⟩

theorem Event.not_isFault_options (ps : List Property) : ¬ (Event.options ps).IsFault := by
  rintro ⟨⟩

theorem reads_betweenStep {w : List Token} {ds : List Declaration} (h : Declarations w ds)
    {t : Token} (hfault : ∀ e ∈ (Mode.betweenStep t).1, ¬ e.IsFault) :
    (Mode.betweenStep t).2.Reads (w ++ [t]) := by
  unfold Mode.betweenStep at hfault ⊢
  split at hfault
  · rename_i ht
    exact .between (.semicolon h ht)
  · rename_i ht
    exact .clause h (.varName ht)
  · rename_i ht
    exact .clause h (.dateName ht)
  · rename_i ht
    exact .clause h (.ruleWhen ht)
  · rename_i ht
    exact .options h ht .opening
  · exact absurd rfl (hfault _ List.mem_cons_self)

theorem reads_clauseStep {v w : List Token} {ds : List Declaration} {c : Clause}
    (h : Declarations v ds) (hc : c.Reads w) {t : Token}
    (hfault : ∀ e ∈ (Mode.clauseStep t (c.step (some t))).1, ¬ e.IsFault) :
    (Mode.clauseStep t (c.step (some t))).2.Reads (v ++ w ++ [t]) := by
  have hstep := hc.step t
  cases houtcome : c.step (some t) with
  | more c' =>
      rw [houtcome] at hstep
      rw [Mode.clauseStep, List.append_assoc]
      exact .clause h hstep
  | last d =>
      rw [houtcome] at hstep
      rw [Mode.clauseStep, List.append_assoc]
      exact .between (.declaration h hstep)
  | before d =>
      -- The token belongs to what follows the declaration.
      rw [houtcome] at hstep hfault
      refine reads_betweenStep (.declaration h hstep) fun e he => ?_
      exact hfault e (List.mem_cons_of_mem _ he)
  | wrong cause =>
      rw [houtcome] at hfault
      exact absurd rfl (hfault _ List.mem_cons_self)

theorem Mode.Reads.step {mode : Mode} {w : List Token} (h : mode.Reads w) {t : Token}
    (hfault : ∀ e ∈ (mode.step t).1, ¬ e.IsFault) : (mode.step t).2.Reads (w ++ [t]) := by
  cases h with
  | between h => exact reads_betweenStep h hfault
  | clause h hc => exact reads_clauseStep h hc hfault
  | @options k v w ds r h hk hr =>
      have hstep := hr.step t
      rw [Mode.step] at hfault ⊢
      cases houtcome : r.step (some t) with
      | more r' =>
          rw [houtcome] at hstep
          rw [Mode.optionsStep, List.append_assoc, List.cons_append]
          exact .options h hk hstep
      | done ps =>
          rw [houtcome] at hstep
          have hclosed := Mode.Reads.closed h hk hstep (List.forall_mem_nil _)
          rw [Mode.optionsStep, List.append_assoc, List.cons_append]
          rwa [List.append_nil] at hclosed
      | wrong cause =>
          rw [houtcome] at hfault
          exact absurd rfl (hfault _ List.mem_cons_self)
  | @closed k u v w ds ps h hk hps hw =>
      rw [Mode.step, Mode.closedStep] at hfault ⊢
      split_ifs at hfault ⊢ with ht
      · have hw' : ∀ t' ∈ w ++ [t], t'.kind = .symbol .semicolon := by
          simpa only [List.forall_mem_append, List.forall_mem_singleton] using ⟨hw, ht⟩
        simpa only [List.append_assoc, List.cons_append] using Mode.Reads.closed h hk hps hw'
      · exact absurd rfl (hfault _ List.mem_cons_self)

theorem Mode.Reads.exists_spelled_of_finish {mode : Mode} {w : List Token} (h : mode.Reads w)
    (hfault : ∀ e ∈ mode.finish, ¬ e.IsFault) : ∃ s, Script.Spelled w s := by
  cases h with
  | between h => exact ⟨_, .plain h⟩
  | @clause v w ds c h hc =>
      have hends := hc.ends
      rw [Mode.finish] at hfault
      cases houtcome : c.step none with
      | before d =>
          rw [houtcome] at hends
          exact ⟨_, .plain (.declaration h hends)⟩
      | wrong cause =>
          rw [houtcome] at hfault
          exact absurd rfl (hfault _ List.mem_cons_self)
      | more c' =>
          rw [houtcome] at hends
          exact hends.elim
      | last d =>
          rw [houtcome] at hends
          exact hends.elim
  | @options k v w ds r h hk hr =>
      obtain ⟨kinds, hstep⟩ := r.step_none
      rw [Mode.finish, hstep] at hfault
      exact absurd rfl (hfault _ List.mem_cons_self)
  | closed h hk hps hw => exact ⟨_, .withOptions h hk hps hw⟩

theorem Mode.Reads.exists_spelled {mode : Mode} {w ts : List Token} (h : mode.Reads w)
    (hfault : ∀ e ∈ mode.read ts, ¬ e.IsFault) : ∃ s, Script.Spelled (w ++ ts) s := by
  induction ts generalizing mode w with
  | nil =>
      rw [List.append_nil]
      exact h.exists_spelled_of_finish hfault
  | cons t ts ih =>
      obtain ⟨hstep, hrest⟩ := List.forall_mem_append.mp hfault
      have hread := ih (h.step hstep) hrest
      rwa [List.append_assoc] at hread

theorem exists_spelled_of_no_fault {tokens : List Token} (h : (Script.ofTokens tokens).2 = []) :
    ∃ s, Script.Spelled tokens s := by
  have hfault : ∀ e ∈ Mode.between.read tokens, ¬ e.IsFault := by
    intro e he
    have hnone := List.filterMap_eq_nil_iff.mp h e he
    simp [Event.IsFault, hnone]
  exact Mode.Reads.exists_spelled (.between .nil) hfault

namespace Script

/-- Tokens are read without a fault just when they spell a script, and what is read then is the
only script that they spell. -/
theorem ofTokens_exact {tokens : List Token} (hw : ∀ t ∈ tokens, t.IsLexeme) :
    ((ofTokens tokens).2 = [] ↔ ∃ s, Spelled tokens s) ∧
      ((ofTokens tokens).2 = [] → ∀ s, Spelled tokens s ↔ s = (ofTokens tokens).1) := by
  have hread : ∀ s, Spelled tokens s → ofTokens tokens = (s, []) := fun s h => h.ofTokens_eq hw
  refine ⟨⟨exists_spelled_of_no_fault, ?_⟩, ?_⟩
  · rintro ⟨s, hs⟩
    rw [hread s hs]
  · intro hnone s
    constructor
    · intro hs
      rw [hread s hs]
    · rintro rfl
      obtain ⟨s, hs⟩ := exists_spelled_of_no_fault hnone
      rwa [hread s hs]

def nested : List Char :=
  "var a = 1 - 2 * -b; ; at */02-5, if (a < 0 || a > 9) \x7b a = 0; \x7d else \x7b a /= 2 \x7d".toList

theorem ofTokens_exact_nested : ∃ s, Spelled (Token.ofText nested) s ∧ s.options = none := by
  have hfaults : (ofTokens (Token.ofText nested)).2 = [] := by decide +kernel
  have hoptions : (ofTokens (Token.ofText nested)).1.options = none := by decide +kernel
  have hexact := ofTokens_exact fun t (ht : t ∈ Token.ofText nested) =>
    Token.isLexeme_of_mem_ofText ht
  exact ⟨_, (hexact.2 hfaults _).mpr rfl, hoptions⟩

end Script

end Forecast
