import Mathlib.Data.List.Forall2
import Forecast.Proofs.Script.Complete

namespace Forecast

open Clause

section EndAlike

variable {t : Token}

theorem exists_keyword_of_startsClause (ht : Mode.startsClause t) :
    ∃ k, t.kind = .keyword k ∧ k ≠ .ifWord ∧ k ≠ .elseWord := by
  rcases kind_of_startsClause ht with ht | ht | ht | ht <;> exact ⟨_, ht, nofun, nofun⟩

theorem PropertyList.Reading.wrong_of_startsClause (r : Reading) (ht : Mode.startsClause t) :
    ∃ c, r.step (some t) = .wrong c := by
  obtain ⟨k, hk, -, -⟩ := exists_keyword_of_startsClause ht
  cases r with
  | opening | colon done key => exact ⟨_, if_neg (by simp [hk])⟩
  | entry done => exact ⟨.expected entryKinds, by simp only [step, entryStep, hk]⟩
  | value done key => exact ⟨.expected valueKinds, by simp only [step, valueStep, hk]⟩
  | magnitude done key minus => exact ⟨_, if_neg (by simp [hk])⟩

theorem PatternLiteral.Reading.wrong_of_startsClause (r : Reading) (ht : Mode.startsClause t) :
    ∃ c, r.step (some t) = .wrong c := by
  obtain ⟨k, hk, -, -⟩ := exists_keyword_of_startsClause ht
  cases r with
  | part leading minus =>
      cases minus with
      | none => exact ⟨.expected partKinds, by simp only [step, partStep, hk]⟩
      | some minus => exact ⟨_, if_neg (by simp [hk])⟩
  | separator year month => exact ⟨_, if_neg (by simp [separatorKinds, hk])⟩

inductive Step.EndAlike {σ α : Type} : Step σ α → Step σ α → Prop
  | done (a : α) : EndAlike (.done a) (.done a)
  | wrong (c c' : Cause) : EndAlike (.wrong c) (.wrong c')

theorem Arithmetic.Reading.endAlike_step (r : Reading) (ht : Mode.startsClause t) :
    (r.step none).EndAlike (r.step (some t)) := by
  obtain ⟨k, hk, -, -⟩ := exists_keyword_of_startsClause ht
  cases r with
  | operand inner outer =>
      simp only [step, operandStep, hk]
      exact .wrong _ _
  | product e sum outer =>
      have hnone : ∀ t' ∈ (none : Option Token), ¬ Continues t' := nofun
      have hword : ∀ t' ∈ some t, ¬ Continues t' := by simp [continues_iff, hk]
      rw [step, step, productStep_of_not_continues hnone, productStep_of_not_continues hword]
      cases outer with
      | nil => exact .done _
      | cons p outer =>
          have hparen : t.kind ≠ .symbol .closeParen := by simp [hk]
          simp only [sumStep, Step.take, if_neg hparen]
          exact .wrong _ _

inductive Clause.Outcome.EndAlike : Outcome → Outcome → Prop
  | before (d : Declaration) : EndAlike (.before d) (.before d)
  | wrong (c c' : Cause) : EndAlike (.wrong c) (.wrong c')

namespace Clause

theorem endAlike_take {kind : Token.Kind} (h : t.kind ≠ kind) (next : Token → Clause) :
    Outcome.EndAlike (take kind none next) (take kind (some t) next) := by
  rw [take, take, if_neg h]
  exact .wrong _ _

theorem endAlike_actionStep (place : ActionPlace) (ht : Mode.startsClause t) :
    (actionStep place none).EndAlike (actionStep place (some t)) := by
  obtain ⟨k, hk, hif, -⟩ := exists_keyword_of_startsClause ht
  have hwrong : actionStep place (some t) = .wrong (.expected actionKinds) := by
    rw [actionStep, hk]
    split <;> simp_all
  rw [hwrong]
  exact .wrong _ _

theorem endAlike_insideStep (place : BlockPlace) (done : Block) (ht : Mode.startsClause t) :
    (insideStep place done none).EndAlike (insideStep place done (some t)) := by
  obtain ⟨k, hk, -, -⟩ := exists_keyword_of_startsClause ht
  have haction := endAlike_actionStep (.block place done) ht
  simp only [insideStep, hk]
  generalize actionStep (.block place done) (some t) = o at haction
  cases haction
  exact .wrong _ _

theorem endAlike_besideAction (res : Resumed) (ht : Mode.startsClause t) :
    (besideAction none res).EndAlike (besideAction (some t) res) := by
  cases res with
  | finished d => exact .before d
  | inside place done => exact endAlike_insideStep place done ht

theorem endAlike_comparedStep (place : ChoicePlace) (before : OpenCondition) (c : Comparison)
    (ht : Mode.startsClause t) :
    (comparedStep place before c none).EndAlike (comparedStep place before c (some t)) := by
  obtain ⟨k, hk, -, -⟩ := exists_keyword_of_startsClause ht
  simp only [comparedStep, Option.map_none, Option.map_some, hk]
  exact .wrong _ _

theorem endAlike_rulePatternStep (r : PatternLiteral.Reading) (ht : Mode.startsClause t) :
    (rulePatternStep (r.step none)).EndAlike (rulePatternStep (r.step (some t))) := by
  obtain ⟨kinds, hc⟩ := r.step_none
  obtain ⟨c', hc'⟩ := r.wrong_of_startsClause ht
  rw [hc, hc']
  exact .wrong _ c'

/-- No clause takes a word that starts another one, and none goes on at the end of the input. -/
theorem endAlike_step (c : Clause) (ht : Mode.startsClause t) :
    (c.step none).EndAlike (c.step (some t)) := by
  obtain ⟨k, hk, hif, helse⟩ := exists_keyword_of_startsClause ht
  have hname : t.kind ≠ .name := by simp [hk]
  have hsymbol : ∀ s, t.kind ≠ .symbol s := by simp [hk]
  unfold step
  cases c with
  | varName | dateName => exact endAlike_take hname _
  | varAssign name | dateAssign name | ruleComma when | openTest place | openYes place test =>
      exact endAlike_take (hsymbol _) _
  | initial name r =>
      have h := r.endAlike_step ht
      dsimp only
      generalize r.step none = s, r.step (some t) = s' at h
      cases h with
      | done e =>
          simp only [initialStep, Option.any_none, Option.any_some, hk, reduceCtorEq, decide_false]
          exact .before _
      | wrong c c' => exact .wrong c c'
  | varProperties name e r =>
      obtain ⟨kinds, hc⟩ := r.step_none
      obtain ⟨c', hc'⟩ := r.wrong_of_startsClause ht
      dsimp only
      rw [hc, hc']
      exact .wrong _ c'
  | datePattern name r =>
      obtain ⟨kinds, hc⟩ := r.step_none
      obtain ⟨c', hc'⟩ := r.wrong_of_startsClause ht
      dsimp only
      rw [hc, hc']
      exact .wrong _ c'
  | ruleWhen =>
      dsimp only
      rw [ruleWhenStep_of_ne_name hname]
      exact endAlike_rulePatternStep PatternLiteral.start ht
  | rulePattern r => exact endAlike_rulePatternStep r ht
  | action place => exact endAlike_actionStep place ht
  | inside place done => exact endAlike_insideStep place done ht
  | operator place target =>
      simp only [operatorStep, Option.bind_none, Option.bind_some, hk, assignOp?]
      exact .wrong _ _
  | value place target op r =>
      have h := r.endAlike_step ht
      dsimp only
      generalize r.step none = s, r.step (some t) = s' at h
      cases h with
      | done e => exact endAlike_besideAction _ ht
      | wrong c c' => exact .wrong c c'
  | compareLeft place before r =>
      have h := r.endAlike_step ht
      dsimp only
      generalize r.step none = s, r.step (some t) = s' at h
      cases h with
      | done e =>
          simp only [compareLeftStep, Option.bind_none, Option.bind_some, hk, compareOp?]
          exact .wrong _ _
      | wrong c c' => exact .wrong c c'
  | compareRight place before lhs op r =>
      have h := r.endAlike_step ht
      dsimp only
      generalize r.step none = s, r.step (some t) = s' at h
      cases h with
      | done e => exact endAlike_comparedStep place before _ ht
      | wrong c c' => exact .wrong c c'
  | afterYes place test yes =>
      have hno : ¬ t.kind = .keyword .elseWord := by simpa [hk] using helse
      simp only [afterYesStep, Option.any_none, Option.any_some, hno, decide_false]
      exact endAlike_besideAction _ ht
  | afterElse place test yes =>
      have hwrong : afterElseStep place test yes (some t) = .wrong (.expected elseKinds) := by
        rw [afterElseStep, Option.map_some, hk]
        split <;> simp_all
      dsimp only
      rw [hwrong]
      exact .wrong _ _

end Clause

end EndAlike

/-- The same blame, except that one at the end of the input has moved to the token that comes
there. -/
structure Blame.MovedTo (first : Option Token) (b b' : Blame) : Prop where
  token : b'.token = b.token.or first
  eq_of_isSome : b.token.isSome → b' = b

/-- The same event of a script without options, up to where the end of the input is blamed. -/
inductive Event.MovedTo (first : Option Token) : Event → Event → Prop
  | declaration (d : Declaration) : MovedTo first (.declaration d) (.declaration d)
  | fault {b b' : Blame} (h : b.MovedTo first b') : MovedTo first (.fault b) (.fault b')

theorem Blame.MovedTo.refl_none (b : Blame) : b.MovedTo none b := ⟨Option.or_none.symm, fun _ => rfl⟩

theorem Blame.MovedTo.of_token {t : Token} (first : Option Token) (c : Cause) :
    MovedTo first ⟨some t, c⟩ ⟨some t, c⟩ := ⟨rfl, fun _ => rfl⟩

namespace Mode

inductive BeforeOptions : Mode → Prop
  | between : BeforeOptions .between
  | clause (c : Clause) : BeforeOptions (.clause c)
  | skipping : BeforeOptions .skipping

variable (first : Option Token) {mode : Mode} {t : Token}

theorem beforeOptions_betweenStep (ht : t.kind ≠ .keyword .optionsWord) :
    (betweenStep t).2.BeforeOptions ∧ ∀ e ∈ (betweenStep t).1, e.MovedTo first e := by
  rw [betweenStep]
  split
  case h_5 hoptions => exact absurd hoptions ht
  case h_6 => exact ⟨.skipping, List.forall_mem_singleton.mpr (.fault (.of_token first _))⟩
  all_goals exact ⟨by constructor, List.forall_mem_nil _⟩

theorem beforeOptions_skippingStep (ht : t.kind ≠ .keyword .optionsWord) :
    (skippingStep t).2.BeforeOptions ∧ ∀ e ∈ (skippingStep t).1, e.MovedTo first e := by
  rw [skippingStep]
  split_ifs
  · exact beforeOptions_betweenStep first ht
  · exact ⟨.skipping, List.forall_mem_nil _⟩

theorem BeforeOptions.step (hmode : mode.BeforeOptions) (ht : t.kind ≠ .keyword .optionsWord) :
    (mode.step t).2.BeforeOptions ∧ ∀ e ∈ (mode.step t).1, e.MovedTo first e := by
  cases hmode with
  | between => exact beforeOptions_betweenStep first ht
  | skipping => exact beforeOptions_skippingStep first ht
  | clause c =>
      rw [Mode.step]
      cases c.step (some t) with
      | more c => exact ⟨.clause c, List.forall_mem_nil _⟩
      | last d => exact ⟨.between, List.forall_mem_singleton.mpr (.declaration d)⟩
      | before d =>
          obtain ⟨hmode, hevents⟩ := beforeOptions_betweenStep first ht
          exact ⟨hmode, List.forall_mem_cons.mpr ⟨.declaration d, hevents⟩⟩
      | wrong cause =>
          obtain ⟨hmode, hevents⟩ := beforeOptions_skippingStep first ht
          exact ⟨hmode, List.forall_mem_cons.mpr ⟨.fault (.of_token first cause), hevents⟩⟩

theorem BeforeOptions.finish (hmode : mode.BeforeOptions) :
    ∀ e ∈ mode.finish, e.MovedTo none e := by
  cases hmode with
  | between | skipping => exact List.forall_mem_nil _
  | clause c =>
      rw [Mode.finish]
      split
      · exact List.forall_mem_singleton.mpr (.declaration _)
      · exact List.forall_mem_singleton.mpr (.declaration _)
      · exact List.forall_mem_singleton.mpr (.fault (.refl_none _))
      · exact List.forall_mem_nil _

theorem BeforeOptions.step_of_startsClause (hmode : mode.BeforeOptions) (ht : startsClause t) :
    ∃ moved, List.Forall₂ (Event.MovedTo (some t)) mode.finish moved ∧
      mode.step t = (moved ++ (betweenStep t).1, (betweenStep t).2) := by
  cases hmode with
  | between => exact ⟨[], .nil, rfl⟩
  | skipping => exact ⟨[], .nil, if_pos ht⟩
  | clause c =>
      have h := c.endAlike_step ht
      rw [Mode.step, Mode.finish]
      generalize c.step none = o, c.step (some t) = o' at h
      cases h with
      | before d => exact ⟨[.declaration d], .cons (.declaration d) .nil, rfl⟩
      | wrong cause cause' =>
          refine ⟨[.fault ⟨some t, cause'⟩], .cons (.fault ⟨rfl, by simp⟩) .nil, ?_⟩
          rw [clauseStep, skippingStep, if_pos ht]
          rfl

theorem BeforeOptions.read_append (hmode : mode.BeforeOptions) {A B : List Token}
    (hA : ∀ t ∈ A, t.kind ≠ .keyword .optionsWord) (hB : ∀ t ∈ B.head?, startsClause t) :
    ∃ moved, List.Forall₂ (Event.MovedTo B.head?) (mode.read A) moved ∧
      mode.read (A ++ B) = moved ++ Mode.between.read B := by
  induction A generalizing mode with
  | nil =>
      cases B with
      | nil =>
          refine ⟨mode.finish, List.forall₂_same.mpr hmode.finish, ?_⟩
          exact (List.append_nil _).symm
      | cons t B =>
          obtain ⟨moved, hmoved, hstep⟩ := hmode.step_of_startsClause (hB t rfl)
          refine ⟨moved, hmoved, ?_⟩
          rw [List.nil_append, read, hstep, List.append_assoc, read, Mode.step]
  | cons t A ih =>
      obtain ⟨ht, hA⟩ := List.forall_mem_cons.mp hA
      obtain ⟨hnext, hevents⟩ := hmode.step B.head? ht
      obtain ⟨moved, hmoved, hread⟩ := ih hnext hA
      refine ⟨(mode.step t).1 ++ moved, ?_, ?_⟩
      · exact List.rel_append (List.forall₂_same.mpr hevents) hmoved
      · rw [List.cons_append, read, hread, List.append_assoc]

end Mode

section Moved

variable {first : Option Token} {events moved : List Event}

theorem declarations_of_moved (h : List.Forall₂ (Event.MovedTo first) events moved) :
    moved.filterMap Event.declaration? = events.filterMap Event.declaration? := by
  induction h with
  | nil => rfl
  | cons he _ ih =>
      cases he with
      | declaration d =>
          simp only [List.filterMap_cons, Event.declaration?]
          rw [ih]
      | fault hb =>
          simp only [List.filterMap_cons, Event.declaration?]
          rw [ih]

theorem options_of_moved (h : List.Forall₂ (Event.MovedTo first) events moved) :
    moved.findSome? Event.options? = none := by
  induction h with
  | nil => rfl
  | cons he _ ih =>
      cases he with
      | declaration d | fault hb => simp only [List.findSome?_cons, Event.options?, ih]

theorem blames_of_moved (h : List.Forall₂ (Event.MovedTo first) events moved) :
    List.Forall₂ (Blame.MovedTo first) (events.filterMap Event.blame?)
      (moved.filterMap Event.blame?) := by
  induction h with
  | nil => exact .nil
  | cons he _ ih =>
      cases he with
      | declaration d => exact ih
      | fault hb => exact .cons hb ih

end Moved

/-- Recovery is compositional. Where a word starts a clause, the declarations and the options of the
tokens from there on are read as they are by themselves, and so are their faults; those of the
tokens before stay as they are, but what they blame on the end of the input is blamed on that
word. -/
theorem Script.ofTokens_append {A B : List Token} (hA : ∀ t ∈ A, t.kind ≠ .keyword .optionsWord)
    (hB : ∀ t ∈ B.head?, Mode.startsClause t) :
    (ofTokens (A ++ B)).1 = ⟨(ofTokens A).1.declarations ++ (ofTokens B).1.declarations,
        (ofTokens B).1.options⟩ ∧
      ∃ moved, List.Forall₂ (Blame.MovedTo B.head?) (ofTokens A).2 moved ∧
        (ofTokens (A ++ B)).2 = moved ++ (ofTokens B).2 := by
  obtain ⟨moved, hmoved, hread⟩ := Mode.BeforeOptions.between.read_append hA hB
  have hdeclarations := declarations_of_moved hmoved
  have hoptions := options_of_moved hmoved
  refine ⟨?_, moved.filterMap Event.blame?, blames_of_moved hmoved, ?_⟩
  · simp only [ofTokens, ofEvents, hread, List.filterMap_append, List.findSome?_append,
      hdeclarations, hoptions, Option.none_or]
  · simp only [ofTokens, hread, List.filterMap_append]

theorem tokens_of_moved {first : Option Token} {blames moved : List Blame}
    (h : List.Forall₂ (Blame.MovedTo first) blames moved) :
    moved.map Blame.token = blames.map (·.token.or first) := by
  induction h with
  | nil => rfl
  | cons hb _ ih => rw [List.map_cons, List.map_cons, hb.token, ih]

namespace Script

def brokenRule : List Token := Token.ofText "var a = 1; at *-*-*, a +=".toList

def brokenVar : List Token := Token.ofText "date d = 2024-*-1 var b =".toList

theorem ofTokens_append_brokenRule :
    (ofTokens (brokenRule ++ brokenVar)).1.declarations.length = 2 ∧
      (ofTokens brokenRule).2.map Blame.token = [none] ∧
      (ofTokens (brokenRule ++ brokenVar)).2.map Blame.token = [brokenVar.head?, none] := by
  have hA : ∀ t ∈ brokenRule, t.kind ≠ .keyword .optionsWord := by decide +kernel
  have hB : ∀ t ∈ brokenVar.head?, Mode.startsClause t := by decide +kernel
  have hrule : (ofTokens brokenRule).2.map Blame.token = [none] := by decide +kernel
  have hvar : (ofTokens brokenVar).2.map Blame.token = [none] := by decide +kernel
  obtain ⟨hscript, moved, hmoved, hblames⟩ := ofTokens_append hA hB
  refine ⟨?_, hrule, ?_⟩
  · rw [hscript, List.length_append]
    decide +kernel
  · have htokens : moved.map Blame.token =
        ((ofTokens brokenRule).2.map Blame.token).map (·.or brokenVar.head?) := by
      rw [tokens_of_moved hmoved, List.map_map]
      rfl
    rw [hblames, List.map_append, htokens, hrule, hvar]
    rfl

end Script

end Forecast
