import Forecast.Proofs.Script.Recovery

namespace Forecast

open List (Sublist)

def blamedTokens (events : List Event) : List (Option Token) :=
  (events.filterMap Event.blame?).map Blame.token

theorem blamedTokens_fault (b : Blame) (events : List Event) :
    blamedTokens (.fault b :: events) = b.token :: blamedTokens events := rfl

theorem blamedTokens_append (events events' : List Event) :
    blamedTokens (events ++ events') = blamedTokens events ++ blamedTokens events' := by
  rw [blamedTokens, List.filterMap_append, List.map_append]
  rfl

namespace Mode

variable {m : Mode} {t : Token} {ts : List Token}

def readsOptions : Mode → Bool
  | options _ => true
  | _ => false

/-- While the options are read, a word comes that starts a clause. -/
def breaksOff (m : Mode) : List Token → Bool
  | [] => false
  | t :: ts => (m.readsOptions && startsClause t) || (m.step t).2.breaksOff ts

theorem breaksOff_cons_iff : m.breaksOff (t :: ts) ↔
    (∃ r, m = .options r ∧ startsClause t) ∨ (m.step t).2.breaksOff ts := by
  rw [breaksOff, Bool.or_eq_true, Bool.and_eq_true]
  cases m <;> simp [readsOptions]

theorem blamedTokens_betweenStep (t : Token) : Sublist (blamedTokens (betweenStep t).1) [some t] := by
  rw [betweenStep]
  split
  case h_6 => exact .refl _
  all_goals exact List.nil_sublist _

theorem blamedTokens_betweenStep_of_startsClause (ht : startsClause t) :
    blamedTokens (betweenStep t).1 = [] := by
  rcases kind_of_startsClause ht with ht | ht | ht | ht <;> rw [betweenStep, ht] <;> rfl

theorem blamedTokens_skippingStep (t : Token) : blamedTokens (skippingStep t).1 = [] := by
  rw [skippingStep]
  split_ifs with ht
  · exact blamedTokens_betweenStep_of_startsClause ht
  · rfl

theorem blamedTokens_clauseStep (t : Token) (o : Clause.Outcome) :
    Sublist (blamedTokens (clauseStep t o).1) [some t] := by
  cases o with
  | more c | last d => exact List.nil_sublist _
  | before d => exact blamedTokens_betweenStep t
  | wrong cause =>
      rw [clauseStep, blamedTokens_fault, blamedTokens_skippingStep]

theorem blamedTokens_skippingOptionsStep (t : Token) :
    Sublist (blamedTokens (skippingOptionsStep t).1) [some t] := by
  rw [skippingOptionsStep]
  split_ifs
  · exact .refl _
  · exact List.nil_sublist _

theorem blamedTokens_optionsStep (ht : ¬ startsClause t)
    (s : Step PropertyList.Reading (List Property)) :
    Sublist (blamedTokens (optionsStep t s).1) [some t] := by
  cases s with
  | more r | done ps => exact List.nil_sublist _
  | wrong cause =>
      rw [optionsStep, skippingOptionsStep, if_neg ht]
      exact .refl _

theorem blamedTokens_closedStep (t : Token) : Sublist (blamedTokens (closedStep t).1) [some t] := by
  rw [closedStep]
  split_ifs
  · exact List.nil_sublist _
  · exact .refl _

theorem blamedTokens_step (h : ∀ r, m = .options r → ¬ startsClause t) :
    Sublist (blamedTokens (m.step t).1) [some t] := by
  cases m with
  | between => exact blamedTokens_betweenStep t
  | clause c => exact blamedTokens_clauseStep t _
  | skipping =>
      rw [step, blamedTokens_skippingStep]
      exact List.nil_sublist _
  | options r => exact blamedTokens_optionsStep (h r rfl) _
  | skippingOptions => exact blamedTokens_skippingOptionsStep t
  | closed => exact blamedTokens_closedStep t
  | ended => exact List.nil_sublist _

theorem blamedTokens_finish (m : Mode) : Sublist (blamedTokens m.finish) [none] := by
  cases m with
  | clause c | options r =>
      rw [finish]
      split
      all_goals first | exact .refl _ | exact List.nil_sublist _
  | between | skipping | skippingOptions | closed | ended => exact List.nil_sublist _

theorem read_ended (ts : List Token) : ended.read ts = [] := by
  induction ts with
  | nil => rfl
  | cons t ts ih => rw [read, step, ih, List.append_nil]

theorem read_options_of_startsClause (r : PropertyList.Reading) (ht : startsClause t) :
    ∃ cause, (Mode.options r).read (t :: ts) = [.fault ⟨some t, cause⟩, extraneous t] := by
  obtain ⟨cause, hwrong⟩ := r.wrong_of_startsClause ht
  refine ⟨cause, ?_⟩
  rw [read, step, hwrong, optionsStep, skippingOptionsStep, if_pos ht, read_ended, List.append_nil]

theorem blamedTokens_read (h : ¬ m.breaksOff ts) :
    Sublist (blamedTokens (m.read ts)) (ts.map some ++ [none]) := by
  induction ts generalizing m with
  | nil => exact blamedTokens_finish m
  | cons t ts ih =>
      rw [breaksOff_cons_iff, not_or] at h
      have hstep := blamedTokens_step fun r hm ht => h.1 ⟨r, hm, ht⟩
      rw [read, blamedTokens_append]
      exact hstep.append (ih h.2)

theorem exists_read_of_breaksOff (h : m.breaksOff ts) :
    ∃ (first : List Event) (t : Token) (cause : Cause), startsClause t ∧
      m.read ts = first ++ [.fault ⟨some t, cause⟩, extraneous t] ∧
      Sublist (blamedTokens first ++ [some t]) (ts.map some) := by
  induction ts generalizing m with
  | nil => cases h
  | cons t ts ih =>
      by_cases hhere : ∃ r, m = .options r ∧ startsClause t
      · obtain ⟨r, rfl, ht⟩ := hhere
        obtain ⟨cause, hread⟩ := read_options_of_startsClause r ht
        exact ⟨[], t, cause, ht, hread, .cons_cons _ (List.nil_sublist _)⟩
      · have hlater := (breaksOff_cons_iff.mp h).resolve_left hhere
        obtain ⟨first, t', cause, ht', hread, hfirst⟩ := ih hlater
        have hstep := blamedTokens_step fun r hm ht => hhere ⟨r, hm, ht⟩
        refine ⟨(m.step t).1 ++ first, t', cause, ht', ?_, ?_⟩
        · rw [read, hread, List.append_assoc]
        · rw [blamedTokens_append, List.append_assoc]
          exact hstep.append hfirst

end Mode

namespace Script

/-- The log follows the tokens and blames each of them at most once, unless a word that starts a
clause breaks off the options. Then that word comes last in the log, and comes twice. -/
theorem ofTokens_blamesOnce (ts : List Token) :
    (¬ Mode.between.breaksOff ts →
      Sublist ((ofTokens ts).2.map Blame.token) (ts.map some ++ [none])) ∧
    (Mode.between.breaksOff ts → ∃ first t cause, Mode.startsClause t ∧
      (ofTokens ts).2 = first ++ [⟨some t, cause⟩, ⟨some t, .extraneous⟩] ∧
      Sublist (first.map Blame.token ++ [some t]) (ts.map some)) := by
  refine ⟨Mode.blamedTokens_read, fun h => ?_⟩
  obtain ⟨first, t, cause, ht, hread, hfirst⟩ := Mode.exists_read_of_breaksOff h
  refine ⟨first.filterMap Event.blame?, t, cause, ht, ?_, hfirst⟩
  rw [ofTokens, hread, List.filterMap_append]
  rfl

def brokenOff : List Token := Token.ofText "var = 1 options \x7b height: var a = 1".toList

theorem ofTokens_blamesOnce_brokenOff : ∃ first t cause, Mode.startsClause t ∧
    (ofTokens brokenOff).2 = first ++ [⟨some t, cause⟩, ⟨some t, .extraneous⟩] ∧
    Sublist (first.map Blame.token ++ [some t]) (brokenOff.map some) :=
  (ofTokens_blamesOnce brokenOff).2 (by decide +kernel)

def doubled : List Token := Token.ofText "options \x7b height: var a = 1".toList

theorem not_sublist_doubled :
    ¬ Sublist ((ofTokens doubled).2.map Blame.token) (doubled.map some ++ [none]) := by
  decide +kernel

end Script

end Forecast
