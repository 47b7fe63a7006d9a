import Forecast.Proofs.Script.Expected

namespace Forecast

/-- What is blamed in a mode on the next token: that it is one too many, or what the part that is
being read finds wrong with it. -/
inductive Mode.Blames : Mode → Option Token → Blame → Prop
  | extraneous (m : Mode) (t : Token) : Blames m (some t) ⟨some t, .extraneous⟩
  | clause {c : Clause} {t : Option Token} {cause : Cause} (h : c.step t = .wrong cause) :
      Blames (.clause c) t ⟨t, cause⟩
  | options {r : PropertyList.Reading} {t : Option Token} {cause : Cause}
      (h : r.step t = .wrong cause) : Blames (.options r) t ⟨t, cause⟩

namespace Mode

variable {m : Mode} {t : Token} {ts : List Token} {b : Blame}

theorem blames_of_betweenStep (h : .fault b ∈ (betweenStep t).1) : m.Blames (some t) b := by
  rw [betweenStep] at h
  split at h
  case h_6 =>
    cases List.mem_singleton.mp h
    exact .extraneous m t
  all_goals cases h

theorem blames_of_skippingStep (h : .fault b ∈ (skippingStep t).1) : m.Blames (some t) b := by
  rw [skippingStep] at h
  split_ifs at h
  · exact blames_of_betweenStep h
  · cases h

theorem blames_of_skippingOptionsStep (h : .fault b ∈ (skippingOptionsStep t).1) :
    m.Blames (some t) b := by
  rw [skippingOptionsStep] at h
  split_ifs at h
  · cases List.mem_singleton.mp h
    exact .extraneous m t
  · cases h

theorem blames_of_step (h : .fault b ∈ (m.step t).1) : m.Blames (some t) b := by
  cases m with
  | between => exact blames_of_betweenStep h
  | skipping => exact blames_of_skippingStep h
  | skippingOptions => exact blames_of_skippingOptionsStep h
  | ended => cases h
  | clause c =>
      rw [step] at h
      cases ho : c.step (some t) with
      | more c' =>
          rw [ho] at h
          cases h
      | last d =>
          rw [ho] at h
          cases List.mem_singleton.mp h
      | before d =>
          rw [ho] at h
          rcases List.mem_cons.mp h with h | h
          · cases h
          · exact blames_of_betweenStep h
      | wrong cause =>
          rw [ho] at h
          rcases List.mem_cons.mp h with h | h
          · cases h
            exact .clause ho
          · exact blames_of_skippingStep h
  | options r =>
      rw [step] at h
      cases ho : r.step (some t) with
      | more r' =>
          rw [ho] at h
          cases h
      | done ps =>
          rw [ho] at h
          cases List.mem_singleton.mp h
      | wrong cause =>
          rw [ho] at h
          rcases List.mem_cons.mp h with h | h
          · cases h
            exact .options ho
          · exact blames_of_skippingOptionsStep h
  | closed =>
      rw [step, closedStep] at h
      split_ifs at h
      · cases h
      · cases List.mem_singleton.mp h
        exact .extraneous _ t

theorem blames_of_finish (h : .fault b ∈ m.finish) : m.Blames none b := by
  cases m with
  | between | skipping | skippingOptions | closed | ended => cases h
  | clause c =>
      rw [finish] at h
      split at h
      · cases List.mem_singleton.mp h
      · cases List.mem_singleton.mp h
      · rename_i cause ho
        cases List.mem_singleton.mp h
        exact .clause ho
      · cases h
  | options r =>
      obtain ⟨kinds, ho⟩ := r.step_none
      rw [finish, ho] at h
      cases List.mem_singleton.mp h
      exact .options ho

theorem exists_blames_of_read (h : .fault b ∈ m.read ts) :
    ∃ before after m', ts = before ++ after ∧ Blames m' after.head? b := by
  induction ts generalizing m with
  | nil => exact ⟨[], [], m, rfl, blames_of_finish h⟩
  | cons t ts ih =>
      rcases List.mem_append.mp h with h | h
      · exact ⟨[], t :: ts, m, rfl, blames_of_step h⟩
      · obtain ⟨before, after, m', rfl, hb⟩ := ih h
        exact ⟨t :: before, after, m', rfl, hb⟩

end Mode

/-- A blame on one of the tokens, or on the end of the input where more was expected. -/
def Blame.IsOn (ts : List Token) (b : Blame) : Prop :=
  (∃ t ∈ ts, b.token = some t) ∨ b.token = none ∧ ∃ kinds, b.cause = .expected kinds

theorem Mode.Blames.token_eq {m : Mode} {t : Option Token} {b : Blame} (h : m.Blames t b) :
    b.token = t := by
  cases h <;> rfl

theorem Mode.Blames.fits {m : Mode} {t : Option Token} {b : Blame} (h : m.Blames t b) :
    b.cause = .extraneous ∧ t.isSome ∨ ∃ Takes, b.cause.Fits Takes t := by
  cases h with
  | extraneous => exact .inl ⟨rfl, rfl⟩
  | clause h => exact .inr ⟨_, Clause.fits_step h⟩
  | options h => exact .inr ⟨_, PropertyList.Reading.fits_step h⟩

theorem Mode.Blames.expected_of_none {m : Mode} {b : Blame} (h : m.Blames none b) :
    ∃ kinds, b.cause = .expected kinds := by
  rcases h.fits with ⟨-, hsome⟩ | ⟨Takes, hfits⟩
  · cases hsome
  · exact hfits.expected_of_none

theorem Mode.Blames.isOn {m : Mode} {before after : List Token} {b : Blame}
    (h : m.Blames after.head? b) : b.IsOn (before ++ after) := by
  cases after with
  | nil => exact .inr ⟨h.token_eq, h.expected_of_none⟩
  | cons t after => exact .inl ⟨t, List.mem_append_right before List.mem_cons_self, h.token_eq⟩

namespace Script

variable {ts : List Token} {b : Blame}

theorem exists_blames_of_mem (h : b ∈ (ofTokens ts).2) :
    ∃ before after m, ts = before ++ after ∧ Mode.Blames m after.head? b := by
  obtain ⟨e, he, hb⟩ := List.mem_filterMap.mp h
  cases e with
  | declaration d | options ps => cases hb
  | fault b' =>
      obtain rfl := Option.some.inj hb
      exact Mode.exists_blames_of_read he

theorem isOn_of_mem_ofTokens (h : b ∈ (ofTokens ts).2) : b.IsOn ts := by
  obtain ⟨before, after, m, rfl, hb⟩ := exists_blames_of_mem h
  exact hb.isOn

end Script

end Forecast
