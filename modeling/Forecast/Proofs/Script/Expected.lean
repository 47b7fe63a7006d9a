import Forecast.Proofs.Script.Completion

namespace Forecast

open Clause

open Token.Kind (sample isLexeme_sample)

/-- What is wrong with a token is told rightly: it is of none of the kinds that were expected, and
a token of each of these would be taken; or there is a token, which is unfit as a part of a date or
is a numeral that writes no number. -/
inductive Cause.Fits (Takes : Token → Prop) (t : Option Token) : Cause → Prop
  | expected {kinds : List Token.Kind} (hnot : ∀ t' ∈ t, t'.kind ∉ kinds)
      (htakes : ∀ k ∈ kinds, Takes k.sample) : Fits Takes t (.expected kinds)
  | datePart (ht : t.isSome) : Fits Takes t .datePart
  | number (hunfit : ∃ t' ∈ t, t'.IsUnfit) : Fits Takes t .number

variable {t : Option Token} {cause : Cause}

namespace Cause.Fits

variable {Takes Takes' : Token → Prop}

theorem imp (h : cause.Fits Takes t) (himp : ∀ t', Takes t' → Takes' t') : cause.Fits Takes' t := by
  cases h with
  | expected hnot htakes => exact .expected hnot fun k hk => himp _ (htakes k hk)
  | datePart ht => exact .datePart ht
  | number hunfit => exact .number hunfit

theorem expected_of_none (h : cause.Fits Takes none) : ∃ kinds, cause = .expected kinds := by
  cases h with
  | expected hnot htakes => exact ⟨_, rfl⟩
  | datePart ht => cases ht
  | number hunfit =>
      obtain ⟨t, ⟨⟩, -⟩ := hunfit

theorem of_isLexeme (h : cause.Fits Takes t) (ht : ∀ t' ∈ t, t'.IsLexeme) :
    cause = .datePart ∨ ∃ kinds, cause = .expected kinds := by
  cases h with
  | expected hnot htakes => exact .inr ⟨_, rfl⟩
  | datePart => exact .inl rfl
  | number hunfit =>
      obtain ⟨t', ht', hunfit⟩ := hunfit
      exact absurd hunfit (ht t' ht').not_isUnfit

theorem atEnd {kinds : List Token.Kind} (htakes : ∀ k ∈ kinds, Takes k.sample) :
    (Cause.expected kinds).Fits Takes none :=
  .expected (by simp) htakes

theorem single (k : Token.Kind) (hnot : ∀ t' ∈ t, t'.kind ≠ k) (htakes : Takes k.sample) :
    (Cause.expected [k]).Fits Takes t :=
  .expected (by simpa using hnot) (List.forall_mem_singleton.mpr htakes)

end Cause.Fits

namespace Step

variable {σ α : Type}

def Takes : Step σ α → Prop
  | more _ => True
  | done _ => True
  | wrong _ => False

theorem of_take_eq_wrong {kind : Token.Kind} {f : Token → σ}
    (h : (take kind t f : Step σ α) = .wrong cause) :
    cause = .expected [kind] ∧ ∀ t' ∈ t, t'.kind ≠ kind := by
  cases t with
  | none => exact ⟨(Step.wrong.inj h).symm, by simp⟩
  | some t =>
      rw [take] at h
      split_ifs at h with ht
      refine ⟨(Step.wrong.inj h).symm, ?_⟩
      rintro _ ⟨⟩
      exact ht

end Step

namespace Arithmetic

variable {e : NumberExpr} {sum : Left} {inner : Pending} {outer : List Pending}

theorem more_of_mem_operandKinds {k : Token.Kind} (hk : k ∈ operandKinds) :
    ∃ r, Reading.step (.operand inner outer) (some k.sample) = .more r := by
  simp only [operandKinds, List.mem_cons, List.not_mem_nil, or_false] at hk
  rcases hk with rfl | rfl | rfl | rfl
  · exact ⟨_, rfl⟩
  · obtain ⟨e, hstep⟩ := step_operand_number inner outer
    exact ⟨_, hstep⟩
  · exact ⟨_, rfl⟩
  · exact ⟨_, rfl⟩

theorem fits_operandStep (h : operandStep inner outer t = .wrong cause) :
    cause.Fits (fun t' => ∃ r, Reading.step (.operand inner outer) (some t') = .more r) t := by
  cases t with
  | none =>
      obtain rfl := Step.wrong.inj h
      exact .atEnd fun k => more_of_mem_operandKinds
  | some t =>
      rw [operandStep] at h
      split at h
      · cases h
      · rename_i ht
        split at h
        · cases h
        · rename_i hnone
          obtain rfl := Step.wrong.inj h
          exact .number ⟨t, rfl, ht, hnone⟩
      · cases h
      · cases h
      · obtain rfl := Step.wrong.inj h
        refine .expected ?_ fun k => more_of_mem_operandKinds
        simp_all [operandKinds]

theorem Reading.fits_step {r : Reading} (h : r.step t = .wrong cause) :
    cause.Fits (fun t' => ∃ r', r.step (some t') = .more r') t := by
  cases r with
  | operand inner outer => exact fits_operandStep h
  | product e sum outer =>
      rw [step, productStep] at h
      split at h
      · cases h
      · cases h
      · cases outer with
        | nil => cases h
        | cons p outer =>
            obtain ⟨rfl, hnot⟩ := Step.of_take_eq_wrong h
            exact .single _ hnot ⟨_, step_product_closeParen e sum p outer⟩

theorem more_of_continues {t : Token} (ht : Continues t) :
    ∃ r, Reading.step (.product e sum outer) (some t) = .more r := by
  obtain ⟨op, hop⟩ := ht
  cases op with
  | mul | div => exact ⟨_, productStep_of_product (by simp) hop⟩
  | add | sub => exact ⟨_, productStep_of_sum (by simp) hop⟩

theorem Reading.of_step_eq_done {r : Reading} (h : r.step t = .done e) :
    (∃ e' sum, r = .product e' sum [] ∧ e = sum.combine e') ∧ ∀ t' ∈ t, ¬ Continues t' := by
  cases r with
  | operand inner outer => exact absurd h (operandStep_ne_done t)
  | product e' sum outer =>
      have hnot : ∀ t' ∈ t, ¬ Continues t' := by
        rintro t' rfl hcontinues
        obtain ⟨r, hr⟩ := more_of_continues hcontinues
        rw [hr] at h
        cases h
      rw [step, productStep_of_not_continues hnot] at h
      cases outer with
      | cons p outer => exact absurd h (Step.take_ne_done _ _ _ _)
      | nil => exact ⟨⟨e', sum, rfl, (Step.done.inj h).symm⟩, hnot⟩

end Arithmetic

namespace PatternLiteral

theorem takes_complete (leading : Leading) (p : PartLiteral) : (leading.complete p).Takes := by
  cases leading <;> trivial

theorem takes_of_mem_partKinds {leading : Leading} {k : Token.Kind} (hk : k ∈ partKinds) :
    (partStep leading (some k.sample)).Takes := by
  simp only [partKinds, List.mem_cons, List.not_mem_nil, or_false] at hk
  rcases hk with rfl | rfl | rfl
  · have hn := (magnitude?_eq_some_iff rfl).mpr Token.Kind.isInteger_sample
    simp only [partStep, Token.Kind.kind_sample, numberStep, hn]
    exact takes_complete leading _
  · trivial
  · exact takes_complete leading _

theorem fits_numberStep {Takes : Token → Prop} {leading : Leading} {minus : Option Span}
    {t : Token} (h : numberStep leading minus t = .wrong cause) : cause.Fits Takes (some t) := by
  have hcomplete : ∀ p, leading.complete p ≠ .wrong cause := by
    intro p hp
    have htakes := takes_complete leading p
    rwa [hp] at htakes
  unfold numberStep at h
  split at h
  · exact absurd h (hcomplete _)
  · exact absurd h (hcomplete _)
  · obtain rfl := Step.wrong.inj h
    exact .datePart rfl

theorem fits_partStep {leading : Leading} (h : partStep leading t = .wrong cause) :
    cause.Fits (fun t' => (partStep leading (some t')).Takes) t := by
  cases t with
  | none =>
      obtain rfl := Step.wrong.inj h
      exact .atEnd fun k => takes_of_mem_partKinds
  | some t =>
      rw [partStep] at h
      split at h
      · exact absurd (takes_complete leading _) (by rw [h]; exact id)
      · cases h
      · exact fits_numberStep h
      · obtain rfl := Step.wrong.inj h
        refine .expected ?_ fun k => takes_of_mem_partKinds
        simp_all [partKinds]

theorem fits_magnitudeStep {leading : Leading} {minus : Span}
    (h : magnitudeStep leading minus t = .wrong cause) :
    cause.Fits (fun t' => (magnitudeStep leading minus (some t')).Takes) t := by
  have htakes : (magnitudeStep leading minus (some (sample .number))).Takes := by
    have hn := (magnitude?_eq_some_iff rfl).mpr Token.Kind.isInteger_sample
    simp only [magnitudeStep, Token.Kind.kind_sample, if_pos, numberStep, hn]
    exact takes_complete leading _
  cases t with
  | none =>
      obtain rfl := Step.wrong.inj h
      exact .atEnd (List.forall_mem_singleton.mpr htakes)
  | some t =>
      rw [magnitudeStep] at h
      split_ifs at h with ht
      · exact fits_numberStep h
      · obtain rfl := Step.wrong.inj h
        exact .single .number (by simpa using ht) htakes

theorem fits_separatorStep {year : PartLiteral} {month : Option PartLiteral}
    (h : separatorStep year month t = .wrong cause) :
    cause.Fits (fun t' => (separatorStep year month (some t')).Takes) t := by
  unfold separatorStep at h
  split_ifs at h with ht
  · cases month <;> cases h
  · obtain rfl := Step.wrong.inj h
    refine .expected ?_ fun k hk => ?_
    · rintro t' rfl hk
      exact ht (by simpa using hk)
    · have hseparator := isDateSeparator_of_contains (t := k.sample) (by simpa using hk)
      rw [separatorStep_of_isDateSeparator hseparator]
      trivial

theorem Reading.fits_step {r : Reading} (h : r.step t = .wrong cause) :
    cause.Fits (fun t' => (r.step (some t')).Takes) t := by
  cases r with
  | separator year month => exact fits_separatorStep h
  | part leading minus =>
      cases minus with
      | none => exact fits_partStep h
      | some minus => exact fits_magnitudeStep h

end PatternLiteral

namespace PropertyList

variable {done : List Property} {key : Ident}

theorem takes_addNumber (done : List Property) (key : Ident) (minus : Option Span) :
    (addNumber done key minus (sample .number)).Takes := by
  rw [addNumber_of_isLexeme minus (isLexeme_sample .number) rfl]
  trivial

theorem fits_addNumber {Takes : Token → Prop} {minus : Option Span} {t : Token}
    (ht : t.kind = .number) (h : addNumber done key minus t = .wrong cause) :
    cause.Fits Takes (some t) := by
  rw [addNumber] at h
  split at h
  · cases h
  · rename_i hnone
    obtain rfl := Step.wrong.inj h
    exact .number ⟨t, rfl, ht, hnone⟩

theorem takes_of_mem_entryKinds {k : Token.Kind} (hk : k ∈ entryKinds) :
    (entryStep done (some k.sample)).Takes := by
  simp only [entryKinds, List.mem_cons, List.not_mem_nil, or_false] at hk
  rcases hk with rfl | rfl <;> trivial

theorem fits_entryStep (h : entryStep done t = .wrong cause) :
    cause.Fits (fun t' => (entryStep done (some t')).Takes) t := by
  cases t with
  | none =>
      obtain rfl := Step.wrong.inj h
      exact .atEnd fun k => takes_of_mem_entryKinds
  | some t =>
      rw [entryStep] at h
      split at h
      case h_5 =>
        obtain rfl := Step.wrong.inj h
        refine .expected ?_ fun k => takes_of_mem_entryKinds
        simp_all [entryKinds]
      all_goals cases h

theorem takes_of_mem_valueKinds {k : Token.Kind} (hk : k ∈ valueKinds) :
    (valueStep done key (some k.sample)).Takes := by
  simp only [valueKinds, List.mem_cons, List.not_mem_nil, or_false] at hk
  rcases hk with rfl | rfl | rfl | rfl
  · trivial
  · exact takes_addNumber done key none
  · trivial
  · trivial

theorem fits_valueStep (h : valueStep done key t = .wrong cause) :
    cause.Fits (fun t' => (valueStep done key (some t')).Takes) t := by
  cases t with
  | none =>
      obtain rfl := Step.wrong.inj h
      exact .atEnd fun k => takes_of_mem_valueKinds
  | some t =>
      rw [valueStep] at h
      split at h
      · cases h
      · cases h
      · rename_i ht
        exact fits_addNumber ht h
      · cases h
      · obtain rfl := Step.wrong.inj h
        refine .expected ?_ fun k => takes_of_mem_valueKinds
        simp_all [valueKinds]

theorem fits_magnitudeStep {minus : Span} (h : magnitudeStep done key minus t = .wrong cause) :
    cause.Fits (fun t' => (magnitudeStep done key minus (some t')).Takes) t := by
  have htakes : (magnitudeStep done key minus (some (sample .number))).Takes :=
    takes_addNumber done key (some minus)
  cases t with
  | none =>
      obtain rfl := Step.wrong.inj h
      exact .atEnd (List.forall_mem_singleton.mpr htakes)
  | some t =>
      rw [magnitudeStep] at h
      split_ifs at h with ht
      · exact fits_addNumber ht h
      · obtain rfl := Step.wrong.inj h
        exact .single .number (by simpa using ht) htakes

theorem Reading.fits_step {r : Reading} (h : r.step t = .wrong cause) :
    cause.Fits (fun t' => (r.step (some t')).Takes) t := by
  cases r with
  | opening | colon done key =>
      obtain ⟨rfl, hnot⟩ := Step.of_take_eq_wrong h
      exact .single _ hnot trivial
  | entry done => exact fits_entryStep h
  | value done key => exact fits_valueStep h
  | magnitude done key minus => exact fits_magnitudeStep h

end PropertyList

namespace Clause

def Outcome.Takes : Outcome → Prop
  | more _ => True
  | last _ => True
  | before _ => False
  | wrong _ => False

theorem fits_take {kind : Token.Kind} {next : Token → Clause}
    (h : take kind t next = .wrong cause) :
    cause.Fits (fun t' => (take kind (some t') next).Takes) t := by
  have htakes : (take kind (some kind.sample) next).Takes := by
    rw [take, if_pos (Token.Kind.kind_sample kind)]
    trivial
  cases t with
  | none =>
      obtain rfl := Outcome.wrong.inj h
      exact .atEnd (List.forall_mem_singleton.mpr htakes)
  | some t =>
      rw [take] at h
      split_ifs at h with ht
      obtain rfl := Outcome.wrong.inj h
      exact .single kind (by simpa using ht) htakes

theorem takes_afterAction (res : Resumed) : (afterAction res).Takes := by
  cases res <;> trivial

theorem takes_close (body : Block) (place : BlockPlace) : (close body place).Takes := by
  cases place with
  | action place | no place test yes => exact takes_afterAction _
  | yes place test => trivial

theorem takes_of_mem_actionKinds {place : ActionPlace} {k : Token.Kind} (hk : k ∈ actionKinds) :
    (actionStep place (some k.sample)).Takes := by
  simp only [actionKinds, List.mem_cons, List.not_mem_nil, or_false] at hk
  rcases hk with rfl | rfl | rfl <;> trivial

theorem expected_of_actionStep {place : ActionPlace} (h : actionStep place t = .wrong cause) :
    cause = .expected actionKinds ∧ ∀ t' ∈ t, t'.kind ∉ actionKinds := by
  cases t with
  | none => exact ⟨(Outcome.wrong.inj h).symm, by simp⟩
  | some t =>
      rw [actionStep] at h
      split at h
      case h_4 =>
        refine ⟨(Outcome.wrong.inj h).symm, ?_⟩
        simp_all [actionKinds]
      all_goals cases h

theorem of_mem_insideKinds {k : Token.Kind} (hk : k ∈ insideKinds) :
    k = .keyword .ifWord ∨ k = .name ∨ k = .symbol .openBrace ∨ k = .symbol .closeBrace := by
  simpa [insideKinds, actionKinds] using hk

theorem takes_of_mem_insideKinds {place : BlockPlace} {done : Block} {k : Token.Kind}
    (hk : k ∈ insideKinds) : (insideStep place done (some k.sample)).Takes := by
  rcases of_mem_insideKinds hk with rfl | rfl | rfl | rfl
  · trivial
  · trivial
  · trivial
  · exact takes_close done place

/-- Inside a block a wrong token is told what begins an action, and the end of the input also what
closes the block. -/
theorem expected_of_insideStep {place : BlockPlace} {done : Block}
    (h : insideStep place done t = .wrong cause) :
    ∃ kinds, cause = .expected kinds ∧ kinds ⊆ insideKinds ∧ ∀ t' ∈ t, t'.kind ∉ kinds := by
  cases t with
  | none => exact ⟨insideKinds, (Outcome.wrong.inj h).symm, List.Subset.refl _, by simp⟩
  | some t =>
      rw [insideStep] at h
      split at h
      · cases h
      · have htakes := takes_close done place
        rw [h] at htakes
        exact htakes.elim
      · obtain ⟨hcause, hnot⟩ := expected_of_actionStep h
        exact ⟨actionKinds, hcause, List.subset_append_left _ _, hnot⟩

theorem fits_of_besideAction {c : Clause} {res : Resumed} (h : besideAction t res = .wrong cause)
    (hc : ∀ k ∈ insideKinds, c.step (some k.sample) = besideAction (some k.sample) res) :
    cause.Fits (fun t' => (c.step (some t')).Takes) t := by
  cases res with
  | finished d => cases h
  | inside place done =>
      obtain ⟨kinds, rfl, hsubset, hnot⟩ := expected_of_insideStep h
      refine .expected hnot fun k hk => ?_
      rw [hc k (hsubset hk)]
      exact takes_of_mem_insideKinds (hsubset hk)

theorem fits_of_part {σ α : Type} {step : Option Token → Step σ α} (place : Step σ α → Outcome)
    (hstep : ∀ cause, step t = .wrong cause → cause.Fits (fun t' => (step (some t')).Takes) t)
    (htakes : ∀ s, s.Takes → (place s).Takes) (hwrong : ∀ c, place (.wrong c) = .wrong c)
    (h : place (step t) = .wrong cause) :
    cause.Fits (fun t' => (place (step (some t'))).Takes) t := by
  cases hs : step t with
  | more s | done a =>
      have hplace := htakes (step t) (by rw [hs]; trivial)
      rw [h] at hplace
      exact hplace.elim
  | wrong c =>
      rw [hs, hwrong] at h
      obtain rfl := Outcome.wrong.inj h
      exact (hstep c hs).imp fun t' => htakes _

section Numbers

variable {r : Arithmetic.Reading}

theorem fits_of_number {place : Option Token → Step Arithmetic.Reading NumberExpr → Outcome}
    (hmore : ∀ t r', (place t (.more r')).Takes) (hwrong : ∀ t c, place t (.wrong c) = .wrong c)
    (hdone : ∀ e, r.step t = .done e → place t (.done e) = .wrong cause →
      cause.Fits (fun t' => (place (some t') (r.step (some t'))).Takes) t)
    (h : place t (r.step t) = .wrong cause) :
    cause.Fits (fun t' => (place (some t') (r.step (some t'))).Takes) t := by
  cases hr : r.step t with
  | more r' =>
      have htakes := hmore t r'
      rw [← hr, h] at htakes
      exact htakes.elim
  | done e =>
      rw [hr] at h
      exact hdone e hr h
  | wrong c =>
      rw [hr, hwrong] at h
      obtain rfl := Outcome.wrong.inj h
      refine (Arithmetic.Reading.fits_step hr).imp ?_
      rintro t' ⟨r', hr'⟩
      rw [hr']
      exact hmore _ r'

theorem fits_initialStep {name : Ident} (h : initialStep name t (r.step t) = .wrong cause) :
    cause.Fits (fun t' => (initialStep name (some t') (r.step (some t'))).Takes) t := by
  refine fits_of_number (fun _ _ => trivial) (fun _ _ => rfl) (fun e _ h => ?_) h
  rw [initialStep] at h
  split_ifs at h

theorem not_continues_of_mem_insideKinds {k : Token.Kind} (hk : k ∈ insideKinds) :
    ∀ t' ∈ some k.sample, ¬ Arithmetic.Continues t' := by
  rintro _ ⟨⟩
  rcases of_mem_insideKinds hk with rfl | rfl | rfl | rfl <;> simp [Arithmetic.continues_iff]

theorem fits_valueStep {place : ActionPlace} {target : Ident} {op : AssignOp}
    (h : valueStep place target op t (r.step t) = .wrong cause) :
    cause.Fits (fun t' => (valueStep place target op (some t') (r.step (some t'))).Takes) t := by
  refine fits_of_number (fun _ _ => trivial) (fun _ _ => rfl) (fun e hr h => ?_) h
  obtain ⟨⟨e, sum, rfl, rfl⟩, -⟩ := Arithmetic.Reading.of_step_eq_done hr
  refine fits_of_besideAction (c := .value place target op (.product e sum [])) h fun k hk => ?_
  have hdone : Arithmetic.Reading.step (.product e sum []) (some k.sample) =
      .done (sum.combine e) :=
    Arithmetic.Reading.done_of_not_continues (not_continues_of_mem_insideKinds hk)
  rw [step, hdone, valueStep]

theorem of_mem_compareKinds {t : Token} (h : t.kind ∈ compareKinds) :
    (∃ op, compareOp? t.kind = some op) ∨ Arithmetic.Continues t := by
  simp only [compareKinds, List.mem_cons, List.not_mem_nil, or_false] at h
  rw [Arithmetic.continues_iff]
  rcases h with h | h | h | h | h | h | h | h | h <;> simp [h, compareOp?]

theorem fits_compareLeftStep {place : ChoicePlace} {before : OpenCondition}
    (h : compareLeftStep place before t (r.step t) = .wrong cause) :
    cause.Fits (fun t' => (compareLeftStep place before (some t') (r.step (some t'))).Takes) t := by
  refine fits_of_number (fun _ _ => trivial) (fun _ _ => rfl) (fun e hr h => ?_) h
  obtain ⟨⟨e, sum, rfl, rfl⟩, hnot⟩ := Arithmetic.Reading.of_step_eq_done hr
  rw [compareLeftStep] at h
  split at h
  · cases h
  · rename_i hop
    obtain rfl := Outcome.wrong.inj h
    refine .expected ?_ fun k hk => ?_
    · rintro t' rfl hk
      obtain ⟨op, hop'⟩ | hcontinues := of_mem_compareKinds hk
      · rw [Option.bind_some, hop'] at hop
        cases hop
      · exact hnot t' rfl hcontinues
    · -- The comparison follows the number, or an operator of arithmetic goes on with it.
      obtain ⟨op, hop'⟩ | hcontinues := of_mem_compareKinds (t := k.sample) hk
      · have hends : ∀ t' ∈ some k.sample, ¬ Arithmetic.Continues t' := by
          rintro _ ⟨⟩
          exact not_continues_compareOp (kind_of_compareOp? hop')
        rw [Arithmetic.Reading.done_of_not_continues hends, compareLeftStep, Option.bind_some, hop']
        trivial
      · obtain ⟨r', hr'⟩ : ∃ r', Arithmetic.Reading.step (.product e sum []) (some k.sample) =
            .more r' := Arithmetic.more_of_continues hcontinues
        rw [hr']
        trivial

theorem expected_of_comparedStep {place : ChoicePlace} {before : OpenCondition} {c : Comparison}
    (h : comparedStep place before c t = .wrong cause) :
    cause = .expected [.symbol .closeParen] ∧ ∀ t' ∈ t, t'.kind ≠ .symbol .closeParen := by
  rw [comparedStep] at h
  split at h
  · cases h
  · cases h
  · cases h
  · rename_i hparen
    refine ⟨(Outcome.wrong.inj h).symm, ?_⟩
    rintro t' rfl ht
    exact hparen (congrArg some ht)

theorem fits_compareRightStep {place : ChoicePlace} {before : OpenCondition} {lhs : NumberExpr}
    {op : CompareOp} (h : compareRightStep place before lhs op t (r.step t) = .wrong cause) :
    cause.Fits (fun t' =>
      (compareRightStep place before lhs op (some t') (r.step (some t'))).Takes) t := by
  refine fits_of_number (fun _ _ => trivial) (fun _ _ => rfl) (fun e hr h => ?_) h
  obtain ⟨⟨e, sum, rfl, rfl⟩, -⟩ := Arithmetic.Reading.of_step_eq_done hr
  obtain ⟨rfl, hnot⟩ := expected_of_comparedStep h
  exact .single _ hnot trivial

end Numbers

theorem fits_operatorStep {place : ActionPlace} {target : Ident}
    (h : operatorStep place target t = .wrong cause) :
    cause.Fits (fun t' => (operatorStep place target (some t')).Takes) t := by
  have hassign : ∀ k ∈ assignKinds, ∃ op, assignOp? k = some op := by
    simp [assignKinds, assignOp?]
  rw [operatorStep] at h
  split at h
  · cases h
  · rename_i hop
    obtain rfl := Outcome.wrong.inj h
    refine .expected ?_ fun k hk => ?_
    · rintro t' rfl hk
      obtain ⟨op, hop'⟩ := hassign _ hk
      rw [Option.bind_some, hop'] at hop
      cases hop
    · obtain ⟨op, hop'⟩ := hassign k hk
      rw [operatorStep, Option.bind_some, Token.Kind.kind_sample, hop']
      trivial

theorem fits_rulePatternStep {r : PatternLiteral.Reading}
    (h : rulePatternStep (r.step t) = .wrong cause) :
    cause.Fits (fun t' => (rulePatternStep (r.step (some t'))).Takes) t := by
  refine fits_of_part rulePatternStep (fun _ => PatternLiteral.Reading.fits_step) ?_ (fun _ => rfl) h
  rintro (r | p | c) hs
  · trivial
  · trivial
  · exact hs

theorem fits_ruleWhenStep (h : ruleWhenStep t = .wrong cause) :
    cause.Fits (fun t' => (ruleWhenStep (some t')).Takes) t := by
  have hpattern : rulePatternStep (PatternLiteral.start.step t) = .wrong cause := by
    unfold ruleWhenStep at h
    split at h
    · cases h
    · exact h
  refine (fits_rulePatternStep hpattern).imp fun t' ht' => ?_
  by_cases hname : t'.kind = .name
  · obtain ⟨kind, text, span⟩ := t'
    obtain rfl : kind = .name := hname
    trivial
  · rwa [ruleWhenStep_of_ne_name hname]

theorem fits_afterElseStep {place : ChoicePlace} {test : Condition} {yes : Block}
    (h : afterElseStep place test yes t = .wrong cause) :
    cause.Fits (fun t' => (afterElseStep place test yes (some t')).Takes) t := by
  rw [afterElseStep] at h
  split at h
  · cases h
  · cases h
  · rename_i hif hbrace
    obtain rfl := Outcome.wrong.inj h
    refine .expected ?_ fun k hk => ?_
    · rintro t' rfl hk
      simp only [elseKinds, List.mem_cons, List.not_mem_nil, or_false] at hk
      rcases hk with hk | hk
      · exact hif (congrArg some hk)
      · exact hbrace (congrArg some hk)
    · simp only [elseKinds, List.mem_cons, List.not_mem_nil, or_false] at hk
      rcases hk with rfl | rfl <;> trivial

theorem fits_afterYesStep {place : ChoicePlace} {test : Condition} {yes : Block}
    (h : afterYesStep place test yes t = .wrong cause) :
    cause.Fits (fun t' => (afterYesStep place test yes (some t')).Takes) t := by
  rw [afterYesStep] at h
  split_ifs at h
  refine fits_of_besideAction (c := .afterYes place test yes) h fun k hk => ?_
  have helse : ¬ (some k.sample).any (·.kind = .keyword .elseWord) := by
    rcases of_mem_insideKinds hk with rfl | rfl | rfl | rfl <;> simp
  rw [step, afterYesStep, if_neg helse]

/-- Every clause expects only kinds that it takes, and none of them is that of the wrong token. -/
theorem fits_step {c : Clause} (h : c.step t = .wrong cause) :
    cause.Fits (fun t' => (c.step (some t')).Takes) t := by
  cases c with
  | varName | varAssign name | dateName | dateAssign name => exact fits_take h
  | ruleComma when | openTest place | openYes place test => exact fits_take h
  | initial name r => exact fits_initialStep h
  | varProperties name e r =>
      refine fits_of_part (varPropertiesStep name e) (fun _ => PropertyList.Reading.fits_step) ?_
        (fun _ => rfl) h
      rintro (r | ps | c) hs
      · trivial
      · trivial
      · exact hs
  | datePattern name r =>
      refine fits_of_part (datePatternStep name) (fun _ => PatternLiteral.Reading.fits_step) ?_
        (fun _ => rfl) h
      rintro (r | p | c) hs
      · trivial
      · trivial
      · exact hs
  | ruleWhen => exact fits_ruleWhenStep h
  | rulePattern r => exact fits_rulePatternStep h
  | action place =>
      obtain ⟨rfl, hnot⟩ := expected_of_actionStep h
      exact .expected hnot fun k => takes_of_mem_actionKinds
  | inside place done =>
      have hbeside : besideAction t (.inside place done) = .wrong cause := h
      exact fits_of_besideAction hbeside fun k _ => rfl
  | operator place target => exact fits_operatorStep h
  | value place target op r => exact fits_valueStep h
  | compareLeft place before r => exact fits_compareLeftStep h
  | compareRight place before lhs op r => exact fits_compareRightStep h
  | afterYes place test yes => exact fits_afterYesStep h
  | afterElse place test yes => exact fits_afterElseStep h

end Clause

end Forecast
