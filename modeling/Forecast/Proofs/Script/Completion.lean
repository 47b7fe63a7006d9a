import Forecast.Proofs.Script.Rendering
import Forecast.Proofs.Script.Sound

namespace Forecast

open Clause

namespace Token.Kind

def word : Kind → Word
  | .keyword k => .keyword k
  | .name => .name "a"
  | .number => .integer 1
  | .string => .string ""
  | .symbol s => .symbol s

theorem kind_word (k : Kind) : k.word.kind = k := by
  cases k <;> rfl

theorem isLexeme_word (k : Kind) : k.word.IsLexeme := by
  cases k with
  | keyword k => exact Word.isLexeme_keyword k
  | name => exact Word.isLexeme_name (by decide +kernel)
  | number => exact Word.isLexeme_integer 1
  | string => exact Word.isLexeme_string (by decide +kernel)
  | symbol s => exact Word.isLexeme_symbol s

def sample (k : Kind) : Token := ⟨k, String.ofList k.word.text, ⟨0, 0⟩⟩

@[simp] theorem kind_sample (k : Kind) : k.sample.kind = k := rfl

theorem isLexeme_sample (k : Kind) : k.sample.IsLexeme := by
  obtain ⟨c, rest, htext, hclass⟩ := k.isLexeme_word
  rw [kind_word] at hclass
  exact ⟨c, rest, by rw [sample, String.toList_ofList, htext], hclass⟩

theorem isInteger_sample : (sample .number).IsInteger 1 := by
  have htext : (sample .number).text.toList = ['1'] := by
    rw [sample, String.toList_ofList]
    rfl
  exact ⟨rfl, by simp [htext], by simp [htext], by rw [htext]; rfl, by decide⟩

end Token.Kind

open Token.Kind (sample isLexeme_sample)

inductive Step.Leads {σ α : Type} (step : σ → Option Token → Step σ α) (P : σ → Prop) : σ → Prop
  | here {s : σ} (h : P s) : Leads step P s
  | more {s s' : σ} (k : Token.Kind) (h : step s (some k.sample) = .more s')
      (hs' : Leads step P s') : Leads step P s

namespace Arithmetic

def Reading.IsComplete (r : Reading) : Prop := ∃ e sum, r = .product e sum []

theorem step_operand_number (inner : Pending) (outer : List Pending) :
    ∃ e, Reading.step (.operand inner outer) (some (sample .number)) = .more (inner.fill e outer) := by
  refine ⟨.literal (sample .number).decimal (sample .number).span, ?_⟩
  have hd := Token.ofText?_eq_decimal (isLexeme_sample .number) rfl
  simp only [Reading.step, operandStep, Token.Kind.kind_sample, hd]

theorem step_product_closeParen (e : NumberExpr) (sum : Left) (p : Pending)
    (outer : List Pending) :
    Reading.step (.product e sum (p :: outer)) (some (sample (.symbol .closeParen))) =
      .more (p.fill (sum.combine e) outer) := by
  have hnot : ∀ t ∈ some (sample (.symbol .closeParen)), ¬ Continues t := by simp [continues_iff]
  rw [Reading.step, productStep_of_not_continues hnot]
  rfl

theorem leads_product (e : NumberExpr) (sum : Left) (outer : List Pending) :
    Step.Leads Reading.step Reading.IsComplete (.product e sum outer) := by
  induction outer generalizing e sum with
  | nil => exact .here ⟨e, sum, rfl⟩
  | cons p outer ih => exact .more _ (step_product_closeParen e sum p outer) (ih _ _)

theorem Reading.leads (r : Reading) : Step.Leads Reading.step Reading.IsComplete r := by
  cases r with
  | product e sum outer => exact leads_product e sum outer
  | operand inner outer =>
      obtain ⟨e, hstep⟩ := step_operand_number inner outer
      exact .more _ hstep (leads_product _ _ outer)

end Arithmetic

namespace PatternLiteral

def Reading.IsComplete (r : Reading) : Prop := ∃ k p, r.step (some (sample k)) = .done p

theorem leads_day (year month : PartLiteral) :
    Step.Leads Reading.step Reading.IsComplete (.part (.month year month) none) :=
  .here ⟨.symbol .star, _, rfl⟩

theorem leads_month (year : PartLiteral) :
    Step.Leads Reading.step Reading.IsComplete (.part (.year year) none) :=
  .more (.symbol .star) rfl (.more (.symbol .minus) rfl (leads_day year _))

theorem leads_separator (year : PartLiteral) (month : Option PartLiteral) :
    Step.Leads Reading.step Reading.IsComplete (.separator year month) := by
  cases month with
  | none => exact .more (.symbol .minus) rfl (leads_month year)
  | some month => exact .more (.symbol .minus) rfl (leads_day year month)

/-- Whatever token is the next part, the pattern goes on after it or is complete. -/
theorem leads_of_complete {r : Reading} {leading : Leading} {p : PartLiteral} (k : Token.Kind)
    (h : r.step (some k.sample) = leading.complete p) :
    Step.Leads Reading.step Reading.IsComplete r := by
  cases leading with
  | nothing => exact .more k h (leads_separator p none)
  | year y => exact .more k h (leads_separator y (some p))
  | month y m => exact .here ⟨k, _, h⟩

theorem Reading.leads (r : Reading) : Step.Leads Reading.step Reading.IsComplete r := by
  cases r with
  | separator year month => exact leads_separator year month
  | part leading minus =>
      cases minus with
      | none => exact leads_of_complete (.symbol .star) rfl
      | some sign =>
          have hn := (magnitude?_eq_some_iff rfl).mpr Token.Kind.isInteger_sample
          have hstep : Reading.step (.part leading (some sign)) (some (sample .number)) =
              leading.complete ⟨some (-1), sign.to (sample .number).span⟩ := by
            simp only [step, magnitudeStep, Token.Kind.kind_sample, if_pos, numberStep, hn]
            rfl
          exact leads_of_complete .number hstep

end PatternLiteral

namespace PropertyList

def Reading.IsComplete (r : Reading) : Prop := ∃ k ps, r.step (some (sample k)) = .done ps

theorem leads_entry (ps : List Property) :
    Step.Leads Reading.step Reading.IsComplete (.entry ps) :=
  .here ⟨.symbol .closeBrace, ps, rfl⟩

theorem leads_value (ps : List Property) (key : Ident) :
    Step.Leads Reading.step Reading.IsComplete (.value ps key) :=
  .more .name rfl (leads_entry _)

theorem Reading.leads (r : Reading) : Step.Leads Reading.step Reading.IsComplete r := by
  cases r with
  | opening => exact .more (.symbol .openBrace) rfl (leads_entry [])
  | entry done => exact leads_entry done
  | colon done key => exact .more (.symbol .colon) rfl (leads_value done key)
  | value done key => exact leads_value done key
  | magnitude done key minus =>
      have hstep : Reading.step (.magnitude done key minus) (some (sample .number)) =
          addNumber done key (some minus) (sample .number) := by
        rw [step, magnitudeStep, if_pos (Token.Kind.kind_sample .number)]
      rw [addNumber_of_isLexeme (some minus) (isLexeme_sample .number) rfl] at hstep
      exact .more .number hstep (leads_entry _)

end PropertyList

def Mode.Completable (m : Mode) : Prop :=
  ∃ rest, (∀ t ∈ rest, t.IsLexeme) ∧ ∀ e ∈ m.read rest, ¬ e.IsFault

theorem Mode.completable_of_leads {σ α : Type} {step : σ → Option Token → Step σ α} {P : σ → Prop}
    (place : σ → Mode)
    (hplace : ∀ s t s', step s (some t) = .more s' → (place s).step t = ([], place s'))
    (hP : ∀ s, P s → (place s).Completable) {s : σ} (h : Step.Leads step P s) :
    (place s).Completable := by
  induction h with
  | here h => exact hP _ h
  | @more s s' k h hs' ih =>
      obtain ⟨rest, hrest, hread⟩ := ih
      refine ⟨k.sample :: rest, List.forall_mem_cons.mpr ⟨isLexeme_sample k, hrest⟩, ?_⟩
      rwa [Mode.read, hplace s _ s' h]

/-- After a finished action some more tokens are read without a fault, of which the first one, if
any, closes the block around the action. -/
def Resumed.Completable (res : Resumed) : Prop :=
  ∃ rest, (∀ t ∈ rest, t.IsLexeme) ∧ (∀ t ∈ rest.head?, t.kind = .symbol .closeBrace) ∧
    ∀ e ∈ res.read rest, ¬ e.IsFault

variable {c c' : Clause} {res : Resumed}

theorem Clause.completable_of_more (k : Token.Kind) (h : c.step (some k.sample) = .more c')
    (hc' : (Mode.clause c').Completable) : (Mode.clause c).Completable := by
  obtain ⟨rest, hrest, hread⟩ := hc'
  refine ⟨k.sample :: rest, List.forall_mem_cons.mpr ⟨isLexeme_sample k, hrest⟩, ?_⟩
  rwa [read_of_more h]

theorem Clause.completable_of_last {d : Declaration} (k : Token.Kind)
    (h : c.step (some k.sample) = .last d) : (Mode.clause c).Completable := by
  refine ⟨[k.sample], List.forall_mem_singleton.mpr (isLexeme_sample k), ?_⟩
  rw [read_of_last h]
  exact List.forall_mem_singleton.mpr (Event.not_isFault_declaration d)

theorem Clause.completable_of_besideAction (hres : res.Completable)
    (h : ∀ t : Option Token, (∀ t' ∈ t, t'.kind = .symbol .closeBrace) →
      c.step t = besideAction t res) : (Mode.clause c).Completable := by
  obtain ⟨rest, hrest, hhead, hread⟩ := hres
  refine ⟨rest, hrest, ?_⟩
  rwa [read_of_besideAction (h rest.head? hhead)]

theorem Resumed.Completable.clause {place : BlockPlace} {done : Block}
    (h : (Resumed.inside place done).Completable) :
    (Mode.clause (.inside place done)).Completable := by
  obtain ⟨rest, hrest, -, hread⟩ := h
  exact ⟨rest, hrest, hread⟩

theorem Clause.step_afterYes_of_closeBrace {t : Option Token}
    (ht : ∀ t' ∈ t, t'.kind = .symbol .closeBrace) (place : ChoicePlace) (test : Condition)
    (yes : Block) :
    (Clause.afterYes place test yes).step t = besideAction t (place.plug test yes .nothing) := by
  rw [Clause.step, afterYesStep, if_neg]
  cases t with
  | none => simp
  | some t => simp [ht t rfl]

/-- A block is closed, whatever its place, and what its place then resumes is completed. -/
theorem completable_of_close {place : BlockPlace} {done : Block} (hres : res.Completable)
    (h : ∀ rest : List Token, (∀ t ∈ rest.head?, t.kind = .symbol .closeBrace) →
      (Mode.clause (.inside place done)).read (sample (.symbol .closeBrace) :: rest) =
        res.read rest) : (Resumed.inside place done).Completable := by
  obtain ⟨rest, hrest, hhead, hread⟩ := hres
  refine ⟨sample (.symbol .closeBrace) :: rest,
    List.forall_mem_cons.mpr ⟨isLexeme_sample _, hrest⟩, ?_, ?_⟩
  · rintro t ⟨⟩
    rfl
  · rwa [Resumed.read, h rest hhead]

mutual

theorem ActionPlace.completable_plug : ∀ (place : ActionPlace) (a : Action),
    (place.plug a).Completable
  | .rule _, _ => ⟨[], List.forall_mem_nil _, by simp,
      List.forall_mem_singleton.mpr (Event.not_isFault_declaration _)⟩
  | .block place done, a => BlockPlace.completable_inside place (done.snoc a)

theorem BlockPlace.completable_inside : ∀ (place : BlockPlace) (done : Block),
    (Resumed.inside place done).Completable
  | .action place, done =>
      completable_of_close (ActionPlace.completable_plug place (.block done)) fun _ _ =>
        read_of_afterAction rfl
  | .yes place test, done =>
      completable_of_close (ChoicePlace.completable_plug place test done .nothing) fun _ hrest =>
        (read_of_more rfl).trans (read_of_besideAction (step_afterYes_of_closeBrace hrest _ _ _))
  | .no place test yes, done =>
      completable_of_close (ChoicePlace.completable_plug place test yes (.block done)) fun _ _ =>
        read_of_afterAction rfl

theorem ChoicePlace.completable_plug : ∀ (place : ChoicePlace) (test : Condition) (yes : Block)
    (no : Otherwise), (place.plug test yes no).Completable
  | .action place, test, yes, no => ActionPlace.completable_plug place (.choose test yes no)
  | .chain place test' yes', test, yes, no =>
      ChoicePlace.completable_plug place test' yes' (.chain test yes no)

end

namespace Clause

theorem completable_inside (place : BlockPlace) (done : Block) :
    (Mode.clause (.inside place done)).Completable := (place.completable_inside done).clause

theorem completable_value (place : ActionPlace) (target : Ident) (op : AssignOp)
    (r : Arithmetic.Reading) : (Mode.clause (.value place target op r)).Completable := by
  refine Mode.completable_of_leads (fun r => .clause (.value place target op r))
    (fun r t r' hr => by simp only [Mode.step, step, hr, valueStep, Mode.clauseStep]) ?_ r.leads
  rintro _ ⟨e, sum, rfl⟩
  refine completable_of_besideAction (place.completable_plug (.assign target op (sum.combine e))) ?_
  intro t ht
  have hnot : ∀ t' ∈ t, ¬ Arithmetic.Continues t' := fun t' ht' => by
    simp [Arithmetic.continues_iff, ht t' ht']
  rw [step, Arithmetic.Reading.done_of_not_continues hnot, valueStep]

theorem completable_action (place : ActionPlace) : (Mode.clause (.action place)).Completable :=
  completable_of_more .name rfl
    (completable_of_more (.symbol .assign) rfl (completable_value place _ _ _))

theorem completable_openYes (place : ChoicePlace) (test : Condition) :
    (Mode.clause (.openYes place test)).Completable :=
  completable_of_more (.symbol .openBrace) rfl (completable_inside _ _)

theorem completable_compareRight (place : ChoicePlace) (before : OpenCondition) (lhs : NumberExpr)
    (op : CompareOp) (r : Arithmetic.Reading) :
    (Mode.clause (.compareRight place before lhs op r)).Completable := by
  refine Mode.completable_of_leads (fun r => .clause (.compareRight place before lhs op r))
    (fun r t r' hr => by simp only [Mode.step, step, hr, compareRightStep, Mode.clauseStep]) ?_ r.leads
  rintro _ ⟨e, sum, rfl⟩
  exact completable_of_more (.symbol .closeParen) rfl (completable_openYes place _)

theorem completable_compareLeft (place : ChoicePlace) (before : OpenCondition)
    (r : Arithmetic.Reading) : (Mode.clause (.compareLeft place before r)).Completable := by
  refine Mode.completable_of_leads (fun r => .clause (.compareLeft place before r))
    (fun r t r' hr => by simp only [Mode.step, step, hr, compareLeftStep, Mode.clauseStep]) ?_ r.leads
  rintro _ ⟨e, sum, rfl⟩
  exact completable_of_more (.symbol .equal) rfl (completable_compareRight place _ _ _ _)

theorem completable_ruleComma (when : When) : (Mode.clause (.ruleComma when)).Completable :=
  completable_of_more (.symbol .comma) rfl (completable_action _)

theorem completable_rulePattern (r : PatternLiteral.Reading) :
    (Mode.clause (.rulePattern r)).Completable := by
  refine Mode.completable_of_leads (fun r => .clause (.rulePattern r))
    (fun r t r' hr => by simp only [Mode.step, step, hr, rulePatternStep, Mode.clauseStep]) ?_ r.leads
  rintro r ⟨k, p, hdone⟩
  refine completable_of_more k ?_ (completable_ruleComma (.pattern p))
  rw [step, hdone, rulePatternStep]

theorem completable_datePattern (name : Ident) (r : PatternLiteral.Reading) :
    (Mode.clause (.datePattern name r)).Completable := by
  refine Mode.completable_of_leads (fun r => .clause (.datePattern name r))
    (fun r t r' hr => by simp only [Mode.step, step, hr, datePatternStep, Mode.clauseStep]) ?_ r.leads
  rintro r ⟨k, p, hdone⟩
  refine completable_of_last k (d := .date name p) ?_
  rw [step, hdone, datePatternStep]

theorem completable_varProperties (name : Ident) (e : NumberExpr) (r : PropertyList.Reading) :
    (Mode.clause (.varProperties name e r)).Completable := by
  refine Mode.completable_of_leads (fun r => .clause (.varProperties name e r))
    (fun r t r' hr => by simp only [Mode.step, step, hr, varPropertiesStep, Mode.clauseStep])
    ?_ r.leads
  rintro r ⟨k, ps, hdone⟩
  refine completable_of_last k (d := .var name e (some ps)) ?_
  rw [step, hdone, varPropertiesStep]

theorem completable_initial (name : Ident) (r : Arithmetic.Reading) :
    (Mode.clause (.initial name r)).Completable := by
  refine Mode.completable_of_leads (fun r => .clause (.initial name r))
    (fun r t r' hr => by simp only [Mode.step, step, hr, initialStep, Mode.clauseStep]) ?_ r.leads
  rintro _ ⟨e, sum, rfl⟩
  exact ⟨[], List.forall_mem_nil _,
    List.forall_mem_singleton.mpr (Event.not_isFault_declaration _)⟩

theorem completable (c : Clause) : (Mode.clause c).Completable := by
  cases c with
  | initial name r => exact completable_initial name r
  | varAssign name => exact completable_of_more (.symbol .assign) rfl (completable_initial name _)
  | varName =>
      exact completable_of_more .name rfl
        (completable_of_more (.symbol .assign) rfl (completable_initial _ _))
  | varProperties name e r => exact completable_varProperties name e r
  | datePattern name r => exact completable_datePattern name r
  | dateAssign name =>
      exact completable_of_more (.symbol .assign) rfl (completable_datePattern name _)
  | dateName =>
      exact completable_of_more .name rfl
        (completable_of_more (.symbol .assign) rfl (completable_datePattern _ _))
  | ruleWhen => exact completable_of_more .name rfl (completable_ruleComma _)
  | rulePattern r => exact completable_rulePattern r
  | ruleComma when => exact completable_ruleComma when
  | action place => exact completable_action place
  | inside place done => exact completable_inside place done
  | operator place target =>
      exact completable_of_more (.symbol .assign) rfl (completable_value place target _ _)
  | value place target op r => exact completable_value place target op r
  | openTest place =>
      exact completable_of_more (.symbol .openParen) rfl (completable_compareLeft place _ _)
  | compareLeft place before r => exact completable_compareLeft place before r
  | compareRight place before lhs op r => exact completable_compareRight place before lhs op r
  | openYes place test => exact completable_openYes place test
  | afterYes place test yes =>
      exact completable_of_besideAction (place.completable_plug test yes .nothing)
        fun t ht => step_afterYes_of_closeBrace ht place test yes
  | afterElse place test yes =>
      exact completable_of_more (.symbol .openBrace) rfl (completable_inside _ _)

end Clause

/-- In every mode some more tokens end the script without a fault. -/
theorem Mode.completable (m : Mode) : m.Completable := by
  cases m with
  | between | skipping | skippingOptions | closed | ended =>
      exact ⟨[], List.forall_mem_nil _, List.forall_mem_nil _⟩
  | clause c => exact c.completable
  | options r =>
      refine Mode.completable_of_leads Mode.options
        (fun r t r' hr => by simp only [Mode.step, hr, Mode.optionsStep]) ?_ r.leads
      rintro r ⟨k, ps, hdone⟩
      refine ⟨[k.sample], List.forall_mem_singleton.mpr (isLexeme_sample k), ?_⟩
      rw [Mode.read, Mode.step, hdone]
      exact List.forall_mem_singleton.mpr (Event.not_isFault_options ps)

end Forecast
