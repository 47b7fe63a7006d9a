import Forecast.Evaluation
import Forecast.Proofs.Script.Expected

namespace Forecast

open Clause

namespace Script

def Accepted (ts : List Token) : Prop := (∀ t ∈ ts, t.IsLexeme) ∧ ∃ s, Spelled ts s

/-- A script can begin in this way. -/
def Viable (ts : List Token) : Prop := ∃ rest, Accepted (ts ++ rest)

theorem head?_ofTokens (ts : List Token) :
    (ofTokens ts).2.head? = (Mode.between.read ts).findSome? Event.blame? :=
  List.head?_filterMap

theorem accepted_iff {ts : List Token} (hw : ∀ t ∈ ts, t.IsLexeme) :
    Accepted ts ↔ (ofTokens ts).2 = [] := by
  constructor
  · rintro ⟨-, s, hs⟩
    rw [hs.ofTokens_eq hw]
  · exact fun h => ⟨hw, exists_spelled_of_no_fault h⟩

end Script

namespace Mode

variable {m m' : Mode} {w : List Token} {b : Blame}

def report (m : Mode) : Option Token → List Event
  | none => m.finish
  | some t => (m.step t).1

def Takes (m : Mode) (t : Token) : Prop := ∀ e ∈ (m.step t).1, ¬ e.IsFault

theorem takes_iff {t : Token} : m.Takes t ↔ (m.step t).1.findSome? Event.blame? = none := by
  simp [Takes, Event.IsFault, List.findSome?_eq_none_iff]

theorem takes_clause {c : Clause} {t : Token} (h : (c.step (some t)).Takes) :
    (Mode.clause c).Takes t := by
  rw [Takes, step]
  cases ho : c.step (some t) with
  | more c' => exact List.forall_mem_nil _
  | last d => exact List.forall_mem_singleton.mpr (Event.not_isFault_declaration d)
  | before d | wrong cause =>
      rw [ho] at h
      exact h.elim

theorem takes_options {r : PropertyList.Reading} {t : Token} (h : (r.step (some t)).Takes) :
    (Mode.options r).Takes t := by
  rw [Takes, step]
  cases ho : r.step (some t) with
  | more r' => exact List.forall_mem_nil _
  | done ps => exact List.forall_mem_singleton.mpr (Event.not_isFault_options ps)
  | wrong cause =>
      rw [ho] at h
      exact h.elim

theorem eq_of_betweenStep {t : Token} (h : (betweenStep t).1.findSome? Event.blame? = some b) :
    b = ⟨some t, .extraneous⟩ := by
  rw [betweenStep] at h
  split at h
  case h_6 => exact (Option.some.inj h).symm
  all_goals cases h

/-- A fault found with the next token is told rightly, or what has been read is a whole script. -/
inductive Tells (m : Mode) (w : List Token) (t : Option Token) (b : Blame) : Prop
  | fits (ht : b.token = t) (h : b.cause.Fits m.Takes t)
  | extraneous (ht : b.token = t) (hb : b.cause = .extraneous) (h : ∃ s, Script.Spelled w s)

theorem tells_betweenStep {ds : List Declaration} (hds : Declarations w ds) {t : Token}
    (hb : (betweenStep t).1.findSome? Event.blame? = some b) : m.Tells w (some t) b := by
  obtain rfl := eq_of_betweenStep hb
  exact .extraneous rfl rfl ⟨_, .plain hds⟩

theorem tells_clause {c : Clause} {v : List Token} {ds : List Declaration}
    (hds : Declarations v ds) (hc : c.Reads w) {t : Option Token}
    (hb : ((Mode.clause c).report t).findSome? Event.blame? = some b) :
    (Mode.clause c).Tells (v ++ w) t b := by
  have hwrong : ∀ cause, c.step t = .wrong cause → cause.Fits (Mode.clause c).Takes t :=
    fun cause h => (fits_step h).imp fun t' => takes_clause
  cases t with
  | none =>
      rw [report, finish] at hb
      split at hb
      · cases hb
      · cases hb
      · rename_i cause ho
        obtain rfl := Option.some.inj hb
        exact .fits rfl (hwrong cause ho)
      · cases hb
  | some t =>
      have haccounts := hc.step t
      rw [report, step] at hb
      cases ho : c.step (some t) with
      | more c' | last d =>
          rw [ho] at hb
          cases hb
      | before d =>
          rw [ho] at hb haccounts
          exact tells_betweenStep (.declaration hds haccounts) hb
      | wrong cause =>
          rw [ho] at hb
          obtain rfl := Option.some.inj hb
          exact .fits rfl (hwrong cause ho)

theorem tells_options {r : PropertyList.Reading} {t : Option Token}
    (hb : ((Mode.options r).report t).findSome? Event.blame? = some b) :
    (Mode.options r).Tells w t b := by
  have hwrong : ∀ cause, r.step t = .wrong cause → cause.Fits (Mode.options r).Takes t :=
    fun cause h => (PropertyList.Reading.fits_step h).imp fun t' => takes_options
  cases t with
  | none =>
      obtain ⟨kinds, ho⟩ := r.step_none
      rw [report, finish, ho] at hb
      obtain rfl := Option.some.inj hb
      exact .fits rfl (hwrong _ ho)
  | some t =>
      rw [report, step] at hb
      cases ho : r.step (some t) with
      | more r' | done ps =>
          rw [ho] at hb
          cases hb
      | wrong cause =>
          rw [ho] at hb
          obtain rfl := Option.some.inj hb
          exact .fits rfl (hwrong cause ho)

theorem Reads.tells (hm : m.Reads w) {t : Option Token}
    (hb : (m.report t).findSome? Event.blame? = some b) : m.Tells w t b := by
  cases hm with
  | between hds =>
      cases t with
      | none => cases hb
      | some t => exact tells_betweenStep hds hb
  | clause hds hc => exact tells_clause hds hc hb
  | options hds hk hr => exact tells_options hb
  | closed hds hk hps hw =>
      cases t with
      | none => cases hb
      | some t =>
          rw [report, Mode.step, closedStep] at hb
          split_ifs at hb
          · cases hb
          · obtain rfl := Option.some.inj hb
            exact .extraneous rfl rfl ⟨_, .withOptions hds hk hps hw⟩

inductive Passes : Mode → List Token → Mode → Prop
  | nil (m : Mode) : Passes m [] m
  | cons {m m' : Mode} {t : Token} {w : List Token} (ht : m.Takes t)
      (hw : Passes (m.step t).2 w m') : Passes m (t :: w) m'

theorem Passes.reads (h : m.Passes w m') {v : List Token} (hm : m.Reads v) :
    m'.Reads (v ++ w) := by
  induction h generalizing v with
  | nil m => rwa [List.append_nil]
  | @cons m m' t w ht hw ih =>
      have hread := ih (hm.step ht)
      rwa [List.append_assoc] at hread

theorem Passes.findSome?_read (h : m.Passes w m') (ts : List Token) :
    (m.read (w ++ ts)).findSome? Event.blame? = (m'.read ts).findSome? Event.blame? := by
  induction h with
  | nil m => rfl
  | cons ht hw ih =>
      rw [List.cons_append, read, List.findSome?_append, takes_iff.mp ht, Option.none_or, ih]

theorem exists_passes {ts : List Token} (h : (m.read ts).findSome? Event.blame? = some b) :
    ∃ before after m', ts = before ++ after ∧ m.Passes before m' ∧
      (m'.report after.head?).findSome? Event.blame? = some b := by
  induction ts generalizing m with
  | nil => exact ⟨[], [], m, rfl, .nil m, h⟩
  | cons t ts ih =>
      rw [read, List.findSome?_append] at h
      cases hstep : (m.step t).1.findSome? Event.blame? with
      | some b' =>
          rw [hstep, Option.some_or] at h
          exact ⟨[], t :: ts, m, rfl, .nil m, hstep.trans h⟩
      | none =>
          rw [hstep, Option.none_or] at h
          obtain ⟨before, after, m', rfl, hpasses, hb⟩ := ih h
          exact ⟨t :: before, after, m', rfl, .cons (takes_iff.mpr hstep) hpasses, hb⟩

theorem Reads.viable (hm : m.Reads w) (hw : ∀ t ∈ w, t.IsLexeme) : Script.Viable w := by
  obtain ⟨rest, hrest, hread⟩ := m.completable
  exact ⟨rest, List.forall_mem_append.mpr ⟨hw, hrest⟩, hm.exists_spelled hread⟩

theorem Passes.not_viable (h : Mode.between.Passes w m) {t : Token}
    (hb : (m.step t).1.findSome? Event.blame? = some b) : ¬ Script.Viable (w ++ [t]) := by
  rintro ⟨rest, haccepted⟩
  have hnone := (Script.accepted_iff haccepted.1).mp haccepted
  have hfirst : (Script.ofTokens (w ++ [t] ++ rest)).2.head? = some b := by
    rw [Script.head?_ofTokens, List.append_assoc, h.findSome?_read, List.singleton_append, read,
      List.findSome?_append, hb, Option.some_or]
  rw [hnone] at hfirst
  cases hfirst

end Mode

theorem Blame.cause_of_mismatched {b : Blame} {size : Nat} {found : Option String}
    {kinds : List Token.Kind} (h : (b.fault size).problem = .mismatched found kinds) :
    b.cause = .expected kinds := by
  unfold Blame.fault at h
  split at h <;> simp_all

theorem Blame.cause_of_extraneous {b : Blame} {size : Nat} {found : String}
    (h : (b.fault size).problem = .extraneous found) : b.cause = .extraneous := by
  unfold Blame.fault at h
  split at h <;> simp_all

/-- What the first fault says of the tokens before it and of the one that it is about. -/
structure Blame.IsFirst (b : Blame) (before after : List Token) : Prop where
  token : after.head? = b.token
  viable : Script.Viable before
  impossible : ∀ t ∈ b.token, ¬ Script.Viable (before ++ [t])
  expected : ∀ size found kinds, (b.fault size).problem = .mismatched found kinds →
    (∀ t ∈ b.token, t.kind ∉ kinds) ∧
      ∀ k ∈ kinds, ∃ t : Token, t.kind = k ∧ Script.Viable (before ++ [t])
  extraneous : ∀ size found, (b.fault size).problem = .extraneous found → Script.Accepted before

theorem Mode.Passes.isFirst {m : Mode} {before after : List Token} {b : Blame}
    (h : Mode.between.Passes before m) (hw : ∀ t ∈ before, t.IsLexeme)
    (hb : (m.report after.head?).findSome? Event.blame? = some b) : b.IsFirst before after := by
  have hm : m.Reads before := h.reads (.between .nil)
  have htells := hm.tells hb
  have htoken : b.token = after.head? := by cases htells <;> assumption
  refine ⟨htoken.symm, hm.viable hw, ?_, ?_, ?_⟩
  · intro t ht
    rw [← htoken, Option.mem_def.mp ht] at hb
    exact h.not_viable hb
  · intro size found kinds hproblem
    have hcause := Blame.cause_of_mismatched hproblem
    cases htells with
    | extraneous _ hextraneous =>
        rw [hcause] at hextraneous
        cases hextraneous
    | fits _ hfits =>
        rw [hcause, ← htoken] at hfits
        cases hfits with
        | expected hnot htakes =>
            refine ⟨hnot, fun k hk => ⟨k.sample, rfl, (hm.step (htakes k hk)).viable ?_⟩⟩
            exact List.forall_mem_append.mpr
              ⟨hw, List.forall_mem_singleton.mpr (Token.Kind.isLexeme_sample k)⟩
  · intro size found hproblem
    have hcause := Blame.cause_of_extraneous hproblem
    cases htells with
    | extraneous _ _ hspelled => exact ⟨hw, hspelled⟩
    | fits _ hfits =>
        rw [hcause] at hfits
        cases hfits

namespace Script

/-- Syntax errors are found at the first impossible token and told rightly. The tokens before the
first one can be completed to a script, and no script begins with those up to it. If other kinds
were expected, the token is of none of them, and with each of them a script can go on there; if
nothing was expected, the tokens before it are a script already. -/
theorem ofTokens_firstFault {ts : List Token} (hw : ∀ t ∈ ts, t.IsLexeme) {b : Blame}
    (h : (ofTokens ts).2.head? = some b) :
    ∃ before after, ts = before ++ after ∧ b.IsFirst before after := by
  rw [head?_ofTokens] at h
  obtain ⟨before, after, m, rfl, hpasses, hb⟩ := Mode.exists_passes h
  exact ⟨before, after, rfl, hpasses.isFirst (List.forall_mem_append.mp hw).1 hb⟩

def missingOperand : List Token := Token.ofText "var a = (1 + 2) * ; var b = ".toList

theorem ofTokens_firstFault_missingOperand :
    ∃ before after, missingOperand = before ++ after ∧
      after.head?.map Token.kind = some (.symbol .semicolon) ∧
      Viable before ∧ (∀ t ∈ after.head?, ¬ Viable (before ++ [t])) ∧
      ∀ k ∈ Arithmetic.operandKinds, ∃ t : Token, t.kind = k ∧ Viable (before ++ [t]) := by
  have hfirst : (ofTokens missingOperand).2.head?.map (fun b =>
      (b.token.map Token.kind, (b.fault 0).problem)) =
      some (some (.symbol .semicolon), .mismatched (some ";") Arithmetic.operandKinds) := by
    decide +kernel
  obtain ⟨b, hb, hblame⟩ := Option.map_eq_some_iff.mp hfirst
  obtain ⟨hkind, hproblem⟩ := Prod.mk.inj hblame
  obtain ⟨before, after, hsplit, htoken, hviable, himpossible, hexpected, -⟩ :=
    ofTokens_firstFault (fun t ht => Token.isLexeme_of_mem_ofText ht) hb
  exact ⟨before, after, hsplit, by rw [htoken, hkind], hviable, by rwa [htoken],
    (hexpected 0 _ _ hproblem).2⟩

end Script

end Forecast
