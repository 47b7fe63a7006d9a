import Forecast.Evaluation
import Forecast.Proofs.Script.Parts

namespace Forecast

open Clause

def Resumed.read : Resumed → List Token → List Event
  | .finished d, ts => .declaration d :: Mode.between.read ts
  | .inside place done, ts => (Mode.clause (.inside place done)).read ts

section Steps

variable {c c' : Clause} {t : Token} {ts : List Token} {res : Resumed}

theorem read_of_more (h : c.step (some t) = .more c') :
    (Mode.clause c).read (t :: ts) = (Mode.clause c').read ts := by
  rw [Mode.read, Mode.step, h]
  rfl

theorem read_of_last {d : Declaration} (h : c.step (some t) = .last d) :
    (Mode.clause c).read (t :: ts) = .declaration d :: Mode.between.read ts := by
  rw [Mode.read, Mode.step, h]
  rfl

theorem read_of_before {d : Declaration} (h : c.step ts.head? = .before d) :
    (Mode.clause c).read ts = .declaration d :: Mode.between.read ts := by
  cases ts with
  | nil =>
      rw [List.head?_nil] at h
      simp only [Mode.read, Mode.finish, h]
  | cons t ts =>
      rw [List.head?_cons] at h
      rw [Mode.read, Mode.step, h]
      rfl

theorem read_of_afterAction (h : c.step (some t) = afterAction res) :
    (Mode.clause c).read (t :: ts) = res.read ts := by
  cases res with
  | finished d => exact read_of_last h
  | inside place done => exact read_of_more h

theorem read_congr {ts : List Token} (h : c.step ts.head? = c'.step ts.head?) :
    (Mode.clause c).read ts = (Mode.clause c').read ts := by
  cases ts with
  | nil =>
      rw [List.head?_nil] at h
      simp only [Mode.read, Mode.finish, h]
  | cons t ts =>
      rw [List.head?_cons] at h
      rw [Mode.read, Mode.read, Mode.step, Mode.step, h]

theorem read_of_besideAction (h : c.step ts.head? = besideAction ts.head? res) :
    (Mode.clause c).read ts = res.read ts := by
  cases res with
  | finished d => exact read_of_before h
  | inside place done => exact read_congr h

end Steps

/-- A part in its place is read as it is by itself. -/
theorem read_append_of_run {σ α : Type} {step : σ → Option Token → Step σ α} {s s' : σ}
    {v : List Token} (place : σ → Mode) (ts : List Token)
    (hplace : ∀ s t s', step s (some t) = .more s' → (place s).step t = ([], place s'))
    (h : Step.run step s v = some s') : (place s).read (v ++ ts) = (place s').read ts := by
  induction v generalizing s with
  | nil =>
      obtain rfl := Option.some.inj h
      rfl
  | cons t v ih =>
      rw [Step.run] at h
      split at h
      · rename_i s₁ hstep
        rw [List.cons_append, Mode.read, hplace s t s₁ hstep, ih h]
        rfl
      · cases h

def EndsNumber (ts : List Token) : Prop := ∀ t ∈ ts.head?, ¬ Arithmetic.Continues t

def EndsAction (ts : List Token) : Prop :=
  EndsNumber ts ∧ ∀ t ∈ ts.head?, t.kind ≠ .keyword .elseWord

theorem read_number {w : List Token} {e : NumberExpr} (he : e.Spelled w)
    (hw : ∀ t ∈ w, t.IsLexeme) {ts : List Token} (hts : EndsNumber ts)
    (place : Arithmetic.Reading → Mode)
    (hplace : ∀ r t r', Arithmetic.Reading.step r (some t) = .more r' →
      (place r).step t = ([], place r')) :
    ∃ r, (place Arithmetic.start).read (w ++ ts) = (place r).read ts ∧
      Arithmetic.Reading.step r ts.head? = .done e := by
  obtain ⟨e', sum, hrun, rfl⟩ := Arithmetic.run_number he hw []
  exact ⟨_, read_append_of_run place ts hplace hrun, Arithmetic.Reading.done_of_not_continues hts⟩

theorem compareOp?_symbol (op : CompareOp) : compareOp? (.symbol op.symbol) = some op := by
  cases op <;> rfl

theorem assignOp?_symbol (op : AssignOp) : assignOp? (.symbol op.symbol) = some op := by
  cases op <;> rfl

theorem not_continues_compareOp {t : Token} {op : CompareOp} (ht : t.kind = .symbol op.symbol) :
    ¬ Arithmetic.Continues t := by
  cases op <;> simp [Arithmetic.continues_iff, ht, CompareOp.symbol]

theorem endsNumber_cons {t : Token} (ht : ¬ Arithmetic.Continues t) (ts : List Token) :
    EndsNumber (t :: ts) := by
  simpa [EndsNumber] using ht

theorem read_comparison {w : List Token} {c : Comparison} (hc : c.Spelled w)
    (hw : ∀ t ∈ w, t.IsLexeme) (place : ChoicePlace) (before : OpenCondition) {t : Token}
    {ts : List Token} {clause : Clause} (ht : ¬ Arithmetic.Continues t)
    (h : comparedStep place before c (some t) = .more clause) :
    (Mode.clause (.compareLeft place before Arithmetic.start)).read (w ++ t :: ts) =
      (Mode.clause clause).read ts := by
  cases hc with
  | @compare op s v w lhs rhs hl hs hr =>
      obtain ⟨hv, -, hw⟩ := by simpa only [List.forall_mem_cons, List.forall_mem_append] using hw
      obtain ⟨r₁, hread₁, hdone₁⟩ := read_number hl hv
        (endsNumber_cons (not_continues_compareOp hs) (w ++ t :: ts))
        (fun r => .clause (.compareLeft place before r))
        (fun r t r' hr => by simp only [Mode.step, Clause.step, hr, compareLeftStep, Mode.clauseStep])
      obtain ⟨r₂, hread₂, hdone₂⟩ := read_number hr hw (endsNumber_cons ht ts)
        (fun r => .clause (.compareRight place before lhs op r))
        (fun r t r' hr => by simp only [Mode.step, Clause.step, hr, compareRightStep, Mode.clauseStep])
      rw [List.head?_cons] at hdone₁ hdone₂
      have hop : (Clause.compareLeft place before r₁).step (some s) =
          .more (.compareRight place before lhs op Arithmetic.start) := by
        simp only [Clause.step, hdone₁, compareLeftStep, Option.bind_some, hs, compareOp?_symbol]
      have hnext : (Clause.compareRight place before lhs op r₂).step (some t) = .more clause := by
        simp only [Clause.step, hdone₂, compareRightStep, h]
      rw [List.append_assoc, List.cons_append, hread₁, read_of_more hop, hread₂, read_of_more hnext]

/-- A conjunction after some alternatives is read up to its last comparison, and the token after
that decides how the condition goes on. -/
theorem read_conjunction {w : List Token} {cs : Conjunction} (hcs : cs.Spelled w)
    (hw : ∀ t ∈ w, t.IsLexeme) (place : ChoicePlace) (alternatives : Option Condition) :
    ∃ before c, before.alternatives = alternatives ∧ before.conjunction c = cs ∧
      ∀ t ts clause, ¬ Arithmetic.Continues t → comparedStep place before c (some t) = .more clause →
        (Mode.clause (.compareLeft place ⟨alternatives, none⟩ Arithmetic.start)).read
          (w ++ t :: ts) = (Mode.clause clause).read ts := by
  induction hcs with
  | @one w c hc =>
      refine ⟨⟨alternatives, none⟩, c, rfl, rfl, ?_⟩
      intro t ts clause ht h
      exact read_comparison hc hw place _ ht h
  | @and s v w earlier c he hs hc ih =>
      obtain ⟨hv, -, hw⟩ := by simpa only [List.forall_mem_cons, List.forall_mem_append] using hw
      obtain ⟨before, c', rfl, rfl, hread⟩ := ih hv
      refine ⟨⟨before.alternatives, some (before.conjunction c')⟩, c, rfl, rfl, ?_⟩
      intro t ts clause ht h
      have hnot : ¬ Arithmetic.Continues s := by simp [Arithmetic.continues_iff, hs]
      have hand : comparedStep place before c' (some s) = .more (.compareLeft place
          ⟨before.alternatives, some (before.conjunction c')⟩ Arithmetic.start) := by
        simp only [comparedStep, Option.map_some, hs]
      rw [List.append_assoc, List.cons_append, hread s _ _ hnot hand]
      exact read_comparison hc hw place _ ht h

theorem read_alternatives {w : List Token} {cs : Condition} (hcs : cs.Spelled w)
    (hw : ∀ t ∈ w, t.IsLexeme) (place : ChoicePlace) :
    ∃ before c, before.condition c = cs ∧
      ∀ t ts clause, ¬ Arithmetic.Continues t → comparedStep place before c (some t) = .more clause →
        (Mode.clause (.compareLeft place OpenCondition.start Arithmetic.start)).read
          (w ++ t :: ts) = (Mode.clause clause).read ts := by
  induction hcs with
  | @one w c hc =>
      obtain ⟨before, c', halternatives, rfl, hread⟩ := read_conjunction hc hw place none
      refine ⟨before, c', ?_, hread⟩
      rw [OpenCondition.condition, halternatives]
  | @or s v w earlier c he hs hc ih =>
      obtain ⟨hv, -, hw⟩ := by simpa only [List.forall_mem_cons, List.forall_mem_append] using hw
      obtain ⟨before, c₁, rfl, hread⟩ := ih hv
      obtain ⟨before', c₂, halternatives, rfl, hread'⟩ :=
        read_conjunction hc hw place (some (before.condition c₁))
      refine ⟨before', c₂, ?_, ?_⟩
      · rw [OpenCondition.condition, halternatives]
      · intro t ts clause ht h
        have hnot : ¬ Arithmetic.Continues s := by simp [Arithmetic.continues_iff, hs]
        have hor : comparedStep place before c₁ (some s) = .more (.compareLeft place
            ⟨some (before.condition c₁), none⟩ Arithmetic.start) := by
          simp only [comparedStep, Option.map_some, hs]
        rw [List.append_assoc, List.cons_append, hread s _ _ hnot hor]
        exact hread' t ts clause ht h

theorem read_condition {w : List Token} {test : Condition} (htest : test.Spelled w)
    (hw : ∀ t ∈ w, t.IsLexeme) (place : ChoicePlace) {t : Token}
    (ht : t.kind = .symbol .closeParen) (ts : List Token) :
    (Mode.clause (.compareLeft place OpenCondition.start Arithmetic.start)).read (w ++ t :: ts) =
      (Mode.clause (.openYes place test)).read ts := by
  obtain ⟨before, c, rfl, hread⟩ := read_alternatives htest hw place
  have hnot : ¬ Arithmetic.Continues t := by simp [Arithmetic.continues_iff, ht]
  refine hread t ts _ hnot ?_
  simp only [comparedStep, Option.map_some, ht]

theorem endsAction_cons_iff {t : Token} {ts : List Token} :
    EndsAction (t :: ts) ↔ ¬ Arithmetic.Continues t ∧ t.kind ≠ .keyword .elseWord := by
  simp [EndsAction, EndsNumber]

theorem Action.Spelled.exists_cons {w : List Token} {a : Action} (h : a.Spelled w) :
    ∃ t u, w = t :: u ∧ (t.kind = .name ∨ t.kind = .keyword .ifWord ∨ t.kind = .symbol .openBrace) := by
  cases h with
  | assign hx ht he => exact ⟨_, _, rfl, .inl hx⟩
  | choose h =>
      cases h with
      | branch hi => exact ⟨_, _, rfl, .inr (.inl hi)⟩
  | block hb =>
      cases hb with
      | braces hl => exact ⟨_, _, rfl, .inr (.inr hl)⟩

theorem Action.Spelled.endsAction {w : List Token} {a : Action} (h : a.Spelled w)
    (ts : List Token) : EndsAction (w ++ ts) := by
  obtain ⟨t, u, rfl, ht⟩ := h.exists_cons
  rw [List.cons_append, endsAction_cons_iff, Arithmetic.continues_iff]
  rcases ht with ht | ht | ht <;> simp [ht]

theorem Action.Spelled.read_inside {w : List Token} {a : Action} (h : a.Spelled w)
    (place : BlockPlace) (done : Block) (ts : List Token) :
    (Mode.clause (.inside place done)).read (w ++ ts) =
      (Mode.clause (.action (.block place done))).read (w ++ ts) := by
  obtain ⟨t, u, rfl, ht⟩ := h.exists_cons
  apply read_congr
  rcases ht with ht | ht | ht <;>
    simp only [List.cons_append, List.head?_cons, Clause.step, insideStep, actionStep, ht]

theorem read_inside_semicolon {t : Token} (ht : t.kind = .symbol .semicolon) (place : BlockPlace)
    (done : Block) (ts : List Token) :
    (Mode.clause (.inside place done)).read (t :: ts) =
      (Mode.clause (.inside place done)).read ts := by
  apply read_of_more
  simp only [Clause.step, insideStep, ht]

theorem step_inside_closeBrace {t : Token} (ht : t.kind = .symbol .closeBrace) (place : BlockPlace)
    (done : Block) : (Clause.inside place done).step (some t) = close done place := by
  simp only [Clause.step, insideStep, ht]

theorem read_assign {op : AssignOp} {x t : Token} {w : List Token} {e : NumberExpr}
    (hx : x.kind = .name) (ht : t.kind = .symbol op.symbol) (he : e.Spelled w)
    (hw : ∀ t ∈ w, t.IsLexeme) (place : ActionPlace) {ts : List Token} (hts : EndsNumber ts) :
    (Mode.clause (.action place)).read (x :: t :: w ++ ts) =
      (place.plug (.assign x.ident op e)).read ts := by
  have htarget : (Clause.action place).step (some x) = .more (.operator place x.ident) := by
    simp only [Clause.step, actionStep, hx]
  have hop : (Clause.operator place x.ident).step (some t) =
      .more (.value place x.ident op Arithmetic.start) := by
    simp only [Clause.step, operatorStep, Option.bind_some, ht, assignOp?_symbol]
  obtain ⟨r, hread, hdone⟩ := read_number he hw hts
    (fun r => .clause (.value place x.ident op r))
    (fun r t r' hr => by simp only [Mode.step, Clause.step, hr, valueStep, Mode.clauseStep])
  rw [List.cons_append, List.cons_append, read_of_more htarget, read_of_more hop, hread]
  apply read_of_besideAction
  simp only [Clause.step, hdone, valueStep]

mutual

theorem read_action {w : List Token} {a : Action} :
    a.Spelled w → (∀ t ∈ w, t.IsLexeme) → ∀ place ts, EndsAction ts →
      (Mode.clause (.action place)).read (w ++ ts) = (place.plug a).read ts
  | .assign hx ht he, hw, place, ts, hts =>
      read_assign hx ht he (List.forall_mem_cons.mp (List.forall_mem_cons.mp hw).2).2 place hts.1
  | .choose h, hw, place, ts, hts => by
      refine read_conditional h hw (.action place) (.action place) ts hts ?_
      intro i hi
      simp only [Clause.step, actionStep, hi]
  | .block hb, hw, place, ts, hts => by
      obtain ⟨r, hr, hread⟩ := read_block hb hw (.action place) (.action place) ts fun l hl => by
        simp only [Clause.step, actionStep, hl]
      rw [hread]
      apply read_of_afterAction
      rw [step_inside_closeBrace hr, close]

theorem read_conditional {w : List Token} {test : Condition} {yes : Block} {no : Otherwise} :
    Conditional w test yes no → (∀ t ∈ w, t.IsLexeme) → ∀ clause place ts, EndsAction ts →
      (∀ i : Token, i.kind = .keyword .ifWord → clause.step (some i) = .more (.openTest place)) →
      (Mode.clause clause).read (w ++ ts) = (place.plug test yes no).read ts
  | @Conditional.branch i l r u v w test yes no hi hl ht hr hy hn, hw, clause, place, ts, hts, hif => by
      obtain ⟨-, -, hu, -, hv, hw⟩ := by
        simpa only [List.forall_mem_cons, List.forall_mem_append] using hw
      have hopen : (Clause.openTest place).step (some l) =
          .more (.compareLeft place OpenCondition.start Arithmetic.start) := by
        simp only [Clause.step, Clause.take, hl, if_pos]
      obtain ⟨r', hr', hread⟩ := read_block hy hv (.openYes place test) (.yes place test) (w ++ ts)
        fun l hl => by simp only [Clause.step, Clause.take, hl, if_pos]
      -- The branch is closed, but an `else` may still follow.
      have hyes : (Clause.inside (.yes place test) yes).step (some r') =
          .more (.afterYes place test yes) := by
        rw [step_inside_closeBrace hr', close]
      rw [List.cons_append, List.cons_append, List.append_assoc, List.cons_append,
        List.append_assoc, read_of_more (hif i hi), read_of_more hopen,
        read_condition ht hu place hr, hread, read_of_more hyes]
      exact read_otherwise hn hw place test yes ts hts

theorem read_otherwise {w : List Token} {no : Otherwise} :
    no.Spelled w → (∀ t ∈ w, t.IsLexeme) → ∀ place test yes ts, EndsAction ts →
      (Mode.clause (.afterYes place test yes)).read (w ++ ts) = (place.plug test yes no).read ts
  | .nothing, hw, place, test, yes, ts, hts => by
      apply read_of_besideAction
      have hnot : ¬ (ts.head?.any (·.kind = .keyword .elseWord)) = true := by
        cases ts with
        | nil => exact nofun
        | cons t ts => simpa using hts.2
      rw [List.nil_append, Clause.step, afterYesStep, if_neg hnot]
  | @Otherwise.Spelled.block t w body ht hb, hw, place, test, yes, ts, hts => by
      have helse : (Clause.afterYes place test yes).step (some t) =
          .more (.afterElse place test yes) := by
        simp [Clause.step, afterYesStep, ht]
      obtain ⟨r, hr, hread⟩ := read_block hb (List.forall_mem_cons.mp hw).2
        (.afterElse place test yes) (.no place test yes) ts fun l hl => by
          simp only [Clause.step, afterElseStep, Option.map_some, hl]
      rw [List.cons_append, read_of_more helse, hread]
      apply read_of_afterAction
      rw [step_inside_closeBrace hr, close]
  | @Otherwise.Spelled.chain t w test' yes' no' ht h, hw, place, test, yes, ts, hts => by
      have helse : (Clause.afterYes place test yes).step (some t) =
          .more (.afterElse place test yes) := by
        simp [Clause.step, afterYesStep, ht]
      rw [List.cons_append, read_of_more helse]
      refine read_conditional h (List.forall_mem_cons.mp hw).2 (.afterElse place test yes)
        (.chain place test yes) ts hts ?_
      intro i hi
      simp only [Clause.step, afterElseStep, Option.map_some, hi]

theorem read_block {w : List Token} {body : Block} :
    body.Spelled w → (∀ t ∈ w, t.IsLexeme) → ∀ clause place ts,
      (∀ l : Token, l.kind = .symbol .openBrace → clause.step (some l) = .more (.inside place .nil)) →
      ∃ r : Token, r.kind = .symbol .closeBrace ∧
        (Mode.clause clause).read (w ++ ts) = (Mode.clause (.inside place body)).read (r :: ts)
  | @Block.Spelled.braces l r w body hl hb hr, hw, clause, place, ts, hopen => by
      obtain ⟨-, hw, -⟩ := by simpa only [List.forall_mem_cons, List.forall_mem_append] using hw
      refine ⟨r, hr, ?_⟩
      have hends : EndsAction (r :: ts) := by
        simp [endsAction_cons_iff, Arithmetic.continues_iff, hr]
      rw [List.cons_append, List.append_assoc, read_of_more (hopen l hl)]
      exact read_contents hb hw place (r :: ts) hends

theorem read_contents {w : List Token} {body : Block} :
    body.Contents w → (∀ t ∈ w, t.IsLexeme) → ∀ place ts, EndsAction ts →
      (Mode.clause (.inside place .nil)).read (w ++ ts) =
        (Mode.clause (.inside place body)).read ts
  | .nil, _, place, ts, hts => rfl
  | @Block.Contents.semicolon t v body hv ht, hw, place, ts, hts => by
      have hends : EndsAction (t :: ts) := by
        simp [endsAction_cons_iff, Arithmetic.continues_iff, ht]
      rw [List.append_assoc]
      exact (read_contents hv (List.forall_mem_append.mp hw).1 place (t :: ts) hends).trans
        (read_inside_semicolon ht place body ts)
  | @Block.Contents.action v w body a hv ha, hw, place, ts, hts => by
      obtain ⟨hv', hw'⟩ := List.forall_mem_append.mp hw
      -- The words of the next action end the one before it.
      rw [List.append_assoc, read_contents hv hv' place (w ++ ts) (ha.endsAction ts),
        ha.read_inside place body ts, read_action ha hw' (.block place body) ts hts]
      rfl

end

def EndsClause (ts : List Token) : Prop :=
  ∀ t ∈ ts.head?, t.kind = .symbol .semicolon ∨ Mode.startsClause t

theorem kind_of_startsClause {t : Token} (h : Mode.startsClause t) :
    t.kind = .keyword .varWord ∨ t.kind = .keyword .dateWord ∨ t.kind = .keyword .atWord ∨
      t.kind = .keyword .optionsWord := by
  simpa [Mode.startsClause, or_assoc] using h

theorem EndsClause.endsAction {ts : List Token} (h : EndsClause ts) : EndsAction ts := by
  cases ts with
  | nil => exact ⟨nofun, nofun⟩
  | cons t ts =>
      rw [endsAction_cons_iff, Arithmetic.continues_iff]
      rcases h t rfl with ht | ht
      · simp [ht]
      · rcases kind_of_startsClause ht with ht | ht | ht | ht <;> simp [ht]

theorem EndsClause.not_openBrace {ts : List Token} (h : EndsClause ts) :
    ¬ (ts.head?.any (·.kind = .symbol .openBrace)) = true := by
  cases ts with
  | nil => exact nofun
  | cons t ts =>
      rcases h t rfl with ht | ht
      · simp [ht]
      · rcases kind_of_startsClause ht with ht | ht | ht | ht <;> simp [ht]

theorem Declaration.Spelled.endsClause {w : List Token} {d : Declaration} (h : d.Spelled w)
    (ts : List Token) : EndsClause (w ++ ts) := by
  cases h with
  | var hk hx ht he | varWith hk hx ht he hps => simp [EndsClause, Mode.startsClause, hk]
  | date hk hx ht hp => simp [EndsClause, Mode.startsClause, hk]
  | rule hk hd hc ha => simp [EndsClause, Mode.startsClause, hk]

theorem read_initial {k x t : Token} {w : List Token} {e : NumberExpr}
    (hk : k.kind = .keyword .varWord) (hx : x.kind = .name) (ht : t.kind = .symbol .assign)
    (he : e.Spelled w) (hw : ∀ t ∈ w, t.IsLexeme) {ts : List Token} (hts : EndsNumber ts) :
    ∃ r, Mode.between.read (k :: x :: t :: (w ++ ts)) = (Mode.clause (.initial x.ident r)).read ts ∧
      r.step ts.head? = .done e := by
  have hname : Clause.varName.step (some x) = .more (.varAssign x.ident) := by
    simp only [Clause.step, Clause.take, hx, if_pos]
  have hassign : (Clause.varAssign x.ident).step (some t) =
      .more (.initial x.ident Arithmetic.start) := by
    simp only [Clause.step, Clause.take, ht, if_pos]
  obtain ⟨r, hread, hdone⟩ := read_number he hw hts (fun r => .clause (.initial x.ident r))
    (fun r t r' hr => by simp only [Mode.step, Clause.step, hr, initialStep, Mode.clauseStep])
  refine ⟨r, ?_, hdone⟩
  have hvar : Mode.between.step k = ([], .clause .varName) := by
    simp only [Mode.step, Mode.betweenStep, hk]
  rw [Mode.read, hvar, List.nil_append, read_of_more hname, read_of_more hassign, hread]

theorem read_pattern {w : List Token} {p : PatternLiteral} (hp : p.Spelled w)
    (place : PatternLiteral.Reading → Mode) (ts : List Token)
    (hplace : ∀ r t r', PatternLiteral.Reading.step r (some t) = .more r' →
      (place r).step t = ([], place r')) :
    ∃ t r, (place PatternLiteral.start).read (w ++ ts) = (place r).read (t :: ts) ∧
      PatternLiteral.Reading.step r (some t) = .done p := by
  obtain ⟨v, t, r, rfl, hrun, hdone⟩ := PatternLiteral.run_pattern hp
  refine ⟨t, r, ?_, hdone⟩
  rw [List.append_assoc, read_append_of_run place _ hplace hrun]
  rfl

theorem read_properties {w : List Token} {ps : List Property}
    (h : PropertyList.Contents w ps) (hw : ∀ t ∈ w, t.IsLexeme)
    (place : PropertyList.Reading → Mode) (ts : List Token)
    (hplace : ∀ r t r', PropertyList.Reading.step r (some t) = .more r' →
      (place r).step t = ([], place r')) :
    (place (.entry [])).read (w ++ ts) = (place (.entry ps)).read ts :=
  read_append_of_run place ts hplace (PropertyList.run_contents h hw)

theorem PatternLiteral.Spelled.exists_cons {w : List Token} {p : PatternLiteral}
    (h : p.Spelled w) : ∃ t u, w = t :: u ∧ t.kind ≠ .name := by
  cases h with
  | parts hy hs hm ht hd =>
      cases hy with
      | wildcard ht => exact ⟨_, _, rfl, by rw [ht]; exact nofun⟩
      | plain ht => exact ⟨_, _, rfl, by rw [ht.kind]; exact nofun⟩
      | negative hm ht => exact ⟨_, _, rfl, by rw [hm]; exact nofun⟩

theorem ruleWhenStep_of_ne_name {t : Token} (ht : t.kind ≠ .name) :
    ruleWhenStep (some t) = rulePatternStep (PatternLiteral.start.step (some t)) := by
  obtain ⟨kind, text, span⟩ := t
  cases kind with
  | name => exact absurd rfl ht
  | keyword k | number | string | symbol s => rfl

theorem read_when {w : List Token} {when : When} (h : when.Spelled w) (ts : List Token) :
    (Mode.clause .ruleWhen).read (w ++ ts) = (Mode.clause (.ruleComma when)).read ts := by
  cases h with
  | @named t ht =>
      obtain ⟨kind, text, span⟩ := t
      obtain rfl : kind = .name := ht
      exact read_of_more rfl
  | pattern hp =>
      obtain ⟨t, r, hread, hdone⟩ := read_pattern hp (fun r => .clause (.rulePattern r)) ts
        (fun r t r' hr => by simp only [Mode.step, Clause.step, hr, rulePatternStep, Mode.clauseStep])
      -- A pattern starts with no name, so the rule cannot take it for the name of a date.
      have hcongr : (Mode.clause .ruleWhen).read (w ++ ts) =
          (Mode.clause (.rulePattern PatternLiteral.start)).read (w ++ ts) := by
        obtain ⟨t, u, rfl, ht⟩ := hp.exists_cons
        apply read_congr
        rw [List.cons_append, List.head?_cons, Clause.step, Clause.step, ruleWhenStep_of_ne_name ht]
      rw [hcongr, hread]
      apply read_of_more
      rw [Clause.step, hdone, rulePatternStep]

theorem read_declaration {w : List Token} {d : Declaration} (hd : d.Spelled w)
    (hw : ∀ t ∈ w, t.IsLexeme) {ts : List Token} (hts : EndsClause ts) :
    Mode.between.read (w ++ ts) = .declaration d :: Mode.between.read ts := by
  cases hd with
  | @var k x t w e hk hx ht he =>
      obtain ⟨-, -, -, hw⟩ := by simpa only [List.forall_mem_cons] using hw
      obtain ⟨r, hread, hdone⟩ := read_initial hk hx ht he hw hts.endsAction.1
      rw [List.cons_append, List.cons_append, List.cons_append, hread]
      apply read_of_before
      rw [Clause.step, hdone, initialStep, if_neg hts.not_openBrace]
  | @varWith k x t v w e ps hk hx ht he hps =>
      cases hps with
      | @braces l r w ps hl hps hr =>
          obtain ⟨-, -, -, hv, -, hw, -⟩ := by
            simpa only [List.forall_mem_cons, List.forall_mem_append] using hw
          have hnot : ¬ Arithmetic.Continues l := by simp [Arithmetic.continues_iff, hl]
          obtain ⟨r', hread, hdone⟩ := read_initial hk hx ht he hv
            (endsNumber_cons hnot (w ++ r :: ts))
          have hopen : (Clause.initial x.ident r').step (some l) =
              .more (.varProperties x.ident e (.entry [])) := by
            rw [List.head?_cons] at hdone
            rw [Clause.step, hdone, initialStep, if_pos (by simp [hl])]
          have hcontents := read_properties hps hw
            (fun r => .clause (.varProperties x.ident e r)) (r :: ts) fun r t r' hr => by
              simp only [Mode.step, Clause.step, hr, varPropertiesStep, Mode.clauseStep]
          have hclose : (Clause.varProperties x.ident e (.entry ps)).step (some r) =
              .last (.var x.ident e (some ps)) := by
            rw [Clause.step, PropertyList.step_closeBrace hr, varPropertiesStep]
          have hwords : k :: x :: t :: (v ++ l :: (w ++ [r])) ++ ts =
              k :: x :: t :: (v ++ l :: (w ++ r :: ts)) := by simp
          rw [hwords, hread, read_of_more hopen, hcontents, read_of_last hclose]
  | @date k x t w p hk hx ht hp =>
      have hdate : Mode.between.step k = ([], .clause .dateName) := by
        simp only [Mode.step, Mode.betweenStep, hk]
      have hname : Clause.dateName.step (some x) = .more (.dateAssign x.ident) := by
        simp only [Clause.step, Clause.take, hx, if_pos]
      have hassign : (Clause.dateAssign x.ident).step (some t) =
          .more (.datePattern x.ident PatternLiteral.start) := by
        simp only [Clause.step, Clause.take, ht, if_pos]
      obtain ⟨t', r, hread, hdone⟩ := read_pattern hp (fun r => .clause (.datePattern x.ident r)) ts
        fun r t r' hr => by simp only [Mode.step, Clause.step, hr, datePatternStep, Mode.clauseStep]
      have hlast : (Clause.datePattern x.ident r).step (some t') = .last (.date x.ident p) := by
        rw [Clause.step, hdone, datePatternStep]
      rw [List.cons_append, List.cons_append, List.cons_append, Mode.read, hdate, List.nil_append,
        read_of_more hname, read_of_more hassign, hread, read_of_last hlast]
  | @rule k c v w when a hk hd hc ha =>
      obtain ⟨-, -, -, hw⟩ := by simpa only [List.forall_mem_cons, List.forall_mem_append] using hw
      have hat : Mode.between.step k = ([], .clause .ruleWhen) := by
        simp only [Mode.step, Mode.betweenStep, hk]
      have hcomma : (Clause.ruleComma when).step (some c) = .more (.action (.rule when)) := by
        simp only [Clause.step, Clause.take, hc, if_pos]
      rw [List.cons_append, List.append_assoc, List.cons_append, Mode.read, hat, List.nil_append,
        read_when hd, read_of_more hcomma, read_action ha hw (.rule when) ts hts.endsAction]
      rfl

theorem read_semicolon {t : Token} (ht : t.kind = .symbol .semicolon) (ts : List Token) :
    Mode.between.read (t :: ts) = Mode.between.read ts := by
  have hstep : Mode.between.step t = ([], .between) := by
    simp only [Mode.step, Mode.betweenStep, ht]
  rw [Mode.read, hstep, List.nil_append]

theorem read_declarations {w : List Token} {ds : List Declaration} (h : Declarations w ds)
    (hw : ∀ t ∈ w, t.IsLexeme) {ts : List Token} (hts : EndsClause ts) :
    Mode.between.read (w ++ ts) = ds.map .declaration ++ Mode.between.read ts := by
  induction h generalizing ts with
  | nil => rfl
  | @semicolon t v ds hv ht ih =>
      have hends : EndsClause (t :: ts) := by simp [EndsClause, ht]
      have hread := ih (List.forall_mem_append.mp hw).1 hends
      rw [List.append_assoc, List.singleton_append, hread, read_semicolon ht]
  | @declaration v w ds d hv hd ih =>
      obtain ⟨hv', hw'⟩ := List.forall_mem_append.mp hw
      rw [List.append_assoc, ih hv' (hd.endsClause ts), read_declaration hd hw' hts,
        List.map_append, List.append_assoc]
      rfl

theorem read_closed {w : List Token} (hw : ∀ t ∈ w, t.kind = .symbol .semicolon) :
    Mode.closed.read w = [] := by
  induction w with
  | nil => rfl
  | cons t w ih =>
      obtain ⟨ht, hw⟩ := List.forall_mem_cons.mp hw
      have hstep : Mode.closed.step t = ([], .closed) := by
        simp only [Mode.step, Mode.closedStep, if_pos ht]
      rw [Mode.read, hstep, List.nil_append, ih hw]

theorem read_options {k : Token} {v w : List Token} {ps : List Property}
    (hk : k.kind = .keyword .optionsWord) (hps : PropertyList.Spelled v ps)
    (hv : ∀ t ∈ v, t.IsLexeme) (hw : ∀ t ∈ w, t.kind = .symbol .semicolon) :
    Mode.between.read (k :: (v ++ w)) = [.options ps] := by
  cases hps with
  | @braces l r v ps hl hps hr =>
      obtain ⟨-, hv, -⟩ := by simpa only [List.forall_mem_cons, List.forall_mem_append] using hv
      have hoptions : Mode.between.step k = ([], .options .opening) := by
        simp only [Mode.step, Mode.betweenStep, hk]
      have hopen : (Mode.options .opening).step l = ([], .options (.entry [])) := by
        simp only [Mode.step, PropertyList.Reading.step, Step.take, hl, if_pos, Mode.optionsStep]
      have hcontents := read_properties hps hv (fun r => .options r) (r :: w)
        fun r t r' hr => by simp only [Mode.step, hr, Mode.optionsStep]
      have hclose : (Mode.options (.entry ps)).step r = ([.options ps], .closed) := by
        rw [Mode.step, PropertyList.step_closeBrace hr, Mode.optionsStep]
      have hwords : k :: (l :: (v ++ [r]) ++ w) = k :: l :: (v ++ r :: w) := by simp
      rw [hwords, Mode.read, hoptions, List.nil_append, Mode.read, hopen, List.nil_append, hcontents,
        Mode.read, hclose, read_closed hw]
      rfl

theorem ofTokens_of_events {tokens : List Token} {ds : List Declaration}
    {options : Option (List Property)}
    (h : Mode.between.read tokens = ds.map .declaration ++ (options.map Event.options).toList) :
    Script.ofTokens tokens = (⟨ds, options⟩, []) := by
  have hdeclarations : (ds.map Event.declaration).filterMap Event.declaration? = ds := by
    simp [List.filterMap_map, Function.comp_def, Event.declaration?]
  have hoptions : (ds.map Event.declaration).findSome? Event.options? = none := by
    simp [List.findSome?_map, Function.comp_def, Event.options?]
  have hblames : (ds.map Event.declaration).filterMap Event.blame? = [] := by
    simp [List.filterMap_map, Function.comp_def, Event.blame?]
  rw [Script.ofTokens, h]
  cases options with
  | none => simp [Script.ofEvents, hdeclarations, hoptions, hblames]
  | some ps =>
      simp [Script.ofEvents, hdeclarations, hoptions, hblames, Event.declaration?, Event.options?,
        Event.blame?]

/-- A list of tokens that spells a script is read as that script, without a fault. -/
theorem Script.Spelled.ofTokens_eq {tokens : List Token} {s : Script} (h : s.Spelled tokens)
    (hw : ∀ t ∈ tokens, t.IsLexeme) : Script.ofTokens tokens = (s, []) := by
  cases h with
  | plain hds =>
      apply ofTokens_of_events
      have hread : Mode.between.read (tokens ++ []) = _ ++ [] := read_declarations hds hw nofun
      rwa [List.append_nil] at hread
  | @withOptions k u v w ds ps hds hk hps hsemi =>
      obtain ⟨hu, -, hv, -⟩ := by simpa only [List.forall_mem_cons, List.forall_mem_append] using hw
      apply ofTokens_of_events
      have hends : EndsClause (k :: (v ++ w)) := by simp [EndsClause, Mode.startsClause, hk]
      rw [read_declarations hds hu hends, read_options hk hps hv hsemi]
      rfl

theorem Script.Spelled.ofText_eq {source : List Char} {s : Script}
    (h : s.Spelled (Token.ofText source)) (hunbroken : Token.brokenParts source = []) :
    ofText source = ⟨s, []⟩ := by
  have htokens := h.ofTokens_eq fun t ht => Token.isLexeme_of_mem_ofText ht
  rw [ofText, hunbroken]
  simp only [htokens, List.map_nil, List.append_nil]

end Forecast
