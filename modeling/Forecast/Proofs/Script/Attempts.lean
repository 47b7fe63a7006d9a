import Forecast.Evaluation
import Forecast.Proofs.Script.Blamed
import Forecast.Proofs.Script.Expected
import Forecast.Proofs.Script.Recovery

namespace Forecast

open Clause

def Token.startsDeclaration (t : Token) : Bool :=
  t.kind = .keyword .varWord || t.kind = .keyword .dateWord || t.kind = .keyword .atWord

theorem Token.startsDeclaration_iff {t : Token} : t.startsDeclaration ↔ t.kind = .keyword .varWord ∨
    t.kind = .keyword .dateWord ∨ t.kind = .keyword .atWord := by
  simp [startsDeclaration, or_assoc]

theorem Mode.startsClause_eq (t : Token) :
    startsClause t = (t.startsDeclaration || t.kind = .keyword .optionsWord) := rfl

def Event.settles : Event → Bool
  | declaration _ | options _ => true
  | fault b => b.cause ≠ .extraneous

/-- A word that starts a clause, tokens that follow it, and what comes of them. -/
structure Attempt where
  keyword : Token
  body : List Token
  result : Event

namespace Attempt

def tokens (a : Attempt) : List Token := a.keyword :: a.body

/-- The tokens decide on the result: the first of them spell it, or something is wrong with one of
those after the keyword, or with what comes next: another token or the end of the input. -/
inductive Decided (next : Option Token) : Attempt → Prop
  | declaration {k : Token} {v w : List Token} {d : Declaration} (hd : d.Spelled (k :: v)) :
      Decided next ⟨k, v ++ w, .declaration d⟩
  | options {k : Token} {v w : List Token} {ps : List Property}
      (hk : k.kind = .keyword .optionsWord) (hps : PropertyList.Spelled v ps) :
      Decided next ⟨k, v ++ w, .options ps⟩
  | fault {k : Token} {body : List Token} {b : Blame}
      (hplace : (∃ t ∈ body, b.token = some t) ∨ b.token = next)
      (hcause : b.cause = .datePart ∨ ∃ kinds, b.cause = .expected kinds) :
      Decided next ⟨k, body, .fault b⟩

theorem Decided.settles {next : Option Token} {a : Attempt} (h : a.Decided next) :
    a.result.settles := by
  cases h with
  | declaration hd | options hk hps => rfl
  | fault hplace hcause =>
      rcases hcause with hcause | ⟨kinds, hcause⟩ <;> simp [Event.settles, hcause]

end Attempt

/-- The tokens fall into attempts: at declarations, each up to the next word that starts a clause,
and at the options, with all that comes after them. -/
inductive Attempts : List Token → List Attempt → Prop
  | nil : Attempts [] []
  | declaration {a : Attempt} {ts : List Token} {attempts : List Attempt}
      (hkeyword : a.keyword.startsDeclaration) (hbody : ∀ t ∈ a.body, ¬ Mode.startsClause t)
      (hresult : a.Decided ts.head?) (hrest : Attempts ts attempts) :
      Attempts (a.tokens ++ ts) (a :: attempts)
  | options {a : Attempt} (hkeyword : a.keyword.kind = .keyword .optionsWord)
      (hresult : a.Decided none) : Attempts a.tokens [a]

theorem Token.not_startsDeclaration {t : Token} (ht : ¬ Mode.startsClause t) :
    ¬ t.startsDeclaration := by
  rw [Mode.startsClause_eq, Bool.or_eq_true, not_or] at ht
  exact ht.1

theorem Attempts.length_add_length {ts : List Token} {attempts : List Attempt}
    (h : Attempts ts attempts) (hoptions : ∀ t ∈ ts, t.kind ≠ .keyword .optionsWord) :
    (attempts.filterMap (·.result.declaration?)).length +
      (attempts.filterMap (·.result.blame?)).length = ts.countP Token.startsDeclaration := by
  induction h with
  | nil => rfl
  | options hkeyword hresult => exact absurd hkeyword (hoptions _ List.mem_cons_self)
  | declaration hkeyword hbody hresult hrest ih =>
      obtain ⟨hattempt, hts⟩ := List.forall_mem_append.mp hoptions
      rw [List.countP_append, Attempt.tokens, List.countP_cons_of_pos hkeyword,
        List.countP_eq_zero.mpr fun t ht => Token.not_startsDeclaration (hbody t ht), ← ih hts]
      cases hresult with
      | declaration hd =>
          simp only [List.filterMap_cons, Event.declaration?, Event.blame?, List.length_cons]
          omega
      | options hk hps => exact absurd hk (hattempt _ List.mem_cons_self)
      | fault hplace hcause =>
          simp only [List.filterMap_cons, Event.declaration?, Event.blame?, List.length_cons]
          omega

def Settle (events : List Event) (attempts : List Attempt) : Prop :=
  events.filter Event.settles = attempts.map Attempt.result

section Settle

variable {events events' : List Event} {attempts : List Attempt}

theorem Settle.cons {a : Attempt} (ha : a.result.settles) (h : Settle events attempts) :
    Settle (a.result :: events) (a :: attempts) := by
  rw [Settle, List.filter_cons_of_pos ha, h, List.map_cons]

theorem Settle.append (h : Settle events []) (h' : Settle events' attempts) :
    Settle (events ++ events') attempts := by
  rw [Settle, List.filter_append, h, h']
  rfl

theorem filterMap_of_settle {α : Type} {f : Event → Option α} (hf : ∀ e, ¬ e.settles → f e = none)
    (h : Settle events attempts) : events.filterMap f = attempts.filterMap fun a => f a.result := by
  have hsettles : f = fun e => if e.settles then f e else none := by
    funext e
    split_ifs with he
    · rfl
    · exact hf e he
  calc events.filterMap f
      = (events.filter Event.settles).filterMap f := by rw [List.filterMap_filter, ← hsettles]
    _ = attempts.filterMap fun a => f a.result := by
        rw [h, List.filterMap_map]
        rfl

theorem declarations_of_settle (h : Settle events attempts) :
    events.filterMap Event.declaration? = attempts.filterMap (·.result.declaration?) := by
  refine filterMap_of_settle ?_ h
  rintro (d | ps | b) he
  · exact absurd rfl he
  · rfl
  · rfl

theorem options_of_settle (h : Settle events attempts) :
    events.findSome? Event.options? = attempts.findSome? (·.result.options?) := by
  rw [← List.head?_filterMap, ← List.head?_filterMap, filterMap_of_settle _ h]
  rintro (d | ps | b) he
  · rfl
  · exact absurd rfl he
  · rfl

theorem blames_of_settle (h : Settle events attempts) :
    (events.filterMap Event.blame?).filter (·.cause ≠ .extraneous) =
      attempts.filterMap (·.result.blame?) := by
  have hevent : (fun e : Event => e.blame?.filter (·.cause ≠ .extraneous)) =
      fun e => if e.settles then e.blame? else none := by
    funext e
    cases e with
    | declaration d | options ps => rfl
    | fault b => exact Option.filter_some
  rw [List.filter_filterMap, hevent, ← List.filterMap_filter, h, List.filterMap_map]
  rfl

end Settle

namespace Mode

variable {m : Mode} {t : Token} {ts : List Token}

inductive Trailing : Mode → Prop
  | skippingOptions : Trailing .skippingOptions
  | closed : Trailing .closed
  | ended : Trailing .ended

theorem Trailing.step (hm : m.Trailing) (t : Token) :
    (m.step t).2.Trailing ∧ Settle (m.step t).1 [] := by
  cases hm with
  | skippingOptions =>
      rw [Mode.step, skippingOptionsStep]
      split_ifs
      · exact ⟨.ended, rfl⟩
      · exact ⟨.skippingOptions, rfl⟩
  | closed =>
      rw [Mode.step, closedStep]
      split_ifs
      · exact ⟨.closed, rfl⟩
      · exact ⟨.ended, rfl⟩
  | ended => exact ⟨.ended, rfl⟩

theorem Trailing.settle_read (hm : m.Trailing) (ts : List Token) : Settle (m.read ts) [] := by
  induction ts generalizing m with
  | nil => cases hm <;> rfl
  | cons t ts ih =>
      obtain ⟨hnext, hstep⟩ := hm.step t
      exact hstep.append (ih hnext)

end Mode

theorem PropertyList.Reading.Reads.exists_settle {k : Token} (hk : k.kind = .keyword .optionsWord)
    {ts : List Token} (hts : ∀ t ∈ ts, t.IsLexeme) {r : Reading} {w : List Token} (hr : r.Reads w) :
    ∃ a : Attempt, a.tokens = k :: (w ++ ts) ∧ a.Decided none ∧
      Settle ((Mode.options r).read ts) [a] := by
  induction ts generalizing r w with
  | nil =>
      obtain ⟨kinds, hnone⟩ := r.step_none
      have hdecided : Attempt.Decided none ⟨k, w ++ [], .fault ⟨none, .expected kinds⟩⟩ :=
        .fault (.inr rfl) (.inr ⟨kinds, rfl⟩)
      refine ⟨_, rfl, hdecided, ?_⟩
      rw [Mode.read, Mode.finish, hnone]
      rfl
  | cons t ts ih =>
      have haccounts := hr.step t
      obtain ⟨ht, hts⟩ := List.forall_mem_cons.mp hts
      rw [List.append_cons, Mode.read, Mode.step]
      cases hstep : r.step (some t) with
      | more r' =>
          rw [hstep] at haccounts
          exact ih hts haccounts
      | done ps =>
          rw [hstep] at haccounts
          have hdecided : Attempt.Decided none ⟨k, w ++ [t] ++ ts, .options ps⟩ :=
            .options hk haccounts
          have hclosed := Mode.Trailing.closed.settle_read ts
          exact ⟨_, rfl, hdecided, hclosed.cons hdecided.settles⟩
      | wrong cause =>
          have hcause : cause = .datePart ∨ ∃ kinds, cause = .expected kinds := by
            refine (fits_step hstep).of_isLexeme ?_
            rintro _ ⟨⟩
            exact ht
          have hdecided : Attempt.Decided none ⟨k, w ++ [t] ++ ts, .fault ⟨some t, cause⟩⟩ :=
            .fault (.inl ⟨t, by simp, rfl⟩) hcause
          -- What comes after the fault is what is read while the rest is passed over.
          have hskipping := Mode.Trailing.skippingOptions.settle_read (t :: ts)
          exact ⟨_, rfl, hdecided, hskipping.cons hdecided.settles⟩

namespace Mode

variable {m : Mode} {t : Token} {ts : List Token}

inductive Idle : Mode → Prop
  | between : Idle .between
  | skipping : Idle .skipping

def Tries (m : Mode) (ts : List Token) : Prop :=
  ∃ lead rest attempts, ts = lead ++ rest ∧ (∀ t ∈ lead, ¬ startsClause t) ∧
    Attempts rest attempts ∧ Settle (m.read ts) attempts

theorem Idle.step_of_startsClause (hm : m.Idle) (ht : startsClause t) :
    m.step t = betweenStep t := by
  cases hm with
  | between => rfl
  | skipping => exact if_pos ht

theorem betweenStep_of_startsDeclaration (ht : t.startsDeclaration) :
    ∃ c, betweenStep t = ([], .clause c) ∧ c.Reads [t] := by
  rcases Token.startsDeclaration_iff.mp ht with ht | ht | ht
  · exact ⟨.varName, by rw [betweenStep, ht], .varName ht⟩
  · exact ⟨.dateName, by rw [betweenStep, ht], .dateName ht⟩
  · exact ⟨.ruleWhen, by rw [betweenStep, ht], .ruleWhen ht⟩

theorem Idle.step_of_not_startsClause (hm : m.Idle) (ht : ¬ startsClause t) :
    (m.step t).2.Idle ∧ Settle (m.step t).1 [] := by
  cases hm with
  | skipping =>
      rw [step, skippingStep, if_neg ht]
      exact ⟨.skipping, rfl⟩
  | between =>
      rw [step, betweenStep]
      split
      case h_1 => exact ⟨.between, rfl⟩
      case h_6 => exact ⟨.skipping, rfl⟩
      all_goals exact absurd (by simp [startsClause, *]) ht

theorem Idle.tries_cons_of_not_startsClause (hm : m.Idle) (ht : ¬ startsClause t)
    (hts : ∀ m' : Mode, m'.Idle → m'.Tries ts) : m.Tries (t :: ts) := by
  obtain ⟨hm', hnone⟩ := hm.step_of_not_startsClause ht
  obtain ⟨lead, rest, attempts, rfl, hlead, hattempts, hsettle⟩ := hts _ hm'
  refine ⟨t :: lead, rest, attempts, rfl, ?_, hattempts, hnone.append hsettle⟩
  exact List.forall_mem_cons.mpr ⟨ht, hlead⟩

end Mode

namespace Clause

variable {c : Clause} {k : Token} {w ts : List Token}

/-- What is read comes from the attempt that is being made, after some of its tokens, and from
those after it. -/
def Tries (c : Clause) (k : Token) (w ts : List Token) : Prop :=
  ∃ body rest result attempts, ts = body ++ rest ∧ (∀ t ∈ body, ¬ Mode.startsClause t) ∧
    Attempt.Decided rest.head? ⟨k, w ++ body, result⟩ ∧ Attempts rest attempts ∧
      Settle ((Mode.clause c).read ts) (⟨k, w ++ body, result⟩ :: attempts)

theorem read_of_wrong {cause : Cause} (h : c.step ts.head? = .wrong cause) :
    (Mode.clause c).read ts = .fault ⟨ts.head?, cause⟩ :: Mode.skipping.read ts := by
  cases ts with
  | nil =>
      rw [List.head?_nil] at h
      simp only [Mode.read, Mode.finish, h, List.head?_nil]
  | cons t ts =>
      rw [List.head?_cons] at h
      rw [Mode.read, Mode.step, h]
      rfl

theorem tries_of_tries {m : Mode} {e : Event} (hm : m.Tries ts)
    (hread : (Mode.clause c).read ts = e :: m.read ts)
    (he : ∀ lead rest, ts = lead ++ rest → Attempt.Decided rest.head? ⟨k, w ++ lead, e⟩) :
    c.Tries k w ts := by
  obtain ⟨lead, rest, attempts, hts, hlead, hattempts, hsettle⟩ := hm
  have hdecided := he lead rest hts
  refine ⟨lead, rest, e, attempts, hts, hlead, hdecided, hattempts, ?_⟩
  rw [hread]
  exact hsettle.cons hdecided.settles

theorem Reads.tries_of_before (hc : c.Reads (k :: w)) {d : Declaration}
    (h : c.step ts.head? = .before d) (hm : Mode.between.Tries ts) : c.Tries k w ts := by
  have hd : d.Spelled (k :: w) := by
    cases hts : ts.head? with
    | none =>
        have hends := hc.ends
        rwa [← hts, h] at hends
    | some t =>
        have haccounts := hc.step t
        rwa [← hts, h] at haccounts
  exact tries_of_tries hm (read_of_before h) fun lead rest _ => .declaration hd

theorem tries_of_wrong {cause : Cause} (h : c.step ts.head? = .wrong cause)
    (hts : ∀ t ∈ ts, t.IsLexeme) (hm : Mode.skipping.Tries ts) : c.Tries k w ts := by
  have hcause := (fits_step h).of_isLexeme fun t ht => hts t (List.mem_of_mem_head? ht)
  refine tries_of_tries hm (read_of_wrong h) fun lead rest hlead => .fault ?_ hcause
  cases lead with
  | nil => exact .inr (by rw [hlead, List.nil_append])
  | cons t lead =>
      refine .inl ⟨t, List.mem_append_right w List.mem_cons_self, ?_⟩
      rw [hlead, List.cons_append, List.head?_cons]

theorem tries_of_more {c' : Clause} {t : Token} (h : c.step (some t) = .more c')
    (ht : ¬ Mode.startsClause t) (hc : c'.Tries k (w ++ [t]) ts) : c.Tries k w (t :: ts) := by
  obtain ⟨body, rest, result, attempts, rfl, hbody, hresult, hattempts, hsettle⟩ := hc
  rw [← List.append_cons] at hresult hsettle
  refine ⟨t :: body, rest, result, attempts, rfl, ?_, hresult, hattempts, ?_⟩
  · exact List.forall_mem_cons.mpr ⟨ht, hbody⟩
  · rwa [read_of_more h]

theorem Reads.tries_of_last (hc : c.Reads (k :: w)) {d : Declaration} {t : Token}
    (h : c.step (some t) = .last d) (ht : ¬ Mode.startsClause t) (hm : Mode.between.Tries ts) :
    c.Tries k w (t :: ts) := by
  obtain ⟨lead, rest, attempts, rfl, hlead, hattempts, hsettle⟩ := hm
  have hd : d.Spelled (k :: (w ++ [t])) := by
    have haccounts := hc.step t
    rwa [h] at haccounts
  have hdecided : Attempt.Decided rest.head? ⟨k, w ++ t :: lead, .declaration d⟩ := by
    rw [List.append_cons]
    exact .declaration hd
  refine ⟨t :: lead, rest, .declaration d, attempts, rfl, ?_, hdecided, hattempts, ?_⟩
  · exact List.forall_mem_cons.mpr ⟨ht, hlead⟩
  · rw [read_of_last h]
    exact hsettle.cons hdecided.settles

theorem not_startsClause_of_takes {t : Token} (h : (c.step (some t)).Takes) :
    ¬ Mode.startsClause t := by
  intro ht
  have hend := c.endAlike_step ht
  generalize c.step none = o, c.step (some t) = o' at hend h
  cases hend <;> exact h

end Clause

namespace Mode

variable {m : Mode} {t : Token} {ts : List Token}

theorem Idle.tries_cons_of_startsClause (hm : m.Idle) (ht : startsClause t)
    (hts : ∀ t ∈ ts, t.IsLexeme) (hclause : ∀ (c : Clause) k w, c.Reads (k :: w) → c.Tries k w ts) :
    m.Tries (t :: ts) := by
  have hread : m.read (t :: ts) = (betweenStep t).1 ++ (betweenStep t).2.read ts := by
    rw [read, hm.step_of_startsClause ht]
  rw [startsClause_eq, Bool.or_eq_true, decide_eq_true_eq] at ht
  rcases ht with ht | ht
  · obtain ⟨c, hstep, hc⟩ := betweenStep_of_startsDeclaration ht
    obtain ⟨body, rest, result, attempts, rfl, hbody, hresult, hattempts, hsettle⟩ :=
      hclause c t [] hc
    refine ⟨[], _, _, rfl, List.forall_mem_nil _, .declaration ht hbody hresult hattempts, ?_⟩
    rwa [hread, hstep, List.nil_append]
  · obtain ⟨a, htokens, hresult, hsettle⟩ :=
      PropertyList.Reading.Reads.opening.exists_settle ht hts
    refine ⟨[], a.tokens, [a], htokens.symm, List.forall_mem_nil _, .options ?_ hresult, ?_⟩
    · rw [(List.cons.inj htokens).1, ht]
    · rw [hread, betweenStep, ht]
      exact hsettle

theorem tries {ts : List Token} (hts : ∀ t ∈ ts, t.IsLexeme) :
    (∀ m : Mode, m.Idle → m.Tries ts) ∧
      ∀ (c : Clause) k w, c.Reads (k :: w) → c.Tries k w ts := by
  -- Both at once, since a keyword starts a clause and what follows a clause is read from between.
  induction ts with
  | nil =>
      have hidle : ∀ m : Mode, m.Idle → m.Tries [] := by
        intro m hm
        refine ⟨[], [], [], rfl, List.forall_mem_nil _, .nil, ?_⟩
        cases hm <;> rfl
      refine ⟨hidle, fun c k w hc => ?_⟩
      have hends := hc.ends
      cases h : c.step none with
      | before d => exact hc.tries_of_before h (hidle _ .between)
      | wrong cause => exact Clause.tries_of_wrong h hts (hidle _ .skipping)
      | more c' | last d =>
          rw [h] at hends
          exact hends.elim
  | cons t ts ih =>
      obtain ⟨hidle, hclause⟩ := ih (List.forall_mem_cons.mp hts).2
      have hidle' : ∀ m : Mode, m.Idle → m.Tries (t :: ts) := by
        intro m hm
        by_cases ht : startsClause t
        · exact hm.tries_cons_of_startsClause ht (List.forall_mem_cons.mp hts).2 hclause
        · exact hm.tries_cons_of_not_startsClause ht hidle
      refine ⟨hidle', fun c k w hc => ?_⟩
      cases h : c.step (some t) with
      | before d => exact hc.tries_of_before h (hidle' _ .between)
      | wrong cause => exact Clause.tries_of_wrong h hts (hidle' _ .skipping)
      | more c' =>
          have ht : ¬ startsClause t := Clause.not_startsClause_of_takes (by rw [h]; trivial)
          have haccounts := hc.step t
          rw [h] at haccounts
          exact Clause.tries_of_more h ht (hclause c' k (w ++ [t]) haccounts)
      | last d =>
          have ht : ¬ startsClause t := Clause.not_startsClause_of_takes (by rw [h]; trivial)
          exact hc.tries_of_last h ht (hidle _ .between)

end Mode

def Problem.endsAttempt : Problem → Bool
  | mismatched _ _ | datePart _ => true
  | _ => false

namespace Script

variable {source : List Char}

theorem cause_ne_number {b : Blame} (h : b ∈ (ofTokens (Token.ofText source)).2) :
    b.cause ≠ .number := by
  obtain ⟨before, after, m, hts, hblames⟩ := exists_blames_of_mem h
  have hlexeme : ∀ t ∈ after.head?, t.IsLexeme := by
    intro t ht
    have hmem := List.mem_append_right before (List.mem_of_mem_head? ht)
    exact Token.isLexeme_of_mem_ofText (hts ▸ hmem)
  rcases hblames.fits with ⟨hcause, -⟩ | ⟨Takes, hfits⟩
  · rw [hcause]
    exact nofun
  · rcases hfits.of_isLexeme hlexeme with hcause | ⟨kinds, hcause⟩
    · rw [hcause]
      exact nofun
    · rw [hcause]
      exact nofun

theorem problem_ne_number {f : Fault} (h : f ∈ (ofText source).faults) (text : String) :
    f.problem ≠ .number text := by
  rcases List.mem_append.mp h with h | h
  · obtain ⟨part, -, rfl⟩ := List.mem_map.mp h
    exact nofun
  · obtain ⟨⟨token, cause⟩, hb, rfl⟩ := List.mem_map.mp h
    have hcause := cause_ne_number hb
    cases token <;> cases cause <;> first | exact absurd rfl hcause | exact nofun

theorem filter_faults : (ofText source).faults.filter (·.problem.endsAttempt) =
    ((ofTokens (Token.ofText source)).2.filter (·.cause ≠ .extraneous)).map
      (Blame.fault (byteLength source)) := by
  rw [ofText, List.filter_append, List.filter_eq_nil_iff.mpr, List.nil_append, List.filter_map]
  · refine congrArg _ (List.filter_congr fun b hb => ?_)
    obtain ⟨token, cause⟩ := b
    have hcause := cause_ne_number hb
    cases token <;> cases cause <;> first | rfl | exact absurd rfl hcause
  · intro f hf
    obtain ⟨part, -, rfl⟩ := List.mem_map.mp hf
    exact Bool.false_ne_true

/-- Each word that starts a declaration is the start of one attempt, which comes to a declaration or
to a single report of where it breaks off, and so does the word that starts the options, after
which there is no other attempt. So where there are no options, declarations and such reports
together are as many as the words that start declarations. No numeral is ever found unfit. -/
theorem ofText_attempts (source : List Char) :
    (∃ lead rest attempts, Token.ofText source = lead ++ rest ∧
      (∀ t ∈ lead, ¬ Mode.startsClause t) ∧ Attempts rest attempts ∧
      (ofText source).value = ⟨attempts.filterMap (·.result.declaration?),
        attempts.findSome? (·.result.options?)⟩ ∧
      (ofText source).faults.filter (·.problem.endsAttempt) =
        (attempts.filterMap (·.result.blame?)).map (Blame.fault (byteLength source))) ∧
    ((∀ t ∈ Token.ofText source, t.kind ≠ .keyword .optionsWord) →
      (ofText source).value.declarations.length +
        (ofText source).faults.countP (·.problem.endsAttempt) =
          (Token.ofText source).countP Token.startsDeclaration) ∧
    ∀ f ∈ (ofText source).faults, ∀ text, f.problem ≠ .number text := by
  have hlexemes : ∀ t ∈ Token.ofText source, t.IsLexeme := fun t => Token.isLexeme_of_mem_ofText
  obtain ⟨lead, rest, attempts, htokens, hlead, hattempts, hsettle⟩ :=
    (Mode.tries hlexemes).1 .between .between
  have hdeclarations : (ofText source).value.declarations =
      attempts.filterMap (·.result.declaration?) := declarations_of_settle hsettle
  have hoptions : (ofText source).value.options = attempts.findSome? (·.result.options?) :=
    options_of_settle hsettle
  have hfaults : (ofText source).faults.filter (·.problem.endsAttempt) =
      (attempts.filterMap (·.result.blame?)).map (Blame.fault (byteLength source)) := by
    rw [filter_faults, ofTokens, blames_of_settle hsettle]
  refine ⟨⟨lead, rest, attempts, htokens, hlead, hattempts, ?_, hfaults⟩, ?_, ?_⟩
  · rw [← hdeclarations, ← hoptions]
  · intro hnone
    rw [htokens] at hnone ⊢
    rw [hdeclarations, List.countP_eq_length_filter, hfaults, List.length_map,
      hattempts.length_add_length (List.forall_mem_append.mp hnone).2, List.countP_append,
      List.countP_eq_zero.mpr fun t ht => Token.not_startsDeclaration (hlead t ht), Nat.zero_add]
  · exact fun f => problem_ne_number

/-- A good variable, a date with a fractional part, and a rule whose block is left unfinished by
the keyword of another one. -/
def unfinished : List Char := "var a = 1 date d = 1.5-*-* at d, \x7b a += 1 at d, a -= 2".toList

theorem ofText_attempts_unfinished : (ofText unfinished).value.declarations.length = 2 ∧
    (ofText unfinished).faults.countP (·.problem.endsAttempt) = 2 := by
  have hoptions : ∀ t ∈ Token.ofText unfinished, t.kind ≠ .keyword .optionsWord := by
    decide +kernel
  have hwords : (Token.ofText unfinished).countP Token.startsDeclaration = 4 := by decide +kernel
  have hdeclarations : (ofText unfinished).value.declarations.length = 2 := by decide +kernel
  have hcount := (ofText_attempts unfinished).2.1 hoptions
  exact ⟨hdeclarations, by omega⟩

end Script

end Forecast
