import Mathlib.Data.Set.Function
import Forecast.Proofs.Script.Meaning
import Forecast.Proofs.Script.Names
import Forecast.Proofs.Script.Rendering

namespace Forecast

/-- The target of an assignment, and the names that decide on what becomes of it. -/
structure Flow where
  target : String
  sources : List String
  deriving DecidableEq

/-- What flows into the set comes from the set. -/
def Flow.Within (X : Set String) (f : Flow) : Prop := f.target ∈ X → ∀ y ∈ f.sources, y ∈ X

def NumberExpr.sources (e : NumberExpr) : List String := e.names.map Ident.name

def Condition.sources (test : Condition) : List String := test.names.map Ident.name

mutual

def Action.flows (around : List String) : Action → List Flow
  | .assign x _ e => [⟨x.name, e.sources ++ around⟩]
  | .choose test yes no => yes.flows (test.sources ++ around) ++ no.flows (test.sources ++ around)
  | .block body => body.flows around

def Otherwise.flows (around : List String) : Otherwise → List Flow
  | .nothing => []
  | .block body => body.flows around
  | .chain test yes no => yes.flows (test.sources ++ around) ++ no.flows (test.sources ++ around)

def Block.flows (around : List String) : Block → List Flow
  | .nil => []
  | .cons first rest => first.flows around ++ rest.flows around

end

def Declaration.flows : Declaration → List Flow
  | .rule _ a => a.flows []
  | .var _ _ _ => []
  | .date _ _ => []

def Action.Avoids (X : Set String) (a : Action) : Prop := ∀ f ∈ a.flows [], f.target ∉ X

/-- Some rules are left out, none of which assigns to a variable of the set. -/
inductive LeavesOut (X : Set String) : List Declaration → List Declaration → Prop
  | nil : LeavesOut X [] []
  | keep (d : Declaration) {ds ds' : List Declaration} (h : LeavesOut X ds ds') :
      LeavesOut X (d :: ds) (d :: ds')
  | drop (when : When) {a : Action} (ha : a.Avoids X) {ds ds' : List Declaration}
      (h : LeavesOut X ds ds') : LeavesOut X (.rule when a :: ds) ds'

def Script.Confines (X : Set String) (s : Script) : Prop :=
  ∀ d ∈ s.declarations, ∀ f ∈ d.flows, f.Within X

mutual

theorem Action.around_subset : ∀ (a : Action) (around : List String), ∀ f ∈ a.flows around,
    around ⊆ f.sources
  | .assign x op e, around => by
      rw [Action.flows, List.forall_mem_singleton]
      exact List.subset_append_right _ _
  | .choose test yes no, around => by
      rw [Action.flows, List.forall_mem_append]
      exact ⟨fun f hf => List.Subset.trans (List.subset_append_right _ _) (Block.around_subset yes _ f hf),
        fun f hf => List.Subset.trans (List.subset_append_right _ _)
          (Otherwise.around_subset no _ f hf)⟩
  | .block body, around => by
      rw [Action.flows]
      exact Block.around_subset body around

theorem Otherwise.around_subset : ∀ (o : Otherwise) (around : List String), ∀ f ∈ o.flows around,
    around ⊆ f.sources
  | .nothing, around => by
      rw [Otherwise.flows]
      exact List.forall_mem_nil _
  | .block body, around => by
      rw [Otherwise.flows]
      exact Block.around_subset body around
  | .chain test yes no, around => by
      rw [Otherwise.flows, List.forall_mem_append]
      exact ⟨fun f hf => List.Subset.trans (List.subset_append_right _ _) (Block.around_subset yes _ f hf),
        fun f hf => List.Subset.trans (List.subset_append_right _ _)
          (Otherwise.around_subset no _ f hf)⟩

theorem Block.around_subset : ∀ (b : Block) (around : List String), ∀ f ∈ b.flows around,
    around ⊆ f.sources
  | .nil, around => by
      rw [Block.flows]
      exact List.forall_mem_nil _
  | .cons first rest, around => by
      rw [Block.flows, List.forall_mem_append]
      exact ⟨Action.around_subset first around, Block.around_subset rest around⟩

end

/-- A condition decides on what flows into the set from its branches, so if anything does, the
condition looks at the set alone. -/
theorem sources_subset_or_avoids {X : Set String} (test : Condition) (yes : Block) (no : Otherwise)
    {around : List String}
    (h : ∀ f ∈ yes.flows (test.sources ++ around) ++ no.flows (test.sources ++ around),
      f.Within X) :
    (∀ y ∈ test.sources, y ∈ X) ∨
      (∀ f ∈ yes.flows (test.sources ++ around), f.target ∉ X) ∧
        ∀ f ∈ no.flows (test.sources ++ around), f.target ∉ X := by
  by_cases hflow : ∃ f ∈ yes.flows (test.sources ++ around) ++ no.flows (test.sources ++ around),
      f.target ∈ X
  · obtain ⟨f, hf, htarget⟩ := hflow
    have haround : test.sources ++ around ⊆ f.sources :=
      (List.mem_append.mp hf).elim (yes.around_subset _ f) (no.around_subset _ f)
    exact .inl fun y hy => h f hf htarget y (haround (List.mem_append_left _ hy))
  · refine .inr (List.forall_mem_append.mp fun f hf htarget => hflow ⟨f, hf, htarget⟩)

section Agreement

variable {X : Set String} {known : List String} {env env' : Env}

theorem NumberExpr.meaning_congr {e : NumberExpr} (h : Set.EqOn env env' X)
    (he : ∀ y ∈ e.sources, y ∈ X) : e.meaning known env = e.meaning known env' := by
  induction e with
  | literal value span => rfl
  | reference x =>
      rw [meaning, meaning, h (he x.name List.mem_cons_self)]
  | negate e ih => rw [meaning, meaning, ih he]
  | binary op lhs rhs ihl ihr =>
      rw [sources, names, List.map_append, List.forall_mem_append] at he
      rw [meaning, meaning, ihl he.1, ihr he.2]

theorem Comparison.holds_congr {c : Comparison} (h : Set.EqOn env env' X)
    (hc : ∀ y ∈ c.names.map Ident.name, y ∈ X) : c.holds known env = c.holds known env' := by
  rw [names, List.map_append, List.forall_mem_append] at hc
  rw [holds, holds, NumberExpr.meaning_congr h hc.1, NumberExpr.meaning_congr h hc.2]

theorem Conjunction.holds_congr {c : Conjunction} (h : Set.EqOn env env' X)
    (hc : ∀ y ∈ c.names.map Ident.name, y ∈ X) : c.holds known env = c.holds known env' := by
  induction c with
  | one c => exact Comparison.holds_congr h hc
  | and earlier c ih =>
      rw [names, List.map_append, List.forall_mem_append] at hc
      rw [holds, holds, ih hc.1, Comparison.holds_congr h hc.2]

theorem Condition.holds_congr {c : Condition} (h : Set.EqOn env env' X)
    (hc : ∀ y ∈ c.sources, y ∈ X) : c.holds known env = c.holds known env' := by
  induction c with
  | one c => exact Conjunction.holds_congr h hc
  | or earlier c ih =>
      rw [sources, names, List.map_append, List.forall_mem_append] at hc
      rw [holds, holds, ih hc.1, Conjunction.holds_congr h hc.2]

theorem eqOn_ite {b : Bool} {yes no : Env} (hyes : Set.EqOn yes env X) (hno : Set.EqOn no env X) :
    Set.EqOn (if b then yes else no) env X := by
  cases b
  · exact hno
  · exact hyes

mutual

theorem Action.act_eqOn (known : List String) (env : Env) {around : List String} : ∀ a : Action,
    (∀ f ∈ a.flows around, f.target ∉ X) → Set.EqOn (a.act known env) env X
  | .assign x op e, h => by
      rw [Action.flows, List.forall_mem_singleton] at h
      rw [Action.act]
      split_ifs
      · exact fun y hy => Function.update_of_ne (ne_of_mem_of_not_mem hy h) _ _
      · exact Set.eqOn_refl _ _
  | .choose test yes no, h => by
      rw [Action.flows, List.forall_mem_append] at h
      rw [Action.act]
      exact eqOn_ite (Block.act_eqOn known env yes h.1) (Otherwise.act_eqOn known env no h.2)
  | .block body, h => by
      rw [Action.flows] at h
      rw [Action.act]
      exact Block.act_eqOn known env body h

theorem Otherwise.act_eqOn (known : List String) (env : Env) {around : List String} :
    ∀ o : Otherwise, (∀ f ∈ o.flows around, f.target ∉ X) → Set.EqOn (o.act known env) env X
  | .nothing, _ => by
      rw [Otherwise.act]
      exact Set.eqOn_refl _ _
  | .block body, h => by
      rw [Otherwise.flows] at h
      rw [Otherwise.act]
      exact Block.act_eqOn known env body h
  | .chain test yes no, h => by
      rw [Otherwise.flows, List.forall_mem_append] at h
      rw [Otherwise.act]
      exact eqOn_ite (Block.act_eqOn known env yes h.1) (Otherwise.act_eqOn known env no h.2)

theorem Block.act_eqOn (known : List String) (env : Env) {around : List String} : ∀ b : Block,
    (∀ f ∈ b.flows around, f.target ∉ X) → Set.EqOn (b.act known env) env X
  | .nil, _ => by
      rw [Block.act]
      exact Set.eqOn_refl _ _
  | .cons first rest, h => by
      rw [Block.flows, List.forall_mem_append] at h
      rw [Block.act]
      exact (Block.act_eqOn known _ rest h.2).trans (Action.act_eqOn known env first h.1)

end

theorem eqOn_choose (h : Set.EqOn env env' X) {test : Condition} {yes : Block} {no : Otherwise}
    {around : List String}
    (hflows : ∀ f ∈ yes.flows (test.sources ++ around) ++ no.flows (test.sources ++ around),
      f.Within X)
    (hyes : Set.EqOn (yes.act known env) (yes.act known env') X)
    (hno : Set.EqOn (no.act known env) (no.act known env') X) :
    Set.EqOn (if test.holds known env then yes.act known env else no.act known env)
      (if test.holds known env' then yes.act known env' else no.act known env') X := by
  rcases sources_subset_or_avoids test yes no hflows with hsources | ⟨hy, hn⟩
  · rw [Condition.holds_congr h hsources]
    split_ifs
    · exact hyes
    · exact hno
  · exact (eqOn_ite (yes.act_eqOn known env hy) (no.act_eqOn known env hn)).trans
      (h.trans (eqOn_ite (yes.act_eqOn known env' hy) (no.act_eqOn known env' hn)).symm)

mutual

theorem Action.eqOn_act {around : List String} : ∀ (a : Action) {env env' : Env},
    Set.EqOn env env' X → (∀ f ∈ a.flows around, f.Within X) →
      Set.EqOn (a.act known env) (a.act known env') X
  | .assign x op e, env, env', h, ha => by
      rw [Action.flows, List.forall_mem_singleton] at ha
      rw [Action.act, Action.act]
      split_ifs
      · intro y hy
        by_cases hyx : y = x.name
        · subst hyx
          have hvalue : e.meaning known env = e.meaning known env' :=
            NumberExpr.meaning_congr h fun z hz => ha hy z (List.mem_append_left _ hz)
          rw [Function.update_self, Function.update_self, hvalue, h hy]
        · rw [Function.update_of_ne hyx, Function.update_of_ne hyx, h hy]
      · exact h
  | .choose test yes no, env, env', h, ha => by
      rw [Action.flows] at ha
      obtain ⟨hyes, hno⟩ := List.forall_mem_append.mp ha
      rw [Action.act, Action.act]
      exact eqOn_choose h ha (Block.eqOn_act yes h hyes) (Otherwise.eqOn_act no h hno)
  | .block body, env, env', h, ha => by
      rw [Action.flows] at ha
      rw [Action.act, Action.act]
      exact Block.eqOn_act body h ha

theorem Otherwise.eqOn_act {around : List String} : ∀ (o : Otherwise) {env env' : Env},
    Set.EqOn env env' X → (∀ f ∈ o.flows around, f.Within X) →
      Set.EqOn (o.act known env) (o.act known env') X
  | .nothing, env, env', h, _ => by
      rw [Otherwise.act, Otherwise.act]
      exact h
  | .block body, env, env', h, ho => by
      rw [Otherwise.flows] at ho
      rw [Otherwise.act, Otherwise.act]
      exact Block.eqOn_act body h ho
  | .chain test yes no, env, env', h, ho => by
      rw [Otherwise.flows] at ho
      obtain ⟨hyes, hno⟩ := List.forall_mem_append.mp ho
      rw [Otherwise.act, Otherwise.act]
      exact eqOn_choose h ho (Block.eqOn_act yes h hyes) (Otherwise.eqOn_act no h hno)

theorem Block.eqOn_act {around : List String} : ∀ (b : Block) {env env' : Env},
    Set.EqOn env env' X → (∀ f ∈ b.flows around, f.Within X) →
      Set.EqOn (b.act known env) (b.act known env') X
  | .nil, env, env', h, _ => by
      rw [Block.act, Block.act]
      exact h
  | .cons first rest, env, env', h, hb => by
      rw [Block.flows, List.forall_mem_append] at hb
      rw [Block.act, Block.act]
      exact Block.eqOn_act rest (Action.eqOn_act first h hb.1) hb.2

end

end Agreement

theorem Script.whenHolds_congr {s s' : Script}
    (h : ∀ {f : Declaration → Option PatternLiteral}, (∀ when a, f (.rule when a) = none) →
      s'.declarations.filterMap f = s.declarations.filterMap f) (d : Date) (when : When) :
    s'.whenHolds d when = s.whenHolds d when := by
  cases when with
  | pattern p => rfl
  | named x =>
      have hdates : s'.dateNamed? x.name = s.dateNamed? x.name := by
        rw [dateNamed?, dateNamed?, ← List.head?_filterMap, ← List.head?_filterMap,
          h fun _ _ => rfl]
      rw [whenHolds, whenHolds, hdates]

namespace LeavesOut

variable {X : Set String} {ds ds' : List Declaration}

theorem refl : ∀ ds : List Declaration, LeavesOut X ds ds
  | [] => .nil
  | d :: rest => .keep d (refl rest)

theorem filterMap_eq {α : Type} {f : Declaration → Option α} (h : LeavesOut X ds ds')
    (hf : ∀ when a, f (.rule when a) = none) : ds'.filterMap f = ds.filterMap f := by
  induction h with
  | nil => rfl
  | keep d h ih => rw [List.filterMap_cons, List.filterMap_cons, ih]
  | drop when ha h ih => rw [ih, List.filterMap_cons_none (hf _ _)]

theorem foldl_learn (h : LeavesOut X ds ds') (known : List String) :
    ds'.foldl Declaration.learn known = ds.foldl Declaration.learn known := by
  induction h generalizing known with
  | nil => rfl
  | keep d h ih => exact ih _
  | drop when ha h ih => exact ih _

theorem exists_split (h : LeavesOut X ds ds') {before' after' : List Declaration}
    {d : Declaration} (hsplit : ds' = before' ++ d :: after') :
    ∃ before after, ds = before ++ d :: after ∧ LeavesOut X before before' := by
  induction h generalizing before' with
  | nil => cases before' <;> cases hsplit
  | keep e h ih =>
      cases before' with
      | nil =>
          obtain ⟨rfl, rfl⟩ := List.cons.inj hsplit
          exact ⟨[], _, rfl, .nil⟩
      | cons b before' =>
          obtain ⟨rfl, hrest⟩ := List.cons.inj hsplit
          obtain ⟨before, after, rfl, hbefore⟩ := ih hrest
          exact ⟨e :: before, after, rfl, .keep e hbefore⟩
  | drop when ha h ih =>
      obtain ⟨before, after, rfl, hbefore⟩ := ih hsplit
      exact ⟨_ :: before, after, rfl, .drop when ha hbefore⟩

theorem whenHolds_eq {s s' : Script} (h : LeavesOut X s.declarations s'.declarations) (d : Date)
    (when : When) : s'.whenHolds d when = s.whenHolds d when :=
  Script.whenHolds_congr h.filterMap_eq d when

theorem eqOn_dayFrom (h : LeavesOut X ds ds')
    (hflows : ∀ d ∈ ds, ∀ f ∈ d.flows, f.Within X) {s s' : Script} {d : Date}
    (hwhen : ∀ when, s'.whenHolds d when = s.whenHolds d when) {known : List String}
    {env env' : Env} (henv : Set.EqOn env env' X) :
    Set.EqOn (s.dayFrom d known env ds) (s'.dayFrom d known env' ds') X := by
  induction h generalizing known env env' with
  | nil => exact henv
  | keep declaration h ih =>
      obtain ⟨hown, hrest⟩ := List.forall_mem_cons.mp hflows
      cases declaration with
      | var x e ps => exact ih hrest henv
      | date x p => exact ih hrest henv
      | rule when a =>
          rw [Script.dayFrom, Script.dayFrom, hwhen]
          refine ih hrest ?_
          split_ifs
          · exact a.eqOn_act henv hown
          · exact henv
  | drop when ha h ih =>
      rw [Script.dayFrom]
      exact ih (List.forall_mem_cons.mp hflows).2
        ((eqOn_ite (Action.act_eqOn known env _ ha) (Set.eqOn_refl _ _)).trans henv)

end LeavesOut

theorem NumberExpr.sources_unplaced (e : NumberExpr) : e.unplaced.sources = e.sources := by
  induction e with
  | literal value span => rfl
  | reference x => rfl
  | negate e ih => exact ih
  | binary op lhs rhs ihl ihr =>
      simp only [unplaced, sources, names, List.map_append] at ihl ihr ⊢
      rw [ihl, ihr]

theorem Comparison.map_name_unplaced (c : Comparison) :
    c.unplaced.names.map Ident.name = c.names.map Ident.name := by
  have hl := c.lhs.sources_unplaced
  have hr := c.rhs.sources_unplaced
  simp only [NumberExpr.sources] at hl hr
  simp only [unplaced, names, List.map_append, hl, hr]

theorem Conjunction.map_name_unplaced (c : Conjunction) :
    c.unplaced.names.map Ident.name = c.names.map Ident.name := by
  induction c with
  | one c => exact c.map_name_unplaced
  | and earlier c ih => simp only [unplaced, names, List.map_append, ih, c.map_name_unplaced]

theorem Condition.sources_unplaced (test : Condition) : test.unplaced.sources = test.sources := by
  induction test with
  | one c => exact c.map_name_unplaced
  | or earlier c ih =>
      simp only [unplaced, sources, names, List.map_append] at ih ⊢
      rw [ih, c.map_name_unplaced]

mutual

theorem Action.flows_unplaced : ∀ (a : Action) (around : List String),
    a.unplaced.flows around = a.flows around
  | .assign x op e, around => by
      rw [Action.unplaced, Action.flows, Action.flows, e.sources_unplaced]
      rfl
  | .choose test yes no, around => by
      rw [Action.unplaced, Action.flows, Action.flows, test.sources_unplaced,
        Block.flows_unplaced yes, Otherwise.flows_unplaced no]
  | .block body, around => by
      rw [Action.unplaced, Action.flows, Action.flows, Block.flows_unplaced body]

theorem Otherwise.flows_unplaced : ∀ (o : Otherwise) (around : List String),
    o.unplaced.flows around = o.flows around
  | .nothing, around => by rw [Otherwise.unplaced]
  | .block body, around => by
      rw [Otherwise.unplaced, Otherwise.flows, Otherwise.flows, Block.flows_unplaced body]
  | .chain test yes no, around => by
      rw [Otherwise.unplaced, Otherwise.flows, Otherwise.flows, test.sources_unplaced,
        Block.flows_unplaced yes, Otherwise.flows_unplaced no]

theorem Block.flows_unplaced : ∀ (b : Block) (around : List String),
    b.unplaced.flows around = b.flows around
  | .nil, around => by rw [Block.unplaced]
  | .cons first rest, around => by
      rw [Block.unplaced, Block.flows, Block.flows, Action.flows_unplaced first,
        Block.flows_unplaced rest]

end

theorem Declaration.flows_unplaced (d : Declaration) : d.unplaced.flows = d.flows := by
  cases d with
  | var x e ps => rfl
  | date x p => rfl
  | rule when a => exact a.flows_unplaced []

theorem Script.Confines.unplaced {X : Set String} {s : Script} (h : s.Confines X) :
    s.unplaced.Confines X := by
  intro d hd
  obtain ⟨e, he, rfl⟩ := List.mem_map.mp hd
  rw [e.flows_unplaced]
  exact h e he

end Forecast
