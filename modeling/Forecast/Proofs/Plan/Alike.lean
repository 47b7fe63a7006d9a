import Forecast.Proofs.Agreement
import Forecast.Proofs.Plan.Independence

namespace Forecast

open Checked

theorem snapshots_congr {rules rules' : List Rule} {n : Nat}
    (h : ∀ (values : Values) (d : Date), values.length = n →
      runDay rules' values d = runDay rules values d) (dates : List Date) {values : Values}
    (hn : values.length = n) : snapshots rules' values dates = snapshots rules values dates := by
  induction dates generalizing values with
  | nil => rfl
  | cons d rest ih =>
      have hday : (runDay rules values d).length = n := (length_runDay rules values d).trans hn
      rw [snapshots, snapshots, h values d hn, ih hday]

namespace Plan

/-- The second plan differs from the first one in its rules alone, and these make the same of each
day. -/
structure Alike (p q : Plan) : Prop where
  eq : q = { p with rules := q.rules }
  runDay_eq : ∀ (values : Values) (d : Date), values.length = p.names.length →
    runDay q.rules values d = runDay p.rules values d

namespace Alike

variable {p q : Plan}

theorem refl (p : Plan) : Alike p p := ⟨rfl, fun _ _ _ => rfl⟩

theorem trans {q' : Plan} (h : Alike p q) (h' : Alike q q') : Alike p q' := by
  have hnames : q.names = p.names := by rw [h.eq]
  refine ⟨?_, fun values d hlength => ?_⟩
  · rw [h'.eq, h.eq]
  · rw [h'.runDay_eq values d (hnames ▸ hlength), h.runDay_eq values d hlength]

theorem initialState_eq (h : Alike p q) : q.initialState = p.initialState := by rw [h.eq]; rfl

theorem override (h : Alike p q) (r : Request) : Alike (p.override r) (q.override r) := by
  refine ⟨?_, h.runDay_eq⟩
  rw [h.eq]
  rfl

theorem checkSpan_eq (h : Alike p q) : q.checkSpan = p.checkSpan := by rw [h.eq]; rfl

theorem run_eq (h : Alike p q) (hp : p.initial.length = p.names.length) (start : Date)
    (days : Nat) : q.run start days = p.run start days := by
  have hinitial : q.initial = p.initial := by rw [h.eq]
  have hsnaps : snapshots q.rules p.initial = snapshots p.rules p.initial :=
    funext fun dates => snapshots_congr h.runDay_eq dates hp
  rw [run, run, hinitial, hsnaps]

end Alike

theorem ofText_of_alike {r : Request} {source source' : List Char} {p : Plan} {s : Script}
    (h : ofText r source = .ok p) (hunbroken : Token.brokenParts source' = [])
    (hspelled : s.Spelled (Token.ofText source'))
    (hfaults : (ofScript r.today s.unplaced).faults = [])
    (halike : Alike (ofScript r.today (Script.ofText source).value.unplaced).value
      (ofScript r.today s.unplaced).value) :
    ∃ p', ofText r source' = .ok p' ∧ p'.initialState = p.initialState ∧ p'.settings = p.settings ∧
      ∀ start days, p'.run start days = p.run start days := by
  obtain ⟨-, hvalue⟩ := ofScript_unplaced_of_ofText h
  have hplans := halike.override r
  rw [hvalue] at hplans
  have hspan := hplans.checkSpan_eq.trans (checkSpan_of_ofText h)
  refine ⟨_, ofText_of_spelled hunbroken hspelled hfaults rfl hspan, hplans.initialState_eq, ?_,
    hplans.run_eq (coherent_of_ofText h).length_initial⟩
  rw [hplans.eq]

end Plan

namespace Plan.Draft

def ruleless (d : Draft) : Draft := { d with rules := [] }

variable {d d' : Draft}

theorem eq_of_ruleless (h : d'.ruleless = d.ruleless) : d' = { d with rules := d'.rules } := by
  obtain ⟨names, initial, tracked, dates, rules⟩ := d
  obtain ⟨names', initial', tracked', dates', rules'⟩ := d'
  simpa [ruleless] using h

theorem add_ruleless (table : List (String × DatePattern)) (h : d'.ruleless = d.ruleless)
    (declaration : Declaration) :
    (d'.add table declaration).faults = (d.add table declaration).faults ∧
      (d'.add table declaration).value.ruleless = (d.add table declaration).value.ruleless := by
  rw [eq_of_ruleless h]
  cases declaration with
  | var x e ps =>
      rw [add, add, value_addVar, value_addVar, addVar, addVar]
      dsimp only
      split_ifs <;> exact ⟨rfl, rfl⟩
  | date x p =>
      rw [add, add, value_addDate, value_addDate, addDate, addDate]
      dsimp only
      split_ifs <;> exact ⟨rfl, rfl⟩
  | rule when a => exact ⟨rfl, rfl⟩

theorem addAll_ruleless (table : List (String × DatePattern)) (h : d'.ruleless = d.ruleless)
    (ds : List Declaration) :
    (d'.addAll table ds).faults = (d.addAll table ds).faults ∧
      (d'.addAll table ds).value.ruleless = (d.addAll table ds).value.ruleless := by
  induction ds generalizing d d' with
  | nil => exact ⟨rfl, h⟩
  | cons declaration rest ih =>
      obtain ⟨hfaults, hvalue⟩ := add_ruleless table h declaration
      obtain ⟨hrest, hlast⟩ := ih hvalue
      rw [addAll, addAll, faults_bind, faults_bind, hfaults, hrest]
      exact ⟨rfl, hlast⟩

theorem addAll_append (table : List (String × DatePattern)) (d : Draft) (xs ys : List Declaration) :
    d.addAll table (xs ++ ys) = d.addAll table xs >>= (·.addAll table ys) := by
  induction xs generalizing d with
  | nil => rfl
  | cons x xs ih =>
      rw [List.cons_append, addAll, addAll]
      simp only [ih, bind, List.append_assoc]

variable {table : List (String × DatePattern)}

theorem ruleless_addAll {ds : List Declaration} (hds : ∀ c ∈ ds, c.isRule) :
    (d.addAll table ds).value.ruleless = d.ruleless := by
  induction ds generalizing d with
  | nil => rfl
  | cons c rest ih =>
      obtain ⟨hc, hrest⟩ := List.forall_mem_cons.mp hds
      rw [addAll, value_bind, ih hrest]
      cases c with
      | rule when a => rfl
      | var x e ps | date x p => cases hc

theorem faults_addAll_of_rules {ds : List Declaration} (hds : ∀ c ∈ ds, c.isRule)
    (h : ∀ c ∈ ds, (d.add table c).faults = []) : (d.addAll table ds).faults = [] := by
  refine (faults_addAll_eq_nil_iff table d ds).mpr fun before c after hsplit => ?_
  subst hsplit
  obtain ⟨hbefore, hrest⟩ := List.forall_mem_append.mp hds
  rw [(add_ruleless table (ruleless_addAll hbefore) c).1]
  exact h c (List.mem_append_right _ List.mem_cons_self)

/-- A draft without faults still has none when rules in it give way to others that are without a
fault at the place of the first one, and it stays as it is but for the rules. -/
theorem addAll_replace {before old new : List Declaration} (after : List Declaration)
    (hold : ∀ c ∈ old, c.isRule) (hnew : ∀ c ∈ new, c.isRule)
    (hfits : ∀ c ∈ new, ((d.addAll table before).value.add table c).faults = [])
    (h : (d.addAll table (before ++ (old ++ after))).faults = []) :
    (d.addAll table (before ++ (new ++ after))).faults = [] ∧
      (d.addAll table (before ++ (new ++ after))).value.ruleless =
        (d.addAll table (before ++ (old ++ after))).value.ruleless := by
  simp only [addAll_append, faults_bind, value_bind, List.append_eq_nil_iff] at h ⊢
  obtain ⟨hbefore, -, hafter⟩ := h
  have hsame : ((d.addAll table before).value.addAll table new).value.ruleless =
      ((d.addAll table before).value.addAll table old).value.ruleless := by
    rw [ruleless_addAll hnew, ruleless_addAll hold]
  obtain ⟨hfaults, hvalue⟩ := addAll_ruleless table hsame after
  exact ⟨⟨hbefore, faults_addAll_of_rules hnew hfits, hfaults.trans hafter⟩, hvalue⟩

end Plan.Draft

/-- In the second script some neighbouring rules of the first one have given way to others. -/
structure Script.Replaces (before old new after : List Declaration) (s s' : Script) : Prop where
  declarations : s.declarations = before ++ (old ++ after)
  replaced : s'.declarations = before ++ (new ++ after)
  old_isRule : ∀ c ∈ old, c.isRule
  new_isRule : ∀ c ∈ new, c.isRule
  options : s'.options = s.options

theorem filterMap_eq_nil_of_rules {α : Type} {f : Declaration → Option α}
    (hf : ∀ when a, f (.rule when a) = none) {ds : List Declaration} (hds : ∀ c ∈ ds, c.isRule) :
    ds.filterMap f = [] := by
  refine List.filterMap_eq_nil_iff.mpr fun c hc => ?_
  cases c with
  | rule when a => exact hf when a
  | var x e ps | date x p => cases hds _ hc

namespace Script.Replaces

variable {before old new after : List Declaration} {s s' : Script}

theorem filterMap_eq (h : s.Replaces before old new after s') {α : Type}
    {f : Declaration → Option α} (hf : ∀ when a, f (.rule when a) = none) :
    s'.declarations.filterMap f = s.declarations.filterMap f := by
  rw [h.declarations, h.replaced, List.filterMap_append, List.filterMap_append,
    List.filterMap_append, List.filterMap_append, filterMap_eq_nil_of_rules hf h.old_isRule,
    filterMap_eq_nil_of_rules hf h.new_isRule]

theorem whenHolds_eq (h : s.Replaces before old new after s') (d : Date) (when : When) :
    s'.whenHolds d when = s.whenHolds d when :=
  whenHolds_congr h.filterMap_eq d when

end Script.Replaces

namespace Script

theorem dayFrom_append (s : Script) (d : Date) (known : List String) (env : Env)
    (xs ys : List Declaration) :
    s.dayFrom d known env (xs ++ ys) =
      s.dayFrom d (xs.foldl Declaration.learn known) (s.dayFrom d known env xs) ys := by
  induction xs generalizing known env with
  | nil => rfl
  | cons x xs ih => cases x <;> exact ih _ _

theorem foldl_learn_of_rules {ds : List Declaration} (hds : ∀ c ∈ ds, c.isRule)
    (known : List String) : ds.foldl Declaration.learn known = known := by
  induction ds with
  | nil => rfl
  | cons c rest ih =>
      obtain ⟨hc, hrest⟩ := List.forall_mem_cons.mp hds
      cases c with
      | rule when a => exact ih hrest
      | var x e ps | date x p => cases hc

theorem dayFrom_congr {s s' : Script} {d : Date}
    (h : ∀ when, s'.whenHolds d when = s.whenHolds d when) (known : List String) (env : Env)
    (ds : List Declaration) : s'.dayFrom d known env ds = s.dayFrom d known env ds := by
  induction ds generalizing known env with
  | nil => rfl
  | cons c rest ih =>
      cases c with
      | var x e ps | date x p => exact ih _ _
      | rule when a => rw [dayFrom, dayFrom, h, ih]

end Script

namespace Plan

theorem alike_of_day_eq {today : Date} {s s' : Script}
    (heq : (ofScript today s').value =
      { (ofScript today s).value with rules := (ofScript today s').value.rules })
    (hday : ∀ d env, s'.day d env = s.day d env) :
    Alike (ofScript today s).value (ofScript today s').value := by
  refine ⟨by rw [heq], fun values d hlength => ?_⟩
  obtain ⟨hnames, -, hrules⟩ := ofScript_keeps today s
  obtain ⟨hnames', -, hrules'⟩ := ofScript_keeps today s'
  have hvars : s'.vars = s.vars := by rw [← hnames, ← hnames', heq]
  rw [hnames] at hlength
  rw [hrules, hrules', runDay_eq_day hlength, runDay_eq_day (hvars ▸ hlength), hvars, hday]

variable {before old new after : List Declaration} {s s' : Script}

/-- A script without faults still has none when rules give way to others that mention known
variables and dates, and if these make the same of each day, its plan makes the same of each day. -/
theorem ofScript_replaces {today : Date} (h : s.Replaces before old new after s')
    (hs : (ofScript today s).faults = [])
    (hfits : ∀ c ∈ new, c.Fits before (dateNames s.declarations))
    (hday : ∀ d known env, s.dayFrom d known env new = s.dayFrom d known env old) :
    (ofScript today s').faults = [] ∧
      Alike (ofScript today s).value (ofScript today s').value := by
  have htable : dateTable s'.declarations = dateTable s.declarations :=
    h.filterMap_eq fun _ _ => rfl
  have hnew : ∀ c ∈ new, ((Draft.empty.addAll (dateTable s.declarations) before).value.add
      (dateTable s.declarations) c).faults = [] := fun c hc =>
    (Draft.faults_add_eq_nil_iff s.declarations before c).mpr (hfits c hc)
  rw [ofScript, faults_bind, List.append_eq_nil_iff] at hs
  obtain ⟨hdraft, hsettings⟩ := hs
  have hreplace := Draft.addAll_replace after h.old_isRule h.new_isRule hnew
  rw [← h.declarations, ← h.replaced, ← htable] at hreplace
  rw [← htable] at hdraft
  obtain ⟨hfaults, hvalue⟩ := hreplace hdraft
  have hdrafts := Draft.eq_of_ruleless hvalue
  rw [← htable] at hsettings
  refine ⟨?_, alike_of_day_eq ?_ fun d env => ?_⟩
  · rw [ofScript, faults_bind, hfaults, hdrafts, h.options]
    exact hsettings
  · simp only [ofScript, value_bind, value_pure, h.options, ← htable]
    rw [hdrafts]
  · rw [Script.day, Script.day, Script.dayFrom_congr (h.whenHolds_eq d), h.declarations, h.replaced,
      Script.dayFrom_append, Script.dayFrom_append, Script.dayFrom_append, Script.dayFrom_append,
      Script.foldl_learn_of_rules h.old_isRule, Script.foldl_learn_of_rules h.new_isRule, hday]

end Plan

end Forecast
