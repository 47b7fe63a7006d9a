import Forecast.Proofs.Agreement
import Forecast.Proofs.Plan.Independence

namespace Forecast

open Checked

mutual

/-- The variables that an action assigns to when it starts from an environment. -/
def Action.touched (known : List String) (env : Env) : Action → List String
  | .assign x _ _ => [x.name]
  | .choose test yes no =>
    if test.holds known env then yes.touched known env else no.touched known env
  | .block body => body.touched known env

def Otherwise.touched (known : List String) (env : Env) : Otherwise → List String
  | .nothing => []
  | .block body => body.touched known env
  | .chain test yes no =>
    if test.holds known env then yes.touched known env else no.touched known env

def Block.touched (known : List String) (env : Env) : Block → List String
  | .nil => []
  | .cons first rest => first.touched known env ++ rest.touched known (first.act known env)

end

section Touched

variable (known : List String) {x : String}

mutual

theorem Action.act_of_notMem_touched : ∀ (a : Action) (env : Env), x ∉ a.touched known env →
    a.act known env x = env x
  | .assign y op e, env, h => by
      rw [Action.touched, List.mem_singleton] at h
      rw [Action.act]
      split_ifs
      · exact Function.update_of_ne h _ _
      · rfl
  | .choose test yes no, env, h => by
      rw [Action.touched] at h
      rw [Action.act]
      split_ifs at h ⊢
      · exact Block.act_of_notMem_touched yes env h
      · exact Otherwise.act_of_notMem_touched no env h
  | .block body, env, h => by
      rw [Action.touched] at h
      rw [Action.act]
      exact Block.act_of_notMem_touched body env h

theorem Otherwise.act_of_notMem_touched : ∀ (o : Otherwise) (env : Env), x ∉ o.touched known env →
    o.act known env x = env x
  | .nothing, env, _ => by rw [Otherwise.act]
  | .block body, env, h => by
      rw [Otherwise.touched] at h
      rw [Otherwise.act]
      exact Block.act_of_notMem_touched body env h
  | .chain test yes no, env, h => by
      rw [Otherwise.touched] at h
      rw [Otherwise.act]
      split_ifs at h ⊢
      · exact Block.act_of_notMem_touched yes env h
      · exact Otherwise.act_of_notMem_touched no env h

theorem Block.act_of_notMem_touched : ∀ (b : Block) (env : Env), x ∉ b.touched known env →
    b.act known env x = env x
  | .nil, env, _ => by rw [Block.act]
  | .cons first rest, env, h => by
      rw [Block.touched, List.mem_append, not_or] at h
      rw [Block.act, Block.act_of_notMem_touched rest _ h.2,
        Action.act_of_notMem_touched first env h.1]

end

end Touched

namespace Script

variable (s : Script) (d : Date)

/-- On a day that starts from an environment, a rule is done that comes to an assignment to the
variable. -/
inductive Touches (env : Env) (x : String) : Prop
  | rule {before after : List Declaration} {when : When} {a : Action}
      (hrule : s.declarations = before ++ .rule when a :: after)
      (hwhen : s.whenHolds d when = true)
      (hx : x ∈ a.touched (before.foldl Declaration.learn []) (s.dayFrom d [] env before))

theorem exists_touched {x : String} {known : List String} {env : Env} {ds : List Declaration}
    (h : s.dayFrom d known env ds x ≠ env x) :
    ∃ before when a after, ds = before ++ .rule when a :: after ∧ s.whenHolds d when = true ∧
      x ∈ a.touched (before.foldl Declaration.learn known) (s.dayFrom d known env before) := by
  induction ds generalizing known env with
  | nil => exact absurd rfl h
  | cons c rest ih =>
      cases c with
      | var y e ps | date y p =>
          obtain ⟨before, when, a, after, rfl, hwhen, hx⟩ := ih h
          exact ⟨_ :: before, when, a, after, rfl, hwhen, hx⟩
      | rule when a =>
          rw [dayFrom] at h
          by_cases hfirst : s.whenHolds d when = true ∧ x ∈ a.touched known env
          · exact ⟨[], when, a, rest, rfl, hfirst.1, hfirst.2⟩
          · -- This rule does not touch the variable, so a later one does.
            have hkeeps : (if s.whenHolds d when then a.act known env else env) x = env x := by
              split_ifs with hwhen
              · exact a.act_of_notMem_touched known env fun hx => hfirst ⟨hwhen, hx⟩
              · rfl
            obtain ⟨before, when', a', after, rfl, hwhen', hx⟩ := ih (hkeeps ▸ h)
            exact ⟨.rule when a :: before, when', a', after, rfl, hwhen', hx⟩

theorem touches_of_day_ne {x : String} {env : Env} (h : s.day d env x ≠ env x) :
    s.Touches d env x := by
  obtain ⟨before, when, a, after, hrule, hwhen, hx⟩ := s.exists_touched d h
  exact .rule hrule hwhen hx

end Script

namespace Plan

theorem touches_of_lookup_ne {s : Script} {d : Date} {values : Values} {x : String}
    (hlength : values.length = s.vars.length)
    (h : (s.vars.zip
        (runDay (rulesFrom (dateTable s.declarations) [] s.declarations) values d)).lookup x ≠
      (s.vars.zip values).lookup x) :
    s.Touches d (Env.ofValues s.vars values) x := by
  refine s.touches_of_day_ne d fun hsame => h ?_
  rw [runDay_eq_day hlength, Env.lookup_values, hsame, ← Env.lookup_values,
    Env.values_ofValues s.nodup_vars hlength]

/-- A run changes only what rules assign to on their dates. Its initial state is that of the script,
whatever is run; there is one value for each name in every snapshot; and the value of a variable in
the snapshot of a day is that of the day before, bit by bit, unless on this day a rule is done that
comes to an assignment to the variable. -/
theorem ofText_touches {r : Request} {source : List Char} {p : Plan} (h : ofText r source = .ok p) :
    p.names.Nodup ∧
    p.initialState = p.names.map (fun x => (x, (Script.ofText source).value.initialEnv x)) ∧
    ∀ start days snaps, p.run start days = .ok snaps →
      (∀ snap ∈ p.initial :: snaps, snap.length = p.names.length) ∧
      ∀ (i : Nat) before snap x, (p.initial :: snaps)[i]? = some before → snaps[i]? = some snap →
        (p.names.zip snap).lookup x ≠ (p.names.zip before).lookup x →
        ∃ d, start.addDays? i = some d ∧
          (Script.ofText source).value.Touches d (Env.ofValues p.names before) x := by
  obtain ⟨-, -, hvalue, -⟩ := ofText_eq_ok_iff.mp h
  obtain ⟨hnames, hrules⟩ := names_rules_of_override hvalue
  have hinitial : p.initial = (Script.ofText source).value.initialEnv.values p.names := by
    rw [hnames, ← hvalue]
    exact (ofScript_keeps r.today _).2.1
  refine ⟨hnames ▸ (Script.ofText source).value.nodup_vars, ?_, fun start days snaps hrun => ?_⟩
  · rw [initialState, hinitial, Env.values, List.map_prod_left_eq_zip]
  obtain ⟨dates, hdates, rfl⟩ := run_eq_ok_iff.mp hrun
  have hlengths : ∀ snap ∈ p.initial :: snapshots p.rules p.initial dates,
      snap.length = p.names.length := by
    have hfirst := (coherent_of_ofText h).length_initial
    exact List.forall_mem_cons.mpr
      ⟨hfirst, fun snap hsnap => (length_of_mem_snapshots hsnap).trans hfirst⟩
  refine ⟨hlengths, fun i before snap x hbefore hsnap hne => ?_⟩
  obtain ⟨before', d, hbefore', hd, rfl⟩ := getElem?_snapshots hsnap
  obtain rfl := Option.some.inj (hbefore'.symm.trans hbefore)
  obtain ⟨hi, rfl⟩ := List.getElem?_eq_some_iff.mp hd
  refine ⟨dates[i], addDays?_of_datesFrom hdates i hi, ?_⟩
  have hlength := hlengths before' (List.mem_of_getElem? hbefore)
  rw [hnames] at hlength hne ⊢
  rw [hrules] at hne
  exact touches_of_lookup_ne hlength hne

theorem ofText_touches_growing :
    ∃ p, ofText ⟨leapDay, none, some 3⟩ (Growing.alone.render Script.oneBlank) = .ok p ∧
      p.run leapDay 1 = .ok [[2.0, 1.0]] ∧
      (p.names.zip [2.0, 1.0]).lookup "a" ≠ (p.names.zip p.initial).lookup "a" ∧
      (Script.ofText (Growing.alone.render Script.oneBlank)).value.Touches leapDay
        (Env.ofValues p.names p.initial) "a" ∧
      (p.names.zip [2.0, 1.0]).lookup "b" = (p.names.zip p.initial).lookup "b" := by
  have hplan : (ofText ⟨leapDay, none, some 3⟩ (Growing.alone.render Script.oneBlank)).map
      (fun p => (p.names, p.initial, p.run leapDay 1)) =
        .ok (["a", "b"], [1.0, 1.0], .ok [[2.0, 1.0]]) := by
    decide +kernel
  obtain ⟨p, hp, heq⟩ := Result.map_eq_ok_iff.mp hplan
  obtain ⟨hnames, hinitial, hrun⟩ := by simpa only [Prod.mk.injEq] using heq
  have hchanged : (p.names.zip [2.0, 1.0]).lookup "a" ≠ (p.names.zip p.initial).lookup "a" := by
    rw [hnames, hinitial]
    decide +kernel
  obtain ⟨d, hd, htouches⟩ :=
    ((ofText_touches hp).2.2 leapDay 1 _ hrun).2 0 p.initial [2.0, 1.0] "a" rfl rfl hchanged
  obtain rfl : leapDay = d := by
    have hday : leapDay.addDays? (0 : Nat) = some leapDay := by decide +kernel
    exact Option.some.inj (hday.symm.trans hd)
  refine ⟨p, hp, hrun, hchanged, htouches, ?_⟩
  rw [hnames, hinitial]
  decide +kernel

end Plan

end Forecast
