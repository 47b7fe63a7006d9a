import Forecast.Proofs.Plan.Numbering
import Forecast.Proofs.Simulation

namespace Forecast

open Checked Plan

namespace Plan

def ruleOf (table : List (String × DatePattern)) (known : List String) (when : When)
    (action : Action) : Rule :=
  ⟨"at " ++ (Draft.resolveWhen table when).value.1, (Draft.resolveWhen table when).value.2,
    (action.resolve known).value⟩

def rulesFrom (table : List (String × DatePattern)) (known : List String) :
    List Declaration → List Rule
  | [] => []
  | .var x e ps :: rest => rulesFrom table (Declaration.learn known (.var x e ps)) rest
  | .date _ _ :: rest => rulesFrom table known rest
  | .rule when a :: rest => ruleOf table known when a :: rulesFrom table known rest

end Plan

namespace Plan.Draft

theorem value_addVar (d : Draft) (x : Ident) (e : NumberExpr) (ps : Option (List Property)) :
    (d.addVar x e ps).value =
      if x.name ∈ d.names then d
      else { d with
        names := d.names ++ [x.name]
        initial := d.initial ++ [(e.resolve d.names).value.eval d.initial]
        tracked := if (Tracked.ofProperties x.name ps).value.color = some Tracked.hiddenColor
          then d.tracked else d.tracked ++ [(Tracked.ofProperties x.name ps).value] } := by
  rw [addVar]
  by_cases h : x.name ∈ d.names <;> simp [h]

theorem value_addDate (d : Draft) (x : Ident) (p : PatternLiteral) :
    (d.addDate x p).value =
      if (d.dates.lookup x.name).isSome then d
      else { d with dates := d.dates ++ [(x.name, p.resolve.value)] } := by
  rw [addDate]
  by_cases h : (d.dates.lookup x.name).isSome <;> simp [h]

theorem value_addRule (table : List (String × DatePattern)) (d : Draft) (when : When)
    (a : Action) :
    (d.addRule table when a).value = { d with rules := d.rules ++ [ruleOf table d.names when a] } :=
  rfl

theorem names_add (table : List (String × DatePattern)) (d : Draft) (declaration : Declaration) :
    (d.add table declaration).value.names = declaration.learn d.names := by
  cases declaration with
  | var x e ps =>
      rw [add, value_addVar, Declaration.learn]
      split <;> rfl
  | date x p =>
      rw [add, value_addDate, Declaration.learn]
      split <;> rfl
  | rule when a => rfl

theorem rules_add (table : List (String × DatePattern)) (d : Draft) (declaration : Declaration) :
    (d.add table declaration).value.rules = d.rules ++ rulesFrom table d.names [declaration] := by
  cases declaration with
  | var x e ps =>
      rw [add, value_addVar, rulesFrom, rulesFrom, List.append_nil]
      split <;> rfl
  | date x p =>
      rw [add, value_addDate, rulesFrom, rulesFrom, List.append_nil]
      split <;> rfl
  | rule when a => rfl

theorem names_addAll (table : List (String × DatePattern)) (d : Draft) (ds : List Declaration) :
    (d.addAll table ds).value.names = ds.foldl Declaration.learn d.names := by
  induction ds generalizing d with
  | nil => rfl
  | cons declaration rest ih => rw [addAll, value_bind, ih, names_add, List.foldl_cons]

theorem rulesFrom_cons (table : List (String × DatePattern)) (known : List String)
    (d : Declaration) (rest : List Declaration) :
    rulesFrom table known (d :: rest) =
      rulesFrom table known [d] ++ rulesFrom table (d.learn known) rest := by
  cases d <;> rfl

theorem rules_addAll (table : List (String × DatePattern)) (d : Draft) (ds : List Declaration) :
    (d.addAll table ds).value.rules = d.rules ++ rulesFrom table d.names ds := by
  induction ds generalizing d with
  | nil => exact (List.append_nil _).symm
  | cons declaration rest ih =>
      rw [addAll, value_bind, ih, rules_add, names_add, rulesFrom_cons table _ _ rest,
        List.append_assoc]

/-- The draft's variables are distinct and have the values of an environment. -/
structure Keeps (d : Draft) (env : Env) : Prop where
  nodup : d.names.Nodup
  initial : d.initial = env.values d.names

theorem Keeps.numbered {d : Draft} {env : Env} (h : d.Keeps env) : Numbered d.names d.names :=
  ⟨List.prefix_rfl, h.nodup⟩

theorem Keeps.add {d : Draft} {env : Env} (h : d.Keeps env) (table : List (String × DatePattern))
    (declaration : Declaration) :
    (d.add table declaration).value.Keeps (declaration.introduce d.names env) := by
  cases declaration with
  | var x e ps =>
      rw [Draft.add, value_addVar, Declaration.introduce]
      by_cases hx : x.name ∈ d.names
      · rw [if_pos hx, if_pos hx]
        exact h
      · rw [if_neg hx, if_neg hx]
        refine ⟨?_, ?_⟩
        · exact List.nodup_append.mpr ⟨h.nodup, List.nodup_singleton _, by
            rintro y hy z hz rfl
            exact hx (List.mem_singleton.mp hz ▸ hy)⟩
        · have hold : ∀ y ∈ d.names, Function.update env x.name (e.meaning d.names env) y = env y :=
            fun y hy => Function.update_of_ne (ne_of_mem_of_not_mem hy hx) _ _
          simp only [Env.values, List.map_append, List.map_cons, List.map_nil,
            Function.update_self, List.map_congr_left hold]
          rw [h.initial, h.numbered.eval_resolve env e]
          rfl
  | date x p =>
      rw [Draft.add, value_addDate, Declaration.introduce]
      split
      · exact h
      · exact ⟨h.nodup, h.initial⟩
  | rule when a => exact ⟨h.nodup, h.initial⟩

theorem Keeps.addAll {d : Draft} {env : Env} (h : d.Keeps env)
    (table : List (String × DatePattern)) (ds : List Declaration) :
    (d.addAll table ds).value.Keeps (Script.initialFrom d.names env ds) := by
  induction ds generalizing d env with
  | nil => exact h
  | cons declaration rest ih =>
      have hstep := ih (h.add table declaration)
      rw [names_add] at hstep
      exact hstep

end Plan.Draft

theorem PatternLiteral.covers_resolve (p : PatternLiteral) (d : Date) :
    p.resolve.value.covers d = p.holds d := by
  unfold PatternLiteral.resolve PatternLiteral.holds
  cases p.pattern <;> rfl

theorem lookup_dateTable (ds : List Declaration) (options : Option (List Property))
    (name : String) :
    (dateTable ds).lookup name = ((Script.mk ds options).dateNamed? name).map (·.resolve.value) := by
  induction ds with
  | nil => rfl
  | cons d rest ih =>
      cases d with
      | var x e ps => exact ih
      | rule when a => exact ih
      | date x p =>
          by_cases hx : x.name = name
          · simp [dateTable, Script.dateNamed?, hx]
          · have hne : (name == x.name) = false := beq_eq_false_iff_ne.mpr (Ne.symm hx)
            simpa [dateTable, Script.dateNamed?, List.lookup_cons, hx, hne] using ih

theorem covers_resolveWhen (s : Script) (d : Date) (when : When) :
    (Draft.resolveWhen (dateTable s.declarations) when).value.2.covers d = s.whenHolds d when := by
  cases when with
  | pattern p => exact p.covers_resolve d
  | named x =>
      have h := lookup_dateTable s.declarations s.options x.name
      rw [Draft.resolveWhen, h, Script.whenHolds]
      cases s.dateNamed? x.name with
      | none => rfl
      | some p => exact p.covers_resolve d

theorem Declaration.prefix_learn (known : List String) (d : Declaration) : known <+: d.learn known := by
  cases d with
  | var x e ps =>
      rw [Declaration.learn]
      split
      · exact List.prefix_rfl
      · exact List.prefix_append _ _
  | date x p => exact List.prefix_rfl
  | rule when a => exact List.prefix_rfl

theorem prefix_foldl_learn (known : List String) (ds : List Declaration) :
    known <+: ds.foldl Declaration.learn known := by
  induction ds generalizing known with
  | nil => exact List.prefix_rfl
  | cons d rest ih => exact (d.prefix_learn known).trans (ih _)

theorem Numbered.apply_ruleOf {known all : List String} (h : Numbered known all) (s : Script)
    (d : Date) (env : Env) (when : When) (a : Action) :
    Rule.apply d (env.values all) (ruleOf (dateTable s.declarations) known when a) =
      Env.values all (if s.whenHolds d when then a.act known env else env) := by
  rw [Rule.apply, ruleOf, covers_resolveWhen]
  split_ifs
  · exact h.run_resolve_action env a
  · rfl

theorem runDay_rulesFrom {known all : List String} {ds : List Declaration}
    (h : Numbered (ds.foldl Declaration.learn known) all) (s : Script) (d : Date) (env : Env) :
    runDay (rulesFrom (dateTable s.declarations) known ds) (env.values all) d =
      (s.dayFrom d known env ds).values all := by
  induction ds generalizing known env with
  | nil => rfl
  | cons declaration rest ih =>
      cases declaration with
      | var x e ps => exact ih h env
      | date x p => exact ih h env
      | rule when a =>
          have hknown : Numbered known all := ⟨(prefix_foldl_learn known rest).trans h.isPrefix, h.nodup⟩
          rw [rulesFrom, runDay, List.foldl_cons, hknown.apply_ruleOf, Script.dayFrom]
          exact ih h _

theorem ofScript_keeps (today : Date) (s : Script) :
    (ofScript today s).value.names = s.vars ∧
      (ofScript today s).value.initial = s.initialEnv.values s.vars ∧
      (ofScript today s).value.rules = rulesFrom (dateTable s.declarations) [] s.declarations := by
  have hempty : Draft.empty.Keeps fun _ => nan := ⟨List.nodup_nil, rfl⟩
  have hkeeps := hempty.addAll (dateTable s.declarations) s.declarations
  have hnames := Draft.names_addAll (dateTable s.declarations) Draft.empty s.declarations
  have hrules := Draft.rules_addAll (dateTable s.declarations) Draft.empty s.declarations
  have hinitial := hkeeps.initial
  rw [hnames] at hinitial
  exact ⟨hnames, hinitial, hrules⟩

theorem Script.nodup_vars (s : Script) : s.vars.Nodup := by
  have hempty : Draft.empty.Keeps fun _ => nan := ⟨List.nodup_nil, rfl⟩
  have hkeeps := (hempty.addAll (dateTable s.declarations) s.declarations).nodup
  rwa [Draft.names_addAll] at hkeeps

/-- Snapshots from some day of a run on, each the environment of its day. -/
theorem snapshots_rulesFrom (s : Script) (start : Date) (dates : List Date) (k : Nat)
    (h : ∀ i (hi : i < dates.length), start.addDays? (k + i : Nat) = some dates[i]) :
    snapshots (rulesFrom (dateTable s.declarations) [] s.declarations)
        ((s.envAfter start k).values s.vars) dates =
      (List.range dates.length).map fun i => (s.envAfter start (k + i + 1)).values s.vars := by
  induction dates generalizing k with
  | nil => rfl
  | cons d rest ih =>
      have hd := h 0 (Nat.zero_lt_succ _)
      rw [Nat.add_zero, List.getElem_cons_zero] at hd
      have hday : (s.envAfter start (k + 1)) = s.day d (s.envAfter start k) := by
        rw [Script.envAfter, hd, Option.elim_some]
      have hall : Numbered s.vars s.vars := ⟨List.prefix_rfl, s.nodup_vars⟩
      have hrest := ih (k + 1) fun i hi => by
        have hsucc := h (i + 1) (Nat.succ_lt_succ hi)
        rwa [List.getElem_cons_succ, Nat.add_comm i 1, ← Nat.add_assoc] at hsucc
      rw [snapshots, runDay_rulesFrom hall, ← Script.day, ← hday, hrest, List.length_cons,
        List.range_succ_eq_map, List.map_cons, List.map_map]
      refine congrArg₂ _ rfl (List.map_congr_left fun i _ => ?_)
      rw [Function.comp_apply, Nat.succ_eq_add_one, Nat.add_right_comm k 1 i, Nat.add_assoc k i 1]

/-- A run refines the meaning of its script by names: variables are the declared names, each once,
with the values of the first declarations, and the snapshot of each day holds their values in the
environment after that day. -/
theorem run_ofScript {today start : Date} {s : Script} {days : Nat} {snaps : List Values}
    (h : (ofScript today s).value.run start days = .ok snaps) :
    (ofScript today s).value.names = s.vars ∧
      (ofScript today s).value.initial = s.initialEnv.values s.vars ∧
      snaps.length = days ∧
      ∀ i (hi : i < snaps.length), (start.addDays? i).isSome ∧
        snaps[i] = (s.envAfter start (i + 1)).values s.vars := by
  obtain ⟨hnames, hinitial, hrules⟩ := ofScript_keeps today s
  obtain ⟨dates, hdates, rfl⟩ := run_eq_ok_iff.mp h
  have hsnaps := snapshots_rulesFrom s start dates 0 fun i hi => by
    rw [Nat.zero_add]
    exact addDays?_of_datesFrom hdates i hi
  rw [hrules, hinitial]
  rw [Script.envAfter] at hsnaps
  refine ⟨hnames, rfl, ?_, ?_⟩
  · rw [hsnaps, List.length_map, List.length_range, length_of_datesFrom hdates]
  · intro i hi
    have hi' : i < dates.length := by simpa [hsnaps] using hi
    rw [addDays?_of_datesFrom hdates i hi']
    simp [hsnaps]

def leapDay : Date := ⟨2024, 2, 29, by decide, by decide, by decide⟩

/-- A rule before the variable that it sets, a variable declared twice, a rule that chooses between two
assignments, and a date named last. -/
def Script.monthEnd : Script :=
  let name (text : String) : Ident := ⟨text, ⟨0, 0⟩⟩
  let ref (text : String) : NumberExpr := .reference (name text)
  let two : NumberExpr := .literal ⟨2, 0⟩ ⟨0, 0⟩
  let part (value : Option Int) : PartLiteral := ⟨value, ⟨0, 0⟩⟩
  let set (text : String) (value : NumberExpr) : Block := .cons (.assign (name text) .set value) .nil
  ⟨[.var (name "a") (.literal ⟨1, 0⟩ ⟨0, 0⟩) none,
    .rule (.named (name "end")) (.assign (name "b") .set (ref "a")),
    .var (name "b") (ref "a") none,
    .var (name "a") (.literal ⟨5, 0⟩ ⟨0, 0⟩) none,
    .rule (.pattern ⟨part none, part none, part none⟩)
      (.choose (.one (.one ⟨.less, ref "a", .binary .mul (ref "b") two⟩))
        (set "a" (.binary .add (ref "a") (ref "b")))
        (.block (set "b" (.binary .sub (ref "b") (.binary .div (ref "a") two))))),
    .rule (.named (name "end")) (.assign (name "a") .add (ref "b")),
    .date (name "end") ⟨part none, part none, part (some (-1))⟩], none⟩

theorem run_ofScript_monthEnd :
    (ofScript leapDay .monthEnd).value.run leapDay 2 = .ok [[3.0, 1.0], [3.0, -0.5]] ∧
      (Script.monthEnd.envAfter leapDay 1).values Script.monthEnd.vars = [3.0, 1.0] ∧
        (Script.monthEnd.envAfter leapDay 2).values Script.monthEnd.vars = [3.0, -0.5] := by
  have h : (ofScript leapDay .monthEnd).value.run leapDay 2 = .ok [[3.0, 1.0], [3.0, -0.5]] := by
    decide +kernel
  have hdays := (run_ofScript h).2.2.2
  exact ⟨h, (hdays 0 (by decide)).2.symm, (hdays 1 (by decide)).2.symm⟩

end Forecast
