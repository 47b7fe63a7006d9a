import Forecast.Proofs.Plan.Alike
import Forecast.Proofs.Plan.Presentation

namespace Forecast

open Checked

namespace Action

def nameSet (a : Action) : Set String := {y | y ∈ a.names.map Ident.name}

/-- Neither action assigns to a variable that the other one assigns to or mentions. -/
structure Apart (a b : Action) : Prop where
  left : a.Avoids b.nameSet
  right : b.Avoids a.nameSet

theorem Apart.symm {a b : Action} (h : a.Apart b) : b.Apart a := ⟨h.right, h.left⟩

end Action

section Names

variable {X : Set String}

theorem Condition.sources_subset {test : Condition} {around : List String}
    (h : ∀ x ∈ test.names, x.name ∈ X) (haround : ∀ y ∈ around, y ∈ X) :
    ∀ y ∈ test.sources ++ around, y ∈ X := by
  rw [List.forall_mem_append, sources, List.forall_mem_map]
  exact ⟨h, haround⟩

mutual

theorem Action.flows_subset : ∀ (a : Action) {around : List String},
    (∀ x ∈ a.names, x.name ∈ X) → (∀ y ∈ around, y ∈ X) →
      ∀ f ∈ a.flows around, f.target ∈ X ∧ ∀ y ∈ f.sources, y ∈ X
  | .assign x op e, around, h, haround => by
      rw [Action.names, List.forall_mem_cons] at h
      rw [Action.flows, List.forall_mem_singleton]
      refine ⟨h.1, List.forall_mem_append.mpr ⟨?_, haround⟩⟩
      rw [NumberExpr.sources, List.forall_mem_map]
      exact h.2
  | .choose test yes no, around, h, haround => by
      rw [Action.names, List.forall_mem_append, List.forall_mem_append] at h
      have hsources := Condition.sources_subset h.1 haround
      rw [Action.flows, List.forall_mem_append]
      exact ⟨Block.flows_subset yes h.2.1 hsources, Otherwise.flows_subset no h.2.2 hsources⟩
  | .block body, around, h, haround => by
      rw [Action.names] at h
      rw [Action.flows]
      exact Block.flows_subset body h haround

theorem Otherwise.flows_subset : ∀ (o : Otherwise) {around : List String},
    (∀ x ∈ o.names, x.name ∈ X) → (∀ y ∈ around, y ∈ X) →
      ∀ f ∈ o.flows around, f.target ∈ X ∧ ∀ y ∈ f.sources, y ∈ X
  | .nothing, around, _, _ => by
      rw [Otherwise.flows]
      exact List.forall_mem_nil _
  | .block body, around, h, haround => by
      rw [Otherwise.names] at h
      rw [Otherwise.flows]
      exact Block.flows_subset body h haround
  | .chain test yes no, around, h, haround => by
      rw [Otherwise.names, List.forall_mem_append, List.forall_mem_append] at h
      have hsources := Condition.sources_subset h.1 haround
      rw [Otherwise.flows, List.forall_mem_append]
      exact ⟨Block.flows_subset yes h.2.1 hsources, Otherwise.flows_subset no h.2.2 hsources⟩

theorem Block.flows_subset : ∀ (b : Block) {around : List String},
    (∀ x ∈ b.names, x.name ∈ X) → (∀ y ∈ around, y ∈ X) →
      ∀ f ∈ b.flows around, f.target ∈ X ∧ ∀ y ∈ f.sources, y ∈ X
  | .nil, around, _, _ => by
      rw [Block.flows]
      exact List.forall_mem_nil _
  | .cons first rest, around, h, haround => by
      rw [Block.names, List.forall_mem_append] at h
      rw [Block.flows, List.forall_mem_append]
      exact ⟨Action.flows_subset first h.1 haround, Block.flows_subset rest h.2 haround⟩

end

end Names

namespace Action

theorem flows_subset_nameSet (a : Action) :
    ∀ f ∈ a.flows [], f.target ∈ a.nameSet ∧ ∀ y ∈ f.sources, y ∈ a.nameSet :=
  a.flows_subset (fun _ hx => List.mem_map_of_mem hx) (List.forall_mem_nil _)

theorem act_of_notMem {a : Action} {y : String} (hy : y ∉ a.nameSet) (known : List String)
    (env : Env) : a.act known env y = env y := by
  have havoids : ∀ f ∈ a.flows [], f.target ∉ ({y} : Set String) := by
    rintro f hf rfl
    exact hy (a.flows_subset_nameSet f hf).1
  exact a.act_eqOn known env havoids rfl

theorem Apart.eqOn_act {a b : Action} (h : a.Apart b) (known : List String) (env : Env) :
    Set.EqOn (a.act known (b.act known env)) (b.act known (a.act known env)) a.nameSet := by
  have hwithin : ∀ f ∈ a.flows [], f.Within a.nameSet := fun f hf _ =>
    (a.flows_subset_nameSet f hf).2
  have hbefore : Set.EqOn (b.act known env) env a.nameSet := b.act_eqOn known env h.right
  have hafter : Set.EqOn (b.act known (a.act known env)) (a.act known env) a.nameSet :=
    b.act_eqOn known (a.act known env) h.right
  exact (a.eqOn_act hbefore hwithin).trans hafter.symm

theorem Apart.act_comm {a b : Action} (h : a.Apart b) (known : List String) (env : Env) :
    b.act known (a.act known env) = a.act known (b.act known env) := by
  funext y
  by_cases ha : y ∈ a.nameSet
  · exact (h.eqOn_act known env ha).symm
  · by_cases hb : y ∈ b.nameSet
    · exact h.symm.eqOn_act known env hb
    · rw [act_of_notMem hb, act_of_notMem ha, act_of_notMem ha, act_of_notMem hb]

end Action

namespace Script

/-- The rules have no date in common, or they are about different variables as far as they assign
to them. -/
def KeepsApart (s : Script) (when when' : When) (a a' : Action) : Prop :=
  (∀ d, ¬ (s.whenHolds d when = true ∧ s.whenHolds d when' = true)) ∨ a.Apart a'

def fire (s : Script) (d : Date) (known : List String) (when : When) (a : Action) (env : Env) : Env :=
  if s.whenHolds d when then a.act known env else env

theorem KeepsApart.fire_comm {s : Script} {when when' : When} {a a' : Action}
    (h : s.KeepsApart when when' a a') (d : Date) (known : List String) (env : Env) :
    s.fire d known when' a' (s.fire d known when a env) =
      s.fire d known when a (s.fire d known when' a' env) := by
  unfold fire
  split_ifs with hwhen' hwhen
  · rcases h with hdates | hapart
    · exact absurd ⟨hwhen, hwhen'⟩ (hdates d)
    · exact hapart.act_comm known env
  all_goals rfl

end Script

namespace Plan

theorem runDay_exchange {before after : List Rule} {q q' : Rule} {n : Nat} {d : Date}
    (hcomm : ∀ values : Values, values.length = n →
      Rule.apply d (Rule.apply d values q) q' = Rule.apply d (Rule.apply d values q') q)
    {values : Values} (hn : values.length = n) :
    runDay (before ++ q' :: q :: after) values d = runDay (before ++ q :: q' :: after) values d := by
  have hbefore := hcomm (runDay before values d) ((length_runDay before values d).trans hn)
  simp only [runDay, List.foldl_append, List.foldl_cons] at hbefore ⊢
  rw [hbefore]

variable {s : Script} {when when' : When} {a a' : Action}

theorem apply_ruleOf_comm (h : s.KeepsApart when when' a a') (d : Date) {values : Values}
    (hlength : values.length = s.vars.length) :
    Rule.apply d (Rule.apply d values (ruleOf (dateTable s.declarations) s.vars when a))
        (ruleOf (dateTable s.declarations) s.vars when' a') =
      Rule.apply d (Rule.apply d values (ruleOf (dateTable s.declarations) s.vars when' a'))
        (ruleOf (dateTable s.declarations) s.vars when a) := by
  have hall : Numbered s.vars s.vars := ⟨List.prefix_rfl, s.nodup_vars⟩
  rw [← Env.values_ofValues s.nodup_vars hlength]
  simp only [hall.apply_ruleOf]
  exact congrArg _ (h.fire_comm d s.vars _)

theorem rules_ofScript {today : Date} (hs : (ofScript today s).faults = []) :
    (ofScript today s).value.rules =
      (s.declarations.filter Declaration.isRule).filterMap
        (rule? (dateTable s.declarations) s.vars) := by
  obtain ⟨hnames, -, -⟩ := ofScript_keeps today s
  rw [← hnames]
  exact rules_of_wellDeclared _ ((faults_ofScript_eq_nil_iff today s).mp hs).1

theorem length_filterMap_rule? (table : List (String × DatePattern)) (known : List String)
    {ds : List Declaration} (hds : ∀ c ∈ ds, c.isRule) :
    (ds.filterMap (rule? table known)).length = ds.length := by
  refine List.filterMap_length_eq_length.mpr fun c hc => ?_
  cases c with
  | rule when a => rfl
  | var x e ps | date x p => cases hds _ hc

theorem exists_exchange {today : Date} (hs : (ofScript today s).faults = [])
    (h : s.KeepsApart when when' a a') {before after : List Declaration}
    (hrules : s.declarations.filter Declaration.isRule =
      before ++ .rule when a :: .rule when' a' :: after) :
    ∃ rules q q' rules', (ofScript today s).value.rules = rules ++ q :: q' :: rules' ∧
      rules.length = before.length ∧
        Alike (ofScript today s).value
          { (ofScript today s).value with rules := rules ++ q' :: q :: rules' } := by
  obtain ⟨hnames, -, -⟩ := ofScript_keeps today s
  have hbefore : ∀ c ∈ before, c.isRule := fun c hc =>
    (List.mem_filter.mp (hrules ▸ List.mem_append_left _ hc)).2
  have hrule : ∀ when a, rule? (dateTable s.declarations) s.vars (.rule when a) =
      some (ruleOf (dateTable s.declarations) s.vars when a) := fun _ _ => rfl
  have hsplit := rules_ofScript hs
  rw [hrules, List.filterMap_append, List.filterMap_cons_some (hrule when a),
    List.filterMap_cons_some (hrule when' a')] at hsplit
  refine ⟨_, _, _, _, hsplit, length_filterMap_rule? _ _ hbefore, rfl, fun values d hlength => ?_⟩
  rw [hnames] at hlength
  rw [hsplit]
  exact runDay_exchange (fun _ => apply_ruleOf_comm h d) hlength

theorem ofScript_exchange {today : Date} (hs : (ofScript today s).faults = [])
    (h : s.KeepsApart when when' a a') {before after : List Declaration} {s' : Script}
    (hexchange : s.Replaces before [.rule when a, .rule when' a'] [.rule when' a', .rule when a]
      after s') :
    (ofScript today s').faults = [] ∧
      Alike (ofScript today s).value (ofScript today s').value := by
  have hwell := (wellDeclared_iff s.declarations).mp ((faults_ofScript_eq_nil_iff today s).mp hs).1
  have hvars : varNames (before ++ [.rule when a]) = varNames before := by
    rw [varNames, List.filterMap_append]
    exact List.append_nil _
  have hfirst := hwell before (.rule when a) (.rule when' a' :: after) hexchange.declarations
  have hsecond := hwell (before ++ [.rule when a]) (.rule when' a') after
    (hexchange.declarations.trans (List.append_assoc _ [_] _).symm)
  rw [Declaration.Fits, hvars] at hsecond
  refine ofScript_replaces hexchange hs ?_ fun d known env => (h.fire_comm d known env).symm
  exact List.forall_mem_cons.mpr ⟨hsecond, List.forall_mem_singleton.mpr hfirst⟩

/-- Rules that do not meet may change places. If two rules with no date in common, or none of which
assigns to a variable that the other one assigns to or mentions, come one after the other among the
rules of a script, then its plan with the two of them exchanged has the same runs. If they also stand
next to each other in the text, then the text with the two of them exchanged has a plan as well, and
that one starts as the plan does and has the same runs. -/
theorem ofText_exchange {r : Request} {source : List Char} {p : Plan} (h : ofText r source = .ok p)
    (hapart : (Script.ofText source).value.unplaced.KeepsApart when when' a a') :
    (∀ before after, (Script.ofText source).value.unplaced.declarations.filter Declaration.isRule =
        before ++ .rule when a :: .rule when' a' :: after →
      ∃ rules q q' rules', p.rules = rules ++ q :: q' :: rules' ∧ rules.length = before.length ∧
        ∀ start days, run { p with rules := rules ++ q' :: q :: rules' } start days =
          p.run start days) ∧
    ∀ before after source' (s' : Script), Token.brokenParts source' = [] →
      s'.Spelled (Token.ofText source') →
      (Script.ofText source).value.unplaced.Replaces before [.rule when a, .rule when' a']
        [.rule when' a', .rule when a] after s'.unplaced →
      ∃ p', ofText r source' = .ok p' ∧ p'.initialState = p.initialState ∧
        p'.settings = p.settings ∧ ∀ start days, p'.run start days = p.run start days := by
  obtain ⟨hfaults, hvalue⟩ := ofScript_unplaced_of_ofText h
  refine ⟨fun before after hrules => ?_, fun before after source' s' hunbroken hspelled hexchange => ?_⟩
  · obtain ⟨rules, q, q', rules', hsplit, hlength, halike⟩ := exists_exchange hfaults hapart hrules
    have hplans := halike.override r
    rw [hvalue] at hplans
    refine ⟨rules, q, q', rules', ?_, hlength, ?_⟩
    · rw [← hvalue]
      exact hsplit
    · have hruns := hplans.run_eq (coherent_of_ofText h).length_initial
      rw [hplans.eq] at hruns
      exact hruns
  · obtain ⟨hfaults', halike⟩ := ofScript_exchange hfaults hapart hexchange
    exact ofText_of_alike h hunbroken hspelled hfaults' halike

namespace Sharing

def reference (text : String) : NumberExpr := .reference (Sorted.name text)

def grow : Action :=
  .choose (.one (.one ⟨.less, reference "a", .literal ⟨9, 0⟩ ⟨0, 0⟩⟩))
    (.cons (.assign (Sorted.name "a") .add (reference "b")) .nil) .nothing

def count : Action :=
  .block (.cons (.assign (Sorted.name "c") .mul (reference "b"))
    (.cons (.assign (Sorted.name "c") .add (.literal ⟨1, 0⟩ ⟨0, 0⟩)) .nil))

def everyDay : When := .pattern ⟨Sorted.wildcard, Sorted.wildcard, Sorted.wildcard⟩

def monthStart : When := .pattern ⟨Sorted.wildcard, Sorted.wildcard, Sorted.day 1⟩

def vars : List Declaration := [Sorted.varA, Sorted.varB, Hiding.var "c" 3 none]

def growFirst : Script := ⟨vars ++ [.rule everyDay grow, .rule monthStart count], none⟩

def countFirst : Script := ⟨vars ++ [.rule monthStart count, .rule everyDay grow], none⟩

theorem grow_apart_count : grow.Apart count where
  left := by
    have h : ∀ f ∈ grow.flows [], f.target ∉ count.names.map Ident.name := by decide +kernel
    exact h
  right := by
    have h : ∀ f ∈ count.flows [], f.target ∉ grow.names.map Ident.name := by decide +kernel
    exact h

theorem replaces : growFirst.Replaces vars [.rule everyDay grow, .rule monthStart count]
    [.rule monthStart count, .rule everyDay grow] [] countFirst where
  declarations := rfl
  replaced := rfl
  old_isRule := by decide
  new_isRule := by decide
  options := rfl

end Sharing

theorem ofText_exchange_sharing :
    ∃ p q q' p', ofText ⟨leapDay, none, some 3⟩ (Sharing.growFirst.render Script.oneBlank) = .ok p ∧
      (Script.ofText (Sharing.growFirst.render Script.oneBlank)).value.unplaced.KeepsApart
        Sharing.everyDay Sharing.monthStart Sharing.grow Sharing.count ∧
      p.rules = [q, q'] ∧
      (∀ start days, run { p with rules := [q', q] } start days = p.run start days) ∧
      ofText ⟨leapDay, none, some 3⟩ (Sharing.countFirst.render Script.oneBlank) = .ok p' ∧
      ∀ start days, p'.run start days = p.run start days := by
  have hgrow : Sharing.growFirst.Writable := by decide +kernel
  have hcount : Sharing.countFirst.Writable := by decide +kernel
  obtain ⟨s, -, -, htext, hunplaced⟩ :=
    Script.exists_spelled_render hgrow (Script.separates_oneBlank _)
  obtain ⟨s', hspelled, hunbroken, -, hunplaced'⟩ :=
    Script.exists_spelled_render hcount (Script.separates_oneBlank _)
  have hsome : ((ofText ⟨leapDay, none, some 3⟩
      (Sharing.growFirst.render Script.oneBlank)).toOption.isSome) = true := by
    decide +kernel
  obtain ⟨p, h⟩ := Result.exists_ok_of_isSome hsome
  have htwo : ((ofText ⟨leapDay, none, some 3⟩
      (Sharing.growFirst.render Script.oneBlank)).map (·.rules.length)) = .ok 2 := by
    decide +kernel
  have hscript : (Script.ofText (Sharing.growFirst.render Script.oneBlank)).value.unplaced =
      Sharing.growFirst := by
    rw [htext, hunplaced]
    rfl
  have hapart : (Script.ofText (Sharing.growFirst.render Script.oneBlank)).value.unplaced.KeepsApart
      Sharing.everyDay Sharing.monthStart Sharing.grow Sharing.count :=
    .inr Sharing.grow_apart_count
  obtain ⟨hrules, htexts⟩ := ofText_exchange h hapart
  rw [hscript] at hrules htexts
  obtain ⟨rules, q, q', rules', hsplit, hlength, hruns⟩ := hrules [] [] rfl
  obtain ⟨p', hp', -, -, hruns'⟩ := htexts Sharing.vars [] _ s' hunbroken hspelled
    (by rw [hunplaced']; exact Sharing.replaces)
  rw [h, Result.map, hsplit] at htwo
  obtain rfl := List.length_eq_zero_iff.mp hlength
  obtain rfl : rules' = [] := by simpa using htwo
  exact ⟨p, q, q', p', h, hapart, hsplit, hruns, hp', hruns'⟩

end Plan

end Forecast
