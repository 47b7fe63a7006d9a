import Forecast.Proofs.Continuation
import Forecast.Proofs.Plan.Reordered
import Forecast.Proofs.Script.Flow

namespace Forecast

open Checked

def SameOn (X : Set String) (names : List String) (v w : Values) : Prop :=
  ∀ x ∈ X, (names.zip v).lookup x = (names.zip w).lookup x

namespace Env

def ofValues (names : List String) (values : Values) : Env :=
  fun x => ((names.zip values).lookup x).getD nan

variable {X : Set String} {names : List String}

theorem values_ofValues {values : Values} (hn : names.Nodup) (h : values.length = names.length) :
    (ofValues names values).values names = values := by
  induction names generalizing values with
  | nil => exact (List.length_eq_zero_iff.mp h).symm
  | cons x names ih =>
      cases values with
      | nil => cases h
      | cons v values =>
          obtain ⟨hx, hn⟩ := List.nodup_cons.mp hn
          have hself : ofValues (x :: names) (v :: values) x = v := by simp [ofValues]
          have hrest : ∀ y ∈ names, ofValues (x :: names) (v :: values) y = ofValues names values y := by
            intro y hy
            have hne : (y == x) = false := beq_eq_false_iff_ne.mpr (ne_of_mem_of_not_mem hy hx)
            simp [ofValues, List.lookup_cons, hne]
          rw [Env.values, List.map_cons, hself, List.map_congr_left hrest]
          exact congrArg (v :: ·) (ih hn (Nat.succ.inj h))

theorem eqOn_ofValues {v w : Values} (h : SameOn X names v w) :
    Set.EqOn (ofValues names v) (ofValues names w) X :=
  fun x hx => congrArg (Option.getD · nan) (h x hx)

theorem lookup_values (env : Env) (x : String) :
    (names.zip (env.values names)).lookup x = if x ∈ names then some (env x) else none := by
  induction names with
  | nil => rfl
  | cons y names ih =>
      rw [Env.values, List.map_cons, List.zip_cons_cons, List.lookup_cons, ← Env.values, ih]
      by_cases hx : x = y
      · subst hx
        simp
      · simp [hx, beq_eq_false_iff_ne.mpr hx]

def Agreeing (X : Set String) (names : List String) (v w : Values) : Prop :=
  ∃ env env' : Env, Set.EqOn env env' X ∧ v = env.values names ∧ w = env'.values names

theorem Agreeing.sameOn {v w : Values} (h : Agreeing X names v w) : SameOn X names v w := by
  obtain ⟨env, env', heq, rfl, rfl⟩ := h
  intro x hx
  rw [lookup_values, lookup_values, heq hx]

theorem Agreeing.sample_eq {v w : Values} (h : Agreeing X names v w) (hn : names.Nodup) {x : String}
    (hx : x ∈ X) : v.sample (names.idxOf? x) = w.sample (names.idxOf? x) := by
  obtain ⟨env, env', heq, rfl, rfl⟩ := h
  have hall : Numbered names names := ⟨List.prefix_rfl, hn⟩
  cases hi : names.idxOf? x with
  | none => rfl
  | some i =>
      have hread := hall.read_values env hi
      have hread' := hall.read_values env' hi
      rw [Values.sample, Values.sample, Option.elim_some, Option.elim_some, hread, hread', heq hx]

end Env

namespace LeavesOut

variable {X : Set String} {ds ds' : List Declaration}

theorem filter_isVar_eq (h : LeavesOut X ds ds') :
    ds'.filter Declaration.isVar = ds.filter Declaration.isVar := by
  rw [← List.filterMap_eq_filter]
  exact h.filterMap_eq fun _ _ => rfl

theorem wellDeclared (h : LeavesOut X ds ds') (hds : WellDeclared ds) : WellDeclared ds' := by
  rw [wellDeclared_iff] at hds ⊢
  intro before' d after' hsplit
  obtain ⟨before, after, hsplit', hbefore⟩ := h.exists_split hsplit
  have hvars : varNames before' = varNames before := hbefore.filterMap_eq fun _ _ => rfl
  have hown : dateNames before' = dateNames before := hbefore.filterMap_eq fun _ _ => rfl
  have hdates : dateNames ds' = dateNames ds := h.filterMap_eq fun _ _ => rfl
  have hfits := hds before d after hsplit'
  cases d <;> simpa only [Declaration.Fits, hvars, hown, hdates] using hfits

end LeavesOut

theorem map_eq_map_of_forall₂ {α β : Type} {f g : α → β} {l l' : List α}
    (h : List.Forall₂ (fun a b => f a = g b) l l') : l.map f = l'.map g := by
  induction h with
  | nil => rfl
  | cons hab h ih => rw [List.map_cons, List.map_cons, hab, ih]

namespace Plan

variable {X : Set String}

/-- Two plans for the same variables cannot be told apart by the variables of the set: their runs
agree on them in every snapshot, and so do the samples that their graphs show. -/
structure AgreesOn (X : Set String) (p q : Plan) : Prop where
  names : q.names = p.names
  run : ∀ start days,
    (∃ e, p.run start days = .error e ∧ q.run start days = .error e) ∨
      (∃ why, p.run start days = .aborted why ∧ q.run start days = .aborted why) ∨
      ∃ snaps snaps', p.run start days = .ok snaps ∧ q.run start days = .ok snaps' ∧
        List.Forall₂ (SameOn X p.names) snaps snaps'
  settings : q.settings = p.settings
  graph : ∃ g g', p.graph = .ok g ∧ q.graph = .ok g' ∧
    ∀ (k : Nat) (t : Tracked), p.settings.tracked[k]? = some t → t.key ∈ X →
      ∃ samples, g.series[k]? = some samples ∧ g'.series[k]? = some samples

theorem runDay_eq_day {s : Script} {values : Values} (h : values.length = s.vars.length)
    (d : Date) : runDay (rulesFrom (dateTable s.declarations) [] s.declarations) values d =
      (s.day d (Env.ofValues s.vars values)).values s.vars := by
  have hall : Numbered s.vars s.vars := ⟨List.prefix_rfl, s.nodup_vars⟩
  have hday := runDay_rulesFrom hall s d (Env.ofValues s.vars values)
  rwa [Env.values_ofValues s.nodup_vars h] at hday

theorem agreeing_snapshots {s s' : Script} (hleft : LeavesOut X s.declarations s'.declarations)
    (hs : s.Confines X) (dates : List Date) {env env' : Env} (h : Set.EqOn env env' X) :
    List.Forall₂ (Env.Agreeing X s.vars)
      (snapshots (rulesFrom (dateTable s.declarations) [] s.declarations) (env.values s.vars) dates)
      (snapshots (rulesFrom (dateTable s'.declarations) [] s'.declarations) (env'.values s.vars)
        dates) := by
  induction dates generalizing env env' with
  | nil => exact .nil
  | cons d rest ih =>
      have hvars : Numbered s.vars s.vars := ⟨List.prefix_rfl, s.nodup_vars⟩
      have hvars' : Numbered (s'.declarations.foldl Declaration.learn []) s.vars := by
        rw [hleft.foldl_learn]
        exact hvars
      have hday : Set.EqOn (s.dayFrom d [] env s.declarations) (s'.dayFrom d [] env' s'.declarations)
          X := hleft.eqOn_dayFrom hs (hleft.whenHolds_eq d) h
      rw [snapshots, snapshots, runDay_rulesFrom hvars, runDay_rulesFrom hvars']
      exact .cons ⟨_, _, hday, rfl, rfl⟩ (ih hday)

theorem agreesOn_startingFrom {s s' : Script}
    (hleft : LeavesOut X s.declarations s'.declarations) (hs : s.Confines X) {p p' : Plan}
    (hnames : p.names = s.vars)
    (hrules : p.rules = rulesFrom (dateTable s.declarations) [] s.declarations)
    (hnames' : p'.names = p.names)
    (hrules' : p'.rules = rulesFrom (dateTable s'.declarations) [] s'.declarations)
    (hsettings : p'.settings = p.settings) (hspan : p.checkSpan = .ok ()) {v w : Values}
    (hv : v.length = p.names.length) (hw : w.length = p.names.length)
    (h : SameOn X p.names v w) : AgreesOn X (p.startingFrom v) (p'.startingFrom w) := by
  have hnodup : p.names.Nodup := hnames ▸ s.nodup_vars
  have hsnaps : ∀ dates, List.Forall₂ (Env.Agreeing X p.names) (snapshots p.rules v dates)
      (snapshots p'.rules w dates) := by
    intro dates
    have hagree := agreeing_snapshots hleft hs dates (Env.eqOn_ofValues h)
    rw [← hnames, Env.values_ofValues hnodup hv, Env.values_ofValues hnodup hw] at hagree
    rw [hrules, hrules']
    exact hagree
  refine ⟨hnames', fun start days => ?_, hsettings, ?_⟩
  · cases hrun : (p.startingFrom v).run start days with
    | error e => exact .inl ⟨e, rfl, run_eq_error_iff.mpr (run_eq_error_iff.mp hrun)⟩
    | aborted why => exact .inr (.inl ⟨why, rfl, run_eq_aborted_iff.mpr (run_eq_aborted_iff.mp hrun)⟩)
    | ok snaps =>
        obtain ⟨dates, hdates, rfl⟩ := run_eq_ok_iff.mp hrun
        refine .inr (.inr ⟨_, _, rfl, run_of_datesFrom hdates, ?_⟩)
        exact (hsnaps dates).imp fun _ _ => Env.Agreeing.sameOn
  · obtain ⟨dates, hdates⟩ := datesFrom_ok (checkSpan_eq_ok_iff.mp hspan).2
    have hdates' : datesFrom p'.settings.start p'.settings.days = .ok dates := hsettings ▸ hdates
    obtain ⟨g, hg, hseries⟩ := graph_of_datesFrom (p := p.startingFrom v) hdates
    obtain ⟨g', hg', hseries'⟩ := graph_of_datesFrom (p := p'.startingFrom w) hdates'
    refine ⟨g, g', hg, hg', fun k t ht hkey => ⟨_, hseries k t ht, ?_⟩⟩
    have ht' : (p'.startingFrom w).settings.tracked[k]? = some t := by
      rw [startingFrom, hsettings]
      exact ht
    have hsamples := (hsnaps dates).imp fun _ _ hagree => hagree.sample_eq hnodup hkey
    rw [hseries' k t ht', startingFrom, startingFrom, hnames']
    exact congrArg some (map_eq_map_of_forall₂ hsamples).symm

theorem ofScript_leavesOut (today : Date) {s s' : Script}
    (hleft : LeavesOut X s.declarations s'.declarations) (hoptions : s'.options = s.options)
    (hs : (ofScript today s).faults = []) :
    (ofScript today s').faults = [] ∧
      (ofScript today s').value.names = (ofScript today s).value.names ∧
      (ofScript today s').value.initial = (ofScript today s).value.initial ∧
      (ofScript today s').value.settings = (ofScript today s).value.settings := by
  obtain ⟨hwell, hown⟩ := (faults_ofScript_eq_nil_iff today s).mp hs
  have hfaults : (ofScript today s').faults = [] := by
    refine (faults_ofScript_eq_nil_iff today s').mpr ⟨hleft.wellDeclared hwell, ?_⟩
    rw [Script.ownStart, Script.ownDays, hoptions]
    exact hown
  have hvars : (Draft.empty.addAll (dateTable s'.declarations) s'.declarations).value.vars =
      (Draft.empty.addAll (dateTable s.declarations) s.declarations).value.vars := by
    rw [Draft.vars_addAll [] _ s'.declarations rfl, Draft.vars_addAll [] _ s.declarations rfl,
      hleft.filter_isVar_eq]
  obtain ⟨hnames, hinitial, htracked⟩ := by simpa only [Draft.vars, Prod.mk.injEq] using hvars
  refine ⟨hfaults, hnames, hinitial, ?_⟩
  simp only [ofScript, value_bind, value_pure, htracked, hoptions]

theorem names_rules_of_override {r : Request} {s : Script} {p : Plan}
    (h : (ofScript r.today s).value.override r = p) :
    p.names = s.vars ∧ p.rules = rulesFrom (dateTable s.declarations) [] s.declarations := by
  obtain ⟨hnames, -, hrules⟩ := ofScript_keeps r.today s
  rw [← h]
  exact ⟨hnames, hrules⟩

/-- Some variables depend on themselves alone if in every rule each assignment to one of them
mentions no others, neither in its value nor in the conditions around it. Then runs from states that
agree on them agree on them for good, over whatever days, and so do runs of the script without some
rules that assign to none of them: nothing else changes any of their samples. -/
theorem ofText_agreesOn {r : Request} {source : List Char} {p : Plan} (h : ofText r source = .ok p)
    (hX : (Script.ofText source).value.Confines X) :
    (∀ v w, v.length = p.names.length → w.length = p.names.length → SameOn X p.names v w →
      AgreesOn X (p.startingFrom v) (p.startingFrom w)) ∧
    ∀ source' (s' : Script), Token.brokenParts source' = [] → s'.Spelled (Token.ofText source') →
      LeavesOut X (Script.ofText source).value.unplaced.declarations s'.unplaced.declarations →
      s'.unplaced.options = (Script.ofText source).value.unplaced.options →
      ∃ p', ofText r source' = .ok p' ∧ p'.initial = p.initial ∧
        ∀ v w, v.length = p.names.length → w.length = p.names.length → SameOn X p.names v w →
          AgreesOn X (p.startingFrom v) (p'.startingFrom w) := by
  obtain ⟨hfaults, hvalue⟩ := ofScript_unplaced_of_ofText h
  have hspan := checkSpan_of_ofText h
  obtain ⟨hnames, hrules⟩ := names_rules_of_override hvalue
  refine ⟨fun v w hv hw hsame => ?_, fun source' s' hunbroken hspelled hleft hoptions => ?_⟩
  · exact agreesOn_startingFrom (.refl _) hX.unplaced hnames hrules rfl hrules rfl hspan hv hw hsame
  · obtain ⟨hfaults', hnames', hinitial, hsettings⟩ :=
      ofScript_leavesOut r.today hleft hoptions hfaults
    obtain ⟨p', hvalue'⟩ : ∃ p', (ofScript r.today s'.unplaced).value.override r = p' := ⟨_, rfl⟩
    obtain ⟨-, hrules'⟩ := names_rules_of_override hvalue'
    have hnames'' : p'.names = p.names := by
      rw [← hvalue', ← hvalue]
      exact hnames'
    have hinitial' : p'.initial = p.initial := by
      rw [← hvalue', ← hvalue]
      exact hinitial
    have hsettings' : p'.settings = p.settings := by
      rw [← hvalue', ← hvalue, override, override, hsettings]
    have hspan' : p'.checkSpan = .ok () := by
      rw [checkSpan, hsettings']
      exact hspan
    refine ⟨p', ofText_of_spelled hunbroken hspelled hfaults' hvalue' hspan', hinitial',
      fun v w hv hw hsame => ?_⟩
    exact agreesOn_startingFrom hleft hX.unplaced hnames hrules hnames'' hrules' hsettings' hspan hv
      hw hsame

namespace Growing

def everyDay (a : Action) : Declaration :=
  .rule (.pattern ⟨Sorted.wildcard, Sorted.wildcard, Sorted.wildcard⟩) a

def doubled : Action :=
  .choose (.one (.one ⟨.less, .reference (Sorted.name "a"), .literal ⟨9, 0⟩ ⟨0, 0⟩⟩))
    (.cons (.assign (Sorted.name "a") .mul (.literal ⟨2, 0⟩ ⟨0, 0⟩)) .nil)
    (.block (.cons (.assign (Sorted.name "b") .set (.reference (Sorted.name "a"))) .nil))

def counted : Action := .assign (Sorted.name "b") .add (.reference (Sorted.name "a"))

def full : Script := ⟨[Sorted.varA, Sorted.varB, everyDay counted, everyDay doubled], none⟩

def alone : Script := ⟨[Sorted.varA, Sorted.varB, everyDay doubled], none⟩

theorem counted_avoids : counted.Avoids {"a"} := by
  have h : ∀ f ∈ counted.flows [], f.target ≠ "a" := by decide +kernel
  exact h

theorem leavesOut : LeavesOut {"a"} full.declarations alone.declarations :=
  .keep _ (.keep _ (.drop _ counted_avoids (.keep _ .nil)))

end Growing

theorem ofText_agreesOn_growing :
    ∃ p p', ofText ⟨leapDay, none, some 3⟩ (Growing.full.render Script.oneBlank) = .ok p ∧
      (Script.ofText (Growing.full.render Script.oneBlank)).value.Confines {"a"} ∧
      ofText ⟨leapDay, none, some 3⟩ (Growing.alone.render Script.oneBlank) = .ok p' ∧
      SameOn {"a"} p.names [1.0, 1.0] [1.0, 7.0] ∧
      AgreesOn {"a"} (p.startingFrom [1.0, 1.0]) (p.startingFrom [1.0, 7.0]) ∧
      AgreesOn {"a"} (p.startingFrom [1.0, 1.0]) (p'.startingFrom [1.0, 7.0]) := by
  have hfull : Growing.full.Writable := by decide +kernel
  have halone : Growing.alone.Writable := by decide +kernel
  obtain ⟨s, -, -, htext, hunplaced⟩ :=
    Script.exists_spelled_render hfull (Script.separates_oneBlank _)
  obtain ⟨s', hspelled, hunbroken, -, hunplaced'⟩ :=
    Script.exists_spelled_render halone (Script.separates_oneBlank _)
  have hflows : ∀ d ∈ (Script.ofText (Growing.full.render Script.oneBlank)).value.declarations,
      ∀ f ∈ d.flows, f.target = "a" → ∀ y ∈ f.sources, y = "a" := by
    decide +kernel
  have hnames : (ofText ⟨leapDay, none, some 3⟩
      (Growing.full.render Script.oneBlank)).map names = .ok ["a", "b"] := by
    decide +kernel
  obtain ⟨p, hp, hpnames⟩ := Result.map_eq_ok_iff.mp hnames
  have hsame : SameOn {"a"} p.names [1.0, 1.0] [1.0, 7.0] := by
    intro x hx
    obtain rfl : x = "a" := hx
    simp only [hpnames, List.zip_cons_cons, List.lookup_cons_self]
  have hlength : ∀ x y : Float, [x, y].length = p.names.length := fun _ _ => by rw [hpnames]; rfl
  obtain ⟨hstates, hscripts⟩ := ofText_agreesOn (X := {"a"}) hp hflows
  rw [htext, hunplaced] at hscripts
  obtain ⟨p', hp', -, hagrees⟩ := hscripts _ s' hunbroken hspelled
    (by rw [hunplaced']; exact Growing.leavesOut) (by rw [hunplaced']; rfl)
  exact ⟨p, p', hp, hflows, hp', hsame, hstates _ _ (hlength _ _) (hlength _ _) hsame,
    hagrees _ _ (hlength _ _) (hlength _ _) hsame⟩

end Plan

end Forecast
