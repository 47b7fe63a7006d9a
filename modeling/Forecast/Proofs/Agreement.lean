import Forecast.Proofs.Evaluation
import Forecast.Proofs.Plan.Refinement
import Forecast.Proofs.Settings

namespace Forecast

open Checked

namespace Tracked

theorem key_apply {t u : Tracked} {p : Property} (h : t.apply p = .ok u) : u.key = t.key := by
  rw [apply] at h
  split at h
  case h_1 | h_2 =>
      obtain ⟨text, -, rfl⟩ := map_eq_ok_iff.mp h
      rfl
  case h_3 =>
      obtain rfl := Except.ok.inj h
      rfl

theorem key_applyAll (t : Tracked) (ps : List Property) : (t.applyAll ps).value.key = t.key := by
  induction ps generalizing t with
  | nil => rfl
  | cons p rest ih =>
      rw [applyAll]
      cases h : t.apply p with
      | ok u => exact (ih u).trans (key_apply h)
      | error e => exact ih t

theorem key_ofProperties (name : String) (ps : Option (List Property)) :
    (ofProperties name ps).value.key = name := key_applyAll _ _

end Tracked

namespace Settings

theorem Draft.tracked_apply {today : Date} {d e : Draft} {p : Property}
    (h : d.apply today p = .ok e) : e.settings.tracked = d.settings.tracked := by
  cases applied_of_apply h with
  | start hstart hdays | days hstart hdays => rfl
  | other hstart hdays hs hd ht => exact ht

theorem Draft.tracked_applyAll (today : Date) (d : Draft) (ps : List Property) :
    (d.applyAll today ps).value.settings.tracked = d.settings.tracked := by
  induction ps generalizing d with
  | nil => rfl
  | cons p rest ih =>
      rw [applyAll]
      cases h : d.apply today p with
      | ok e => exact (ih e).trans (tracked_apply h)
      | error e => exact ih d

theorem Draft.tracked_finish (today : Date) (d : Draft) :
    (d.finish today).value.tracked = d.settings.tracked := by
  rw [finish]
  split <;> rfl

theorem tracked_ofProperties (today : Date) (tracked : List Tracked) (ps : Option (List Property)) :
    (ofProperties today tracked ps).value.tracked = tracked := by
  rw [ofProperties, value_bind, Draft.tracked_finish, Draft.tracked_applyAll]
  rfl

end Settings

namespace Plan

theorem Draft.key_mem_add {table : List (String × DatePattern)} {d : Draft}
    (h : ∀ t ∈ d.tracked, t.key ∈ d.names) (declaration : Declaration) :
    ∀ t ∈ (d.add table declaration).value.tracked, t.key ∈ (d.add table declaration).value.names := by
  cases declaration with
  | var x e ps =>
      rw [add, value_addVar]
      split
      · exact h
      · have hold : ∀ t ∈ d.tracked, t.key ∈ d.names ++ [x.name] := fun t ht =>
          List.mem_append_left _ (h t ht)
        dsimp only
        split
        · exact hold
        · refine List.forall_mem_append.mpr ⟨hold, List.forall_mem_singleton.mpr ?_⟩
          rw [Tracked.key_ofProperties]
          exact List.mem_append_right _ List.mem_cons_self
  | date x p =>
      rw [add, value_addDate]
      split <;> exact h
  | rule when a => exact h

theorem Draft.key_mem_addAll {table : List (String × DatePattern)} {d : Draft}
    (h : ∀ t ∈ d.tracked, t.key ∈ d.names) (ds : List Declaration) :
    ∀ t ∈ (d.addAll table ds).value.tracked, t.key ∈ (d.addAll table ds).value.names := by
  induction ds generalizing d with
  | nil => exact h
  | cons declaration rest ih => exact ih (key_mem_add h declaration)

/-- There is one value for each name, and only variables are tracked. -/
structure Coherent (p : Plan) : Prop where
  length_initial : p.initial.length = p.names.length
  key_mem : ∀ t ∈ p.settings.tracked, t.key ∈ p.names

theorem coherent_ofScript (today : Date) (s : Script) : (ofScript today s).value.Coherent := by
  obtain ⟨hnames, hinitial, -⟩ := ofScript_keeps today s
  refine ⟨?_, ?_⟩
  · rw [hnames, hinitial, Env.values, List.length_map]
  · have htracked : (ofScript today s).value.settings.tracked = _ :=
      Settings.tracked_ofProperties today _ _
    rw [htracked]
    have hempty : ∀ t ∈ Draft.empty.tracked, t.key ∈ Draft.empty.names := List.forall_mem_nil _
    exact Draft.key_mem_addAll hempty s.declarations

theorem coherent_of_ofText {r : Request} {source : List Char} {p : Plan}
    (h : ofText r source = .ok p) : p.Coherent := by
  obtain ⟨-, -, rfl, -⟩ := ofText_eq_ok_iff.mp h
  exact ⟨(coherent_ofScript r.today _).length_initial, (coherent_ofScript r.today _).key_mem⟩

end Plan

theorem lookup_zip_eq_sample {names : List String} {values : Values} {x : String}
    (hlength : values.length = names.length) (hx : x ∈ names) :
    (names.zip values).lookup x = some (values.sample (names.idxOf? x)) := by
  induction names generalizing values with
  | nil => cases hx
  | cons y names ih =>
      cases values with
      | nil => cases hlength
      | cons v values =>
          rw [List.zip_cons_cons, List.lookup_cons, List.idxOf?_cons]
          by_cases hy : y = x
          · subst hy
            rw [beq_self_eq_true, if_pos rfl]
            rfl
          · have hne : (y == x) = false := beq_eq_false_iff_ne.mpr hy
            have hne' : (x == y) = false := beq_eq_false_iff_ne.mpr (Ne.symm hy)
            have hlength' : values.length = names.length := Nat.succ.inj hlength
            have hx' : x ∈ names := (List.mem_cons.mp hx).resolve_left (Ne.symm hy)
            rw [hne, hne', ih hlength' hx', if_neg nofun]
            cases names.idxOf? x <;> rfl

namespace Plan

/-- What the different ways of running a plan over its own span of days give. -/
structure Runs (p : Plan) (g : Graph) (snaps : List Values) (last : Values) : Prop where
  graph : p.graph = .ok g
  run : p.run p.settings.start p.settings.days = .ok snaps
  final : p.final p.settings.start p.settings.days = .ok last

/-- The results agree: each series has the values of its variable on each day, and the last values
are those of the last day, or the first ones if there is no day. -/
structure Agree (p : Plan) (g : Graph) (snaps : List Values) (last : Values) : Prop where
  length_snaps : snaps.length = p.settings.days
  sample : ∀ (k : Nat) (t : Tracked) (i : Nat) (snap : Values), p.settings.tracked[k]? = some t →
    snaps[i]? = some snap → ∃ samples x, g.series[k]? = some samples ∧ samples[i]? = some x ∧
      (p.names.zip snap).lookup t.key = some x
  last : last = snaps.getLast?.getD p.initial

theorem Coherent.agree {p : Plan} (hp : p.Coherent) {dates : List Date} {g : Graph}
    (hlength : dates.length = p.settings.days)
    (hg : g.series = p.slots.map fun slot =>
      (snapshots p.rules p.initial dates).map (·.sample slot)) :
    p.Agree g (snapshots p.rules p.initial dates) (dates.foldl (runDay p.rules) p.initial) := by
  refine ⟨?_, ?_, (getLast?_snapshots p.rules p.initial dates).symm⟩
  · rw [length_snapshots, hlength]
  · intro k t i snap ht hsnap
    have hmem : t ∈ p.settings.tracked := List.mem_of_getElem? ht
    have hvalues : snap.length = p.names.length :=
      (length_of_mem_snapshots (List.mem_of_getElem? hsnap)).trans hp.length_initial
    refine ⟨(snapshots p.rules p.initial dates).map (·.sample (p.names.idxOf? t.key)), _, ?_, ?_,
      lookup_zip_eq_sample hvalues (hp.key_mem t hmem)⟩
    · rw [hg, slots, List.map_map, List.getElem?_map, ht]
      rfl
    · rw [List.getElem?_map, hsnap]
      rfl

end Plan

/-- However a script is run, the outcome is the same. If it has a plan, the short and the full
evaluation have its graph, whose series hold the values that a run has on each day, and the full one
has the last values of that run. If it has none, both report what is wrong with it, or break off. -/
theorem evaluations_agree (r : Request) (source : List Char) :
    match Plan.ofText r source with
    | .aborted why => evaluate r source = .aborted why ∧ evaluateFully r source = .aborted why
    | .error ds => evaluate r source = .ok ⟨ds, none⟩ ∧
        ∃ full, evaluateFully r source = .ok full ∧ full.evaluation = ⟨ds, none⟩ ∧ full.final = none
    | .ok p => ∃ g snaps last, p.Runs g snaps last ∧ p.Agree g snaps last ∧
        evaluate r source = .ok ⟨[], some g⟩ ∧
        ∃ full, evaluateFully r source = .ok full ∧ full.evaluation = ⟨[], some g⟩ ∧
          full.final = some (p.names.zip last) := by
  cases h : Plan.ofText r source with
  | aborted why => exact ⟨by rw [evaluate, h], by rw [evaluateFully, h]⟩
  | error ds =>
      refine ⟨?_, ⟨⟨ds, none⟩, [], [], none⟩, ?_, rfl, rfl⟩
      · rw [evaluate, h]
      · rw [evaluateFully, h]
  | ok p =>
      obtain ⟨-, hlast⟩ := Plan.checkSpan_eq_ok_iff.mp (Plan.checkSpan_of_ofText h)
      obtain ⟨dates, hdates⟩ := datesFrom_ok hlast
      obtain ⟨g, hsimulate, hseries, -⟩ := Plan.simulate_of_datesFrom hdates
      have hgraph : p.graph = .ok g := by rw [Plan.graph, hsimulate, Except.map]
      have hrun := Plan.run_of_datesFrom (p := p) hdates
      have hfinal : p.final p.settings.start p.settings.days =
          .ok (dates.foldl (runDay p.rules) p.initial) :=
        Plan.final_eq_ok_iff.mpr ⟨dates, hdates, rfl⟩
      have hagree := (Plan.coherent_of_ofText h).agree (length_of_datesFrom hdates) hseries
      exact ⟨g, _, _, ⟨hgraph, hrun, hfinal⟩, hagree, evaluate_of_simulate h hsimulate, _,
        evaluateFully_of_simulate h hsimulate, rfl, rfl⟩

end Forecast
