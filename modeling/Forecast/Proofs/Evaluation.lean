import Mathlib.Logic.Basic
import Forecast.Proofs.Plan.Outcome
import Forecast.Proofs.Simulation

namespace Forecast

namespace Settings

theorem checkDays_eq_ok_iff {days : Nat} : checkDays days = .ok () ↔ days ≤ Duration.maxDays := by
  rw [checkDays]
  split_ifs with h <;> simp [h]

theorem checkHorizon_eq_ok_iff {start : Date} {days : Nat} :
    checkHorizon start days = .ok () ↔ start.number + (days - 1 : Nat) ≤ Date.lastNumber := by
  rw [checkHorizon]
  split_ifs with h <;> simp [h]

end Settings

namespace Plan

theorem checkSpan_eq_ok_iff {p : Plan} :
    p.checkSpan = .ok () ↔ p.settings.days ≤ Duration.maxDays ∧
      p.settings.start.number + (p.settings.days - 1 : Nat) ≤ Date.lastNumber := by
  rw [← Settings.checkDays_eq_ok_iff, ← Settings.checkHorizon_eq_ok_iff, checkSpan]
  cases Settings.checkDays p.settings.days with
  | error e => simp [bind, Except.bind]
  | ok u => simp [bind, Except.bind]

theorem checkSpan_of_ofText {r : Request} {source : List Char} {p : Plan}
    (h : ofText r source = .ok p) : p.checkSpan = .ok () :=
  (ofText_eq_ok_iff.mp h).2.2.2

end Plan

/-- One series for each tracked variable, each as long as the forecast, which is of an admissible
length and has all its days in the calendar. -/
structure Graph.Complete (g : Graph) : Prop where
  length_series : g.series.length = g.settings.tracked.length
  length_samples : ∀ samples ∈ g.series, samples.length = g.settings.days
  days_le : g.settings.days ≤ 36600
  exists_day : ∀ i < g.settings.days, ∃ d, g.settings.start.addDays? i = some d

namespace Plan

theorem exists_graph_of_checkSpan {p : Plan} (h : p.checkSpan = .ok ()) :
    ∃ g last, p.simulate = .ok (g, last) ∧ g.Complete := by
  obtain ⟨hdays, hlast⟩ := checkSpan_eq_ok_iff.mp h
  obtain ⟨dates, hdates⟩ := datesFrom_ok hlast
  have hlength := length_of_datesFrom hdates
  obtain ⟨g, hsimulate, hseries, hsettings⟩ := simulate_of_datesFrom hdates
  refine ⟨g, _, hsimulate, ?_, ?_, by rwa [hsettings], ?_⟩
  · rw [hseries, slots, List.length_map, List.length_map, hsettings]
  · intro samples hsamples
    rw [hseries] at hsamples
    obtain ⟨slot, -, rfl⟩ := List.mem_map.mp hsamples
    rw [List.length_map, length_snapshots, hlength, hsettings]
  · intro i hi
    rw [hsettings] at hi ⊢
    have hi' : i < dates.length := by rwa [hlength]
    exact ⟨dates[i], addDays?_of_datesFrom hdates i hi'⟩

end Plan

theorem evaluate_of_simulate {r : Request} {source : List Char} {p : Plan} {g : Graph}
    {last : Values} (h : Plan.ofText r source = .ok p) (hsimulate : p.simulate = .ok (g, last)) :
    evaluate r source = .ok ⟨[], some g⟩ := by
  rw [evaluate, h]
  dsimp only
  rw [Plan.graph, hsimulate]
  rfl

theorem evaluateFully_of_simulate {r : Request} {source : List Char} {p : Plan} {g : Graph}
    {last : Values} (h : Plan.ofText r source = .ok p) (hsimulate : p.simulate = .ok (g, last)) :
    evaluateFully r source = .ok ⟨⟨[], some g⟩, p.settings.tracked.map Tracked.key,
      p.dates.map Prod.fst, some (p.names.zip last)⟩ := by
  rw [evaluateFully, h]
  dsimp only
  rw [hsimulate]
  rfl

/-- Every text has an evaluation, whichever dates and number of days it is asked for, unless a start
date in it breaks the program off; a phrase that names no date is a fault like any other. The short
form is part of the full one. -/
theorem evaluateFully_total (r : Request) (source : List Char) :
    match Plan.abort? r.today source with
    | some why => evaluateFully r source = .aborted why ∧ evaluate r source = .aborted why
    | none => ∃ full, evaluateFully r source = .ok full ∧ evaluate r source = .ok full.evaluation ∧
        Xor (full.evaluation.diagnostics ≠ [] ∧ full.evaluation.graph = none)
          (full.evaluation.diagnostics = [] ∧
            ∃ g, full.evaluation.graph = some g ∧ g.Complete) := by
  cases h : Plan.ofText r source with
  | aborted why =>
      rw [Plan.ofText_eq_aborted_iff.mp h]
      exact ⟨by rw [evaluateFully, h], by rw [evaluate, h]⟩
  | error ds =>
      have hne := Plan.ne_nil_of_ofText_eq_error h
      rw [Plan.abort?_eq_none (by rw [h]; nofun)]
      refine ⟨⟨⟨ds, none⟩, [], [], none⟩, ?_, ?_, .inl ⟨⟨hne, rfl⟩, fun hnil => hne hnil.1⟩⟩
      · rw [evaluateFully, h]
      · rw [evaluate, h]
  | ok p =>
      obtain ⟨g, last, hsimulate, hcomplete⟩ :=
        Plan.exists_graph_of_checkSpan (Plan.checkSpan_of_ofText h)
      rw [Plan.abort?_eq_none (by rw [h]; nofun)]
      exact ⟨_, evaluateFully_of_simulate h hsimulate, evaluate_of_simulate h hsimulate,
        .inr ⟨⟨rfl, g, rfl, hcomplete⟩, fun hne => hne.1 rfl⟩⟩

end Forecast
