import Mathlib.Data.List.Induction
import Forecast.Graph
import Forecast.Proofs.Days

namespace Forecast

theorem length_run (values : Values) (e : Effect) : (e.run values).length = values.length := by
  induction e generalizing values with
  | skip => rfl
  | assign slot op value => rw [Effect.run, List.length_set]
  | seq first second ihf ihs => rw [Effect.run, ihs, ihf]
  | choose test yes no ihy ihn =>
      rw [Effect.run]
      split
      · exact ihy values
      · exact ihn values

theorem length_runDay (rules : List Rule) (values : Values) (d : Date) :
    (runDay rules values d).length = values.length := by
  rw [runDay]
  induction rules generalizing values with
  | nil => rfl
  | cons r rest ih =>
      rw [List.foldl_cons, ih, Rule.apply]
      split
      · exact length_run values r.effect
      · rfl

theorem length_snapshots (rules : List Rule) (values : Values) (dates : List Date) :
    (snapshots rules values dates).length = dates.length := by
  induction dates generalizing values with
  | nil => rfl
  | cons d rest ih => rw [snapshots, List.length_cons, ih, List.length_cons]

theorem length_of_mem_snapshots {rules : List Rule} {values snap : Values} {dates : List Date}
    (h : snap ∈ snapshots rules values dates) : snap.length = values.length := by
  induction dates generalizing values with
  | nil => cases h
  | cons d rest ih =>
      rw [snapshots] at h
      rcases List.mem_cons.mp h with rfl | h
      · exact length_runDay rules values d
      · rw [ih h, length_runDay]

theorem getLast?_snapshots (rules : List Rule) (values : Values) (dates : List Date) :
    (snapshots rules values dates).getLast?.getD values = dates.foldl (runDay rules) values := by
  induction dates generalizing values with
  | nil => rfl
  | cons d rest ih => rw [snapshots, List.getLast?_cons, Option.getD_some, ih, List.foldl_cons]

namespace Drawing

/-- Drawing on the way is drawing the snapshots. -/
theorem foldl_day (rules : List Rule) (slots : List (Option Nat)) (drawing : Drawing)
    (values : Values) (dates : List Date) :
    dates.foldl (day rules slots) (drawing, values) =
      ((snapshots rules values dates).foldl (add slots) drawing,
        dates.foldl (runDay rules) values) := by
  induction dates generalizing drawing values with
  | nil => rfl
  | cons d rest ih => rw [List.foldl_cons, day, ih, snapshots, List.foldl_cons, List.foldl_cons]

theorem series_foldl_add (slots : List (Option Nat)) (snaps : List Values) :
    (snaps.foldl (add slots) (start slots)).series =
      slots.map fun slot => (snaps.map (·.sample slot)).toArray := by
  induction snaps using List.reverseRecOn with
  | nil => rfl
  | append_singleton snaps snap ih =>
      rw [List.foldl_append, List.foldl_cons, List.foldl_nil, add, ih]
      simp only [List.zipWith_map, List.zipWith_self, List.push_toArray, List.map_append,
        List.map_cons, List.map_nil]

end Drawing

namespace Plan

variable {p : Plan} {dates : List Date}

theorem run_of_datesFrom {start : Date} {n : Nat} (h : datesFrom start n = .ok dates) :
    p.run start n = .ok (snapshots p.rules p.initial dates) := by
  rw [run, if_neg (Nat.not_lt.mpr (le_maxSnapshots_of_datesFrom h)), h]
  rfl

theorem run_eq_ok_iff {start : Date} {n : Nat} {snaps : List Values} : p.run start n = .ok snaps ↔
    ∃ dates, datesFrom start n = .ok dates ∧ snapshots p.rules p.initial dates = snaps := by
  constructor
  · intro h
    rw [run] at h
    split_ifs at h
    exact map_eq_ok_iff.mp (Result.ofExcept_eq_ok_iff.mp h)
  · rintro ⟨dates, hdates, rfl⟩
    exact run_of_datesFrom hdates

theorem run_eq_error_iff {start : Date} {n : Nat} {e : OutOfCalendar} :
    p.run start n = .error e ↔ n ≤ maxSnapshots ∧ datesFrom start n = .error e := by
  rw [run]
  split_ifs with h
  · exact ⟨nofun, fun hle => absurd h (Nat.not_lt.mpr hle.1)⟩
  · rw [Result.ofExcept_eq_error_iff, map_eq_error_iff]
    exact ⟨fun herror => ⟨Nat.le_of_not_lt h, herror⟩, And.right⟩

theorem run_eq_aborted_iff {start : Date} {n : Nat} {why : Abort} :
    p.run start n = .aborted why ↔ maxSnapshots < n ∧ why = .capacity := by
  rw [run]
  split_ifs with h
  · simp [h, eq_comm]
  · simp [h, Result.ofExcept_ne_aborted]

theorem final_eq_ok_iff {start : Date} {n : Nat} {last : Values} : p.final start n = .ok last ↔
    ∃ dates, datesFrom start n = .ok dates ∧ dates.foldl (runDay p.rules) p.initial = last :=
  map_eq_ok_iff

theorem final_eq_error_iff {start : Date} {n : Nat} {e : OutOfCalendar} :
    p.final start n = .error e ↔ datesFrom start n = .error e :=
  map_eq_error_iff

theorem simulate_of_datesFrom (h : datesFrom p.settings.start p.settings.days = .ok dates) :
    ∃ g, p.simulate = .ok (g, dates.foldl (runDay p.rules) p.initial) ∧
      g.series = p.slots.map (fun slot =>
        (snapshots p.rules p.initial dates).map (·.sample slot)) ∧
      g.settings = p.settings := by
  rw [simulate, h, Except.map, Drawing.foldl_day]
  refine ⟨_, rfl, ?_, rfl⟩
  simp only [Drawing.series_foldl_add, List.map_map, Function.comp_def]

theorem graph_of_datesFrom (h : datesFrom p.settings.start p.settings.days = .ok dates) :
    ∃ g, p.graph = .ok g ∧ ∀ (k : Nat) (t : Tracked), p.settings.tracked[k]? = some t →
      g.series[k]? =
        some ((snapshots p.rules p.initial dates).map (·.sample (p.names.idxOf? t.key))) := by
  obtain ⟨g, hg, hseries, -⟩ := simulate_of_datesFrom h
  refine ⟨g, map_eq_ok_iff.mpr ⟨_, hg, rfl⟩, fun k t ht => ?_⟩
  rw [hseries, slots, List.getElem?_map, List.getElem?_map, ht]
  rfl

end Plan

end Forecast
