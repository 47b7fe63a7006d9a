import Forecast.Evaluation
import Forecast.Proofs.Continuation
import Forecast.Proofs.Order
import Forecast.Proofs.Plan.Refinement

namespace Forecast

/-- The float is the first in an order, of zero and the samples that are numbers. -/
structure First (le : Float → Float → Prop) (bound : Float) (samples : List Float) : Prop where
  zero : le bound 0.0
  sample : ∀ x ∈ samples, x.isNaN = false → le bound x
  attained : bound = 0.0 ∨ bound ∈ samples

namespace First

variable {le lt : Float → Float → Prop} {bound : Float} {samples : List Float}

theorem step (h : OrdersNumbers le lt) (hb : First le bound samples) (x : Float)
    [Decidable (lt x bound)] : First le (if lt x bound then x else bound) (samples ++ [x]) := by
  by_cases hx : lt x bound
  · obtain ⟨hle, -⟩ := h.lt_iff.mp hx
    rw [if_pos hx]
    refine ⟨h.trans hle hb.zero, List.forall_mem_append.mpr ⟨fun y hy hnumber => ?_, ?_⟩, .inr ?_⟩
    · exact h.trans hle (hb.sample y hy hnumber)
    · exact List.forall_mem_singleton.mpr h.refl
    · exact List.mem_append_right _ List.mem_cons_self
  · rw [if_neg hx]
    refine ⟨hb.zero, List.forall_mem_append.mpr ⟨hb.sample, ?_⟩,
      hb.attained.imp_right (List.mem_append_left _)⟩
    exact List.forall_mem_singleton.mpr fun hnumber =>
      h.le_of_not_lt hnumber (h.isNaN_left hb.zero) hx

theorem congr {samples' : List Float} (hb : First le bound samples)
    (hsame : ∀ x, x ∈ samples' ↔ x ∈ samples) : First le bound samples' :=
  ⟨hb.zero, fun x hx => hb.sample x ((hsame x).mp hx), hb.attained.imp_right (hsame bound).mpr⟩

theorem le_of_subset {bound' : Float} {samples' : List Float} (h : OrdersNumbers le lt)
    (hb : First le bound samples) (hb' : First le bound' samples')
    (hsub : ∀ x ∈ samples, x.isNaN = false → x ∈ samples') : le bound' bound := by
  have hnumber : bound.isNaN = false := h.isNaN_left hb.zero
  rcases hb.attained with hzero | hmem
  · rw [hzero]
    exact hb'.zero
  · exact hb'.sample bound (hsub bound hmem hnumber) hnumber

end First

namespace Range

/-- The range goes from the least to the greatest of zero and those samples that are numbers. -/
structure IsOf (r : Range) (samples : List Float) : Prop where
  low : First (· ≤ ·) r.low samples
  high : First (fun x y => y ≤ x) r.high samples

/-- Each bound of the second range is at the one of the first or beyond it. -/
structure Within (r r' : Range) : Prop where
  low : r'.low ≤ r.low
  high : r.high ≤ r'.high

def Same (r r' : Range) : Prop := r.Within r' ∧ r'.Within r

namespace IsOf

variable {r r' : Range} {samples samples' : List Float}

theorem zero : Range.zero.IsOf [] := by
  have hzero : (0.0 : Float) ≤ 0.0 := ordersNumbers.refl (by decide +kernel)
  exact ⟨⟨hzero, List.forall_mem_nil _, .inl rfl⟩, ⟨hzero, List.forall_mem_nil _, .inl rfl⟩⟩

theorem widen (h : r.IsOf samples) (x : Float) : (r.widen x).IsOf (samples ++ [x]) :=
  ⟨h.low.step ordersNumbers x, h.high.step ordersNumbers.flip x⟩

theorem foldl_widen (h : r.IsOf samples) (more : List Float) :
    (more.foldl Range.widen r).IsOf (samples ++ more) := by
  induction more generalizing r samples with
  | nil =>
      rw [List.append_nil]
      exact h
  | cons x rest ih =>
      rw [List.foldl_cons, List.append_cons]
      exact ih (h.widen x)

theorem congr (h : r.IsOf samples) (hsame : ∀ x, x ∈ samples' ↔ x ∈ samples) :
    r.IsOf samples' := ⟨h.low.congr hsame, h.high.congr hsame⟩

theorem within (h : r.IsOf samples) (h' : r'.IsOf samples')
    (hsub : ∀ x ∈ samples, x.isNaN = false → x ∈ samples') : r.Within r' := by
  have hlow := h.low.le_of_subset ordersNumbers h'.low hsub
  have hhigh := h.high.le_of_subset ordersNumbers.flip h'.high hsub
  exact ⟨hlow, hhigh⟩

theorem same (h : r.IsOf samples) (h' : r'.IsOf samples')
    (hsame : ∀ x, x.isNaN = false → (x ∈ samples ↔ x ∈ samples')) : r.Same r' :=
  ⟨h.within h' fun x hx hnumber => (hsame x hnumber).mp hx,
    h'.within h fun x hx hnumber => (hsame x hnumber).mpr hx⟩

end IsOf

end Range

namespace Drawing

theorem range_foldl_add (slots : List (Option Nat)) (drawing : Drawing) (snaps : List Values) :
    (snaps.foldl (add slots) drawing).range =
      (snaps.flatMap fun snap => slots.map snap.sample).foldl Range.widen drawing.range := by
  induction snaps generalizing drawing with
  | nil => rfl
  | cons snap rest ih => rw [List.foldl_cons, ih, List.flatMap_cons, List.foldl_append, add]

end Drawing

theorem mem_flatten_series_iff {slots : List (Option Nat)} {snaps : List Values} {x : Float} :
    x ∈ (slots.map fun slot => snaps.map (·.sample slot)).flatten ↔
      ∃ slot ∈ slots, ∃ snap ∈ snaps, snap.sample slot = x := by
  simp [List.mem_flatten]

namespace Plan

variable {p : Plan} {g : Graph}

theorem series_of_graph (h : p.graph = .ok g) :
    ∃ dates, datesFrom p.settings.start p.settings.days = .ok dates ∧
      g.series = p.slots.map fun slot =>
        (snapshots p.rules p.initial dates).map (·.sample slot) := by
  obtain ⟨result, hsimulate, rfl⟩ := map_eq_ok_iff.mp h
  obtain ⟨dates, hdates, -⟩ := map_eq_ok_iff.mp hsimulate
  obtain ⟨g, hg, hseries, -⟩ := simulate_of_datesFrom hdates
  obtain rfl := Except.ok.inj (hsimulate.symm.trans hg)
  exact ⟨dates, hdates, hseries⟩

def Shows (p : Plan) (x : Float) : Prop :=
  ∃ snaps, p.run p.settings.start p.settings.days = .ok snaps ∧
    ∃ t ∈ p.settings.tracked, ∃ snap ∈ snaps, snap.sample (p.names.idxOf? t.key) = x

theorem mem_series_iff_shows (h : p.graph = .ok g) (x : Float) :
    x ∈ g.series.flatten ↔ p.Shows x := by
  obtain ⟨dates, hdates, hseries⟩ := series_of_graph h
  rw [hseries, mem_flatten_series_iff, Shows]
  simp only [run_of_datesFrom hdates, Result.ok.injEq, exists_eq_left', slots, List.mem_map,
    exists_exists_and_eq_and]

theorem range_of_graph (h : p.graph = .ok g) : g.range.IsOf g.series.flatten := by
  obtain ⟨dates, hdates, hseries⟩ := series_of_graph h
  rw [graph, simulate, hdates] at h
  obtain rfl := Except.ok.inj h
  rw [hseries]
  simp only [Drawing.foldl_day, Drawing.range_foldl_add]
  refine (Range.IsOf.zero.foldl_widen _).congr fun x => ?_
  rw [List.nil_append, mem_flatten_series_iff]
  simp only [List.mem_flatMap, List.mem_map]
  constructor
  · rintro ⟨slot, hslot, snap, hsnap, hx⟩
    exact ⟨snap, hsnap, slot, hslot, hx⟩
  · rintro ⟨snap, hsnap, slot, hslot, hx⟩
    exact ⟨slot, hslot, snap, hsnap, hx⟩

theorem exists_graph_of_perm (h : p.graph = .ok g) {tracked : List Tracked}
    (hperm : tracked.Perm p.settings.tracked) :
    ∃ g', Plan.graph { p with settings.tracked := tracked } = .ok g' ∧
      ∀ x, x ∈ g'.series.flatten ↔ x ∈ g.series.flatten := by
  obtain ⟨dates, hdates, hseries⟩ := series_of_graph h
  obtain ⟨g', hg', hseries', -⟩ :=
    simulate_of_datesFrom (p := { p with settings.tracked := tracked }) hdates
  refine ⟨g', map_eq_ok_iff.mpr ⟨_, hg', rfl⟩, fun x => ?_⟩
  have hslots : (Plan.slots { p with settings.tracked := tracked }).Perm p.slots := hperm.map _
  rw [hseries, hseries', mem_flatten_series_iff, mem_flatten_series_iff]
  simp only [hslots.mem_iff]

theorem exists_graph_of_le (h : p.graph = .ok g) {days : Nat} (hdays : days ≤ p.settings.days) :
    ∃ g', Plan.graph { p with settings.days := days } = .ok g' ∧
      ∀ x ∈ g'.series.flatten, x ∈ g.series.flatten := by
  obtain ⟨dates, hdates, hseries⟩ := series_of_graph h
  have hfirst := datesFrom_of_le hdays hdates
  obtain ⟨g', hg', hseries', -⟩ :=
    simulate_of_datesFrom (p := { p with settings.days := days }) hfirst
  refine ⟨g', map_eq_ok_iff.mpr ⟨_, hg', rfl⟩, fun x hx => ?_⟩
  have hsnaps := snapshots_append p.rules p.initial (dates.take days) (dates.drop days)
  rw [List.take_append_drop] at hsnaps
  rw [hseries', mem_flatten_series_iff] at hx
  obtain ⟨slot, hslot, snap, hsnap, hx⟩ := hx
  rw [hseries, mem_flatten_series_iff, hsnaps]
  exact ⟨slot, hslot, snap, List.mem_append_left _ hsnap, hx⟩

/-- The range of a graph is tight. The samples in the graph are the values of the tracked variables,
and its range goes from the least to the greatest of zero and those samples that are numbers. It
depends on nothing else, so neither on samples that are not numbers nor on variables that are hidden;
it stays the same when the tracked variables change their order; and a forecast of fewer days has no
wider range. -/
theorem range_isTight (h : p.graph = .ok g) :
    (∀ x, x ∈ g.series.flatten ↔ p.Shows x) ∧
    g.range.IsOf g.series.flatten ∧
    (∀ p' g', Plan.graph p' = .ok g' →
      (∀ x, x.isNaN = false → (x ∈ g'.series.flatten ↔ x ∈ g.series.flatten)) →
      g'.range.Same g.range) ∧
    (∀ tracked : List Tracked, tracked.Perm p.settings.tracked →
      ∃ g', Plan.graph { p with settings.tracked := tracked } = .ok g' ∧ g'.range.Same g.range) ∧
    ∀ days ≤ p.settings.days,
      ∃ g', Plan.graph { p with settings.days := days } = .ok g' ∧ g'.range.Within g.range := by
  have hrange := range_of_graph h
  refine ⟨mem_series_iff_shows h, hrange, fun p' g' h' hsame => ?_, fun tracked hperm => ?_,
    fun days hdays => ?_⟩
  · exact (range_of_graph h').same hrange hsame
  · obtain ⟨g', hg', hsame⟩ := exists_graph_of_perm h hperm
    exact ⟨g', hg', (range_of_graph hg').same hrange fun x _ => hsame x⟩
  · obtain ⟨g', hg', hsub⟩ := exists_graph_of_le h hdays
    exact ⟨g', hg', (range_of_graph hg').within hrange fun x hx _ => hsub x hx⟩

def swinging : List Char :=
  "var a = 1; var b = 0 / 0; var c = 1000 \x7b color: \"hidden\" \x7d; at */*/*, a *= -2".toList

theorem range_isTight_swinging :
    ∃ p g, ofText ⟨leapDay, none, some 3⟩ swinging = .ok p ∧ p.graph = .ok g ∧
      g.series = [[-2.0, 4.0, -8.0], [nan, nan, nan]] ∧ 1 ≤ p.settings.days ∧
      g.range.IsOf [-2.0, 4.0, -8.0, nan, nan, nan] ∧
      (∃ g', Plan.graph { p with settings.tracked := p.settings.tracked.reverse } = .ok g' ∧
        g'.range.Same g.range) ∧
      ∃ g', Plan.graph { p with settings.days := 1 } = .ok g' ∧ g'.range.Within g.range := by
  have hplan : (ofText ⟨leapDay, none, some 3⟩ swinging).map
      (fun p => (p.settings.days, p.graph.map Graph.series)) =
        .ok (3, .ok [[-2.0, 4.0, -8.0], [nan, nan, nan]]) := by
    decide +kernel
  obtain ⟨p, hp, heq⟩ := Result.map_eq_ok_iff.mp hplan
  obtain ⟨hthree, hgraph⟩ := Prod.mk.inj heq
  obtain ⟨g, hg, hseries⟩ := map_eq_ok_iff.mp hgraph
  have hdays : 1 ≤ p.settings.days := by rw [hthree]; decide
  obtain ⟨-, hrange, -, horder, hshorter⟩ := range_isTight hg
  rw [hseries] at hrange
  exact ⟨p, g, hp, hg, hseries, hdays, hrange, horder _ (List.reverse_perm _), hshorter 1 hdays⟩

end Plan

end Forecast
