import Mathlib.Data.List.Induction
import Forecast.Proofs.Evaluation
import Forecast.Proofs.Plan.Refinement
import Forecast.Proofs.Script.WellFormed

namespace Forecast

open Checked

theorem nodup_filterMap_iff {α β : Type} (f : α → Option β) (l : List α) :
    (l.filterMap f).Nodup ↔
      ∀ before a after, l = before ++ a :: after → ∀ b, f a = some b → b ∉ before.filterMap f := by
  constructor
  · rintro h before a after rfl b hb hmem
    rw [List.filterMap_append, List.filterMap_cons_some hb, List.nodup_append] at h
    exact h.2.2 b hmem b List.mem_cons_self rfl
  · intro h
    induction l using List.reverseRecOn with
    | nil => exact List.nodup_nil
    | append_singleton l a ih =>
        have hl : (l.filterMap f).Nodup := ih fun before c after hc => by
          refine h before c (after ++ [a]) ?_
          rw [hc, List.append_assoc, List.cons_append]
        rw [List.filterMap_append]
        cases ha : f a with
        | none => simpa [ha] using hl
        | some b =>
            have hb := h l a [] rfl b ha
            simp only [List.filterMap_cons_some ha, List.filterMap_nil]
            exact List.nodup_append.mpr ⟨hl, List.nodup_singleton b, by
              rintro c hc d hd rfl
              exact hb (List.mem_singleton.mp hd ▸ hc)⟩

theorem Plan.Draft.mem_faults_addAll_iff (table : List (String × DatePattern)) (d : Draft)
    (ds : List Declaration) (f : Fault) :
    f ∈ (d.addAll table ds).faults ↔ ∃ before declaration after, ds = before ++ declaration :: after ∧
      f ∈ ((d.addAll table before).value.add table declaration).faults := by
  induction ds generalizing d with
  | nil => simp [addAll]
  | cons first rest ih =>
      rw [addAll, faults_bind, List.mem_append, ih]
      constructor
      · rintro (hf | ⟨before, declaration, after, rfl, hf⟩)
        · exact ⟨[], first, rest, rfl, hf⟩
        · exact ⟨first :: before, declaration, after, rfl, hf⟩
      · rintro ⟨before, declaration, after, hsplit, hf⟩
        cases before with
        | nil =>
            obtain ⟨rfl, rfl⟩ := List.cons.inj hsplit
            exact .inl hf
        | cons b before =>
            obtain ⟨rfl, rfl⟩ := List.cons.inj hsplit
            exact .inr ⟨before, declaration, after, rfl, hf⟩

theorem Plan.Draft.faults_addAll_eq_nil_iff (table : List (String × DatePattern)) (d : Draft)
    (ds : List Declaration) :
    (d.addAll table ds).faults = [] ↔ ∀ before declaration after, ds = before ++ declaration :: after →
      ((d.addAll table before).value.add table declaration).faults = [] := by
  simp only [List.eq_nil_iff_forall_not_mem, mem_faults_addAll_iff]
  constructor
  · intro h before declaration after hsplit f hf
    exact h f ⟨before, declaration, after, hsplit, hf⟩
  · rintro h f ⟨before, declaration, after, hsplit, hf⟩
    exact h before declaration after hsplit f hf

def When.Fits (dates : List String) : When → Prop
  | .pattern p => p.InRange
  | .named x => x.name ∈ dates

/-- What a declaration asks of those before it and of the names of all dates. -/
def Declaration.Fits (before : List Declaration) (dates : List String) : Declaration → Prop
  | .var x e ps => x.name ∉ varNames before ∧ (∀ y ∈ e.names, y.name ∈ varNames before) ∧
    ∀ p ∈ ps.getD [], p.key.name = "label" ∨ p.key.name = "color" → p.value.IsString
  | .date x p => p.InRange ∧ x.name ∉ dateNames before
  | .rule when a => when.Fits dates ∧ ∀ y ∈ a.names, y.name ∈ varNames before

namespace Plan.Draft

theorem mem_foldl_learn_iff (y : String) (known : List String) (ds : List Declaration) :
    y ∈ ds.foldl Declaration.learn known ↔ y ∈ known ∨ y ∈ varNames ds := by
  induction ds generalizing known with
  | nil => simp [varNames]
  | cons d rest ih =>
      rw [List.foldl_cons, ih]
      cases d with
      | var x e ps =>
          have hlearn : y ∈ Declaration.learn known (.var x e ps) ↔ y ∈ known ∨ y = x.name := by
            rw [Declaration.learn]
            split_ifs with hx
            · exact ⟨.inl, fun h => h.elim id fun hy => hy ▸ hx⟩
            · rw [List.mem_append, List.mem_singleton]
          have hcons : varNames (.var x e ps :: rest) = x.name :: varNames rest := rfl
          rw [hlearn, hcons, List.mem_cons, or_assoc]
      | date x p => rfl
      | rule when a => rfl

theorem mem_names_addAll_iff (table : List (String × DatePattern)) (y : String)
    (ds : List Declaration) : y ∈ (empty.addAll table ds).value.names ↔ y ∈ varNames ds := by
  rw [names_addAll, mem_foldl_learn_iff]
  simp [empty]

theorem isSome_lookup_iff (l : List (String × DatePattern)) (y : String) :
    (l.lookup y).isSome ↔ y ∈ l.map Prod.fst := by
  simp [List.lookup_isSome_iff]

theorem map_fst_dateTable (ds : List Declaration) : (dateTable ds).map Prod.fst = dateNames ds := by
  rw [dateTable, dateNames, List.map_filterMap]
  congr 1
  funext d
  cases d <;> rfl

theorem mem_dates_add_iff (table : List (String × DatePattern)) (d : Draft)
    (declaration : Declaration) (y : String) :
    y ∈ (d.add table declaration).value.dates.map Prod.fst ↔
      y ∈ d.dates.map Prod.fst ∨ y ∈ dateNames [declaration] := by
  cases declaration with
  | var x e ps =>
      rw [add, value_addVar]
      split_ifs <;> simp [dateNames, dateName?]
  | date x p =>
      have hnames : dateNames [.date x p] = [x.name] := rfl
      rw [add, value_addDate, hnames, List.mem_singleton]
      split_ifs with hx
      · exact ⟨.inl, fun h => h.elim id fun hy => hy ▸ (isSome_lookup_iff _ _).mp hx⟩
      · rw [List.map_append, List.mem_append, List.map_singleton, List.mem_singleton]
  | rule when a =>
      rw [add, value_addRule]
      simp [dateNames, dateName?]

theorem mem_dates_addAll_iff (table : List (String × DatePattern)) (d : Draft) (y : String)
    (ds : List Declaration) :
    y ∈ (d.addAll table ds).value.dates.map Prod.fst ↔
      y ∈ d.dates.map Prod.fst ∨ y ∈ dateNames ds := by
  induction ds generalizing d with
  | nil => simp [addAll, dateNames]
  | cons first rest ih =>
      have hcons : dateNames (first :: rest) = dateNames [first] ++ dateNames rest :=
        List.filterMap_append (l := [first])
      rw [addAll, value_bind, ih, mem_dates_add_iff, hcons, List.mem_append, or_assoc]

theorem faults_addVar_eq_nil_iff (d : Draft) (x : Ident) (e : NumberExpr)
    (ps : Option (List Property)) :
    (d.addVar x e ps).faults = [] ↔ x.name ∉ d.names ∧ (∀ y ∈ e.names, y.name ∈ d.names) ∧
      ∀ p ∈ ps.getD [], p.key.name = "label" ∨ p.key.name = "color" → p.value.IsString := by
  rw [← unknownNames_eq_nil_iff, ← faults_resolve_number,
    ← Tracked.faults_applyAll_eq_nil_iff ⟨x.name, x.name, none⟩]
  unfold addVar Tracked.ofProperties
  by_cases hx : x.name ∈ d.names <;> simp [hx]

theorem faults_addDate_eq_nil_iff (d : Draft) (x : Ident) (p : PatternLiteral) :
    (d.addDate x p).faults = [] ↔ p.InRange ∧ x.name ∉ d.dates.map Prod.fst := by
  rw [← p.faults_resolve_eq_nil_iff, ← isSome_lookup_iff]
  rw [addDate]
  by_cases hx : (d.dates.lookup x.name).isSome <;> simp [hx]

theorem faults_resolveWhen_eq_nil_iff (table : List (String × DatePattern)) (when : When) :
    (resolveWhen table when).faults = [] ↔ when.Fits (table.map Prod.fst) := by
  cases when with
  | pattern p => simp [resolveWhen, When.Fits, p.faults_resolve_eq_nil_iff]
  | named x =>
      rw [When.Fits, ← isSome_lookup_iff, resolveWhen]
      cases table.lookup x.name <;> simp

theorem faults_addRule_eq_nil_iff (table : List (String × DatePattern)) (d : Draft) (when : When)
    (a : Action) :
    (d.addRule table when a).faults = [] ↔
      when.Fits (table.map Prod.fst) ∧ ∀ y ∈ a.names, y.name ∈ d.names := by
  rw [← unknownNames_eq_nil_iff, ← faults_resolve_action, ← faults_resolveWhen_eq_nil_iff]
  simp [addRule]

theorem faults_add_eq_nil_iff (ds before : List Declaration) (declaration : Declaration) :
    ((empty.addAll (dateTable ds) before).value.add (dateTable ds) declaration).faults = [] ↔
      declaration.Fits before (dateNames ds) := by
  cases declaration with
  | var x e ps =>
      simp only [add, faults_addVar_eq_nil_iff, mem_names_addAll_iff, Declaration.Fits]
  | date x p =>
      rw [add, faults_addDate_eq_nil_iff, mem_dates_addAll_iff, Declaration.Fits]
      simp [empty]
  | rule when a =>
      simp only [add, faults_addRule_eq_nil_iff, mem_names_addAll_iff, map_fst_dateTable,
        Declaration.Fits]

end Plan.Draft

theorem wellDeclared_iff (ds : List Declaration) :
    WellDeclared ds ↔ ∀ before declaration after, ds = before ++ declaration :: after →
      declaration.Fits before (dateNames ds) := by
  constructor
  · intro h before declaration after hsplit
    have hmem : declaration ∈ ds := hsplit ▸ List.mem_append_right _ List.mem_cons_self
    cases declaration with
    | var x e ps =>
        refine ⟨?_, h.initial_known before x e ps after hsplit, ?_⟩
        · exact (nodup_filterMap_iff varName? ds).mp h.nodup_vars before _ after hsplit x.name rfl
        · cases ps with
          | none => simp
          | some ps => exact h.strings x e ps hmem
    | date x p =>
        refine ⟨h.date_inRange x p hmem, ?_⟩
        exact (nodup_filterMap_iff dateName? ds).mp h.nodup_dates before _ after hsplit x.name rfl
    | rule when a =>
        refine ⟨?_, h.action_known before when a after hsplit⟩
        cases when with
        | pattern p => exact h.pattern_inRange p a hmem
        | named x => exact h.when_known x a hmem
  · intro h
    -- What is asked of a declaration by itself does not depend on its place.
    have hmem : ∀ declaration ∈ ds, ∃ before, declaration.Fits before (dateNames ds) := by
      intro declaration hmem
      obtain ⟨before, after, hsplit⟩ := List.append_of_mem hmem
      exact ⟨before, h before declaration after hsplit⟩
    constructor
    · refine (nodup_filterMap_iff varName? ds).mpr fun before declaration after hsplit n hn => ?_
      cases declaration with
      | var x e ps =>
          obtain rfl := Option.some.inj hn
          exact (h before _ after hsplit).1
      | date x p => cases hn
      | rule when a => cases hn
    · refine (nodup_filterMap_iff dateName? ds).mpr fun before declaration after hsplit n hn => ?_
      cases declaration with
      | var x e ps => cases hn
      | date x p =>
          obtain rfl := Option.some.inj hn
          exact (h before _ after hsplit).2
      | rule when a => cases hn
    · exact fun before x e ps after hsplit => (h before _ after hsplit).2.1
    · exact fun before when a after hsplit => (h before _ after hsplit).2
    · intro x a hrule
      obtain ⟨before, hfits⟩ := hmem _ hrule
      exact hfits.1
    · intro x p hdate
      obtain ⟨before, hfits⟩ := hmem _ hdate
      exact hfits.1
    · intro p a hrule
      obtain ⟨before, hfits⟩ := hmem _ hrule
      exact hfits.1
    · intro x e ps hvar
      obtain ⟨before, hfits⟩ := hmem _ hvar
      exact hfits.2.2

theorem Plan.Draft.faults_addAll_empty_eq_nil_iff (ds : List Declaration) :
    (empty.addAll (dateTable ds) ds).faults = [] ↔ WellDeclared ds := by
  rw [faults_addAll_eq_nil_iff, wellDeclared_iff]
  simp only [faults_add_eq_nil_iff]

theorem Settings.checkHorizon_ok_iff (start : Date) (days : Nat) :
    (∃ u, checkHorizon start days = .ok u) ↔ ∀ i < days, ∃ d, start.addDays? i = some d := by
  have hunit : (∃ u, checkHorizon start days = .ok u) ↔ checkHorizon start days = .ok () :=
    ⟨fun ⟨_, hu⟩ => hu, fun h => ⟨(), h⟩⟩
  rw [hunit, checkHorizon_eq_ok_iff]
  constructor
  · intro h i hi
    obtain ⟨dates, hdates⟩ := datesFrom_ok h
    have hi' : i < dates.length := by rwa [length_of_datesFrom hdates]
    exact ⟨dates[i], addDays?_of_datesFrom hdates i hi'⟩
  · intro h
    rcases Nat.eq_zero_or_pos days with rfl | hpos
    · simpa using start.number_le_lastNumber
    · obtain ⟨d, hd⟩ := h (days - 1) (by omega)
      have hnumber := Date.addDays?_eq_some_iff.mp hd
      have hle := d.number_le_lastNumber
      omega

theorem Property.isSome_start?_iff {today : Date} {p : Property} (h : p.Admissible today) :
    (p.start? today).isSome ↔ p.key.name = "startDate" := by
  rw [start?]
  split_ifs with hkey
  · rw [Admissible, hkey] at h
    exact ⟨fun _ => hkey, fun _ => h⟩
  · simp [hkey]

theorem Property.isSome_days?_iff {today : Date} {p : Property} (h : p.Admissible today) :
    p.days?.isSome ↔ p.key.name = "duration" := by
  rw [days?]
  split_ifs with hkey
  · rw [Admissible, hkey] at h
    exact ⟨fun _ => hkey, fun _ => h⟩
  · simp [hkey]

theorem isSome_getLast?_filterMap_iff {α β : Type} (f : α → Option β) (l : List α) :
    (l.filterMap f).getLast?.isSome ↔ ∃ a ∈ l, (f a).isSome := by
  induction l with
  | nil => simp
  | cons a rest ih =>
      rw [getLast?_filterMap_cons, Option.isSome_or, Bool.or_eq_true, ih]
      simp [or_comm]

theorem setsSpan_iff {today : Date} {ps : List Property} (h : ∀ p ∈ ps, p.Admissible today) :
    (startOf? today ps).isSome ∨ (daysOf? ps).isSome ↔
      ∃ p ∈ ps, p.key.name = "startDate" ∨ p.key.name = "duration" := by
  rw [startOf?, daysOf?, isSome_getLast?_filterMap_iff, isSome_getLast?_filterMap_iff]
  constructor
  · rintro (⟨p, hp, hsome⟩ | ⟨p, hp, hsome⟩)
    · exact ⟨p, hp, .inl ((Property.isSome_start?_iff (h p hp)).mp hsome)⟩
    · exact ⟨p, hp, .inr ((Property.isSome_days?_iff (h p hp)).mp hsome)⟩
  · rintro ⟨p, hp, hkey | hkey⟩
    · exact .inl ⟨p, hp, (Property.isSome_start?_iff (h p hp)).mpr hkey⟩
    · exact .inr ⟨p, hp, (Property.isSome_days?_iff (h p hp)).mpr hkey⟩

namespace Plan

theorem faults_ofScript_eq_nil_iff (today : Date) (s : Script) :
    (ofScript today s).faults = [] ↔ WellDeclared s.declarations ∧
      (∀ p ∈ s.options.getD [], p.Admissible today) ∧
        ((∃ p ∈ s.options.getD [], p.key.name = "startDate" ∨ p.key.name = "duration") →
          ∀ i < s.ownDays, ∃ d, (s.ownStart today).addDays? i = some d) := by
  rw [ofScript, faults_bind, List.append_eq_nil_iff, Draft.faults_addAll_empty_eq_nil_iff,
    faults_bind, List.append_eq_nil_iff, Settings.faults_ofProperties_eq_nil_iff,
    Settings.checkHorizon_ok_iff]
  simp only [faults_pure, and_true]
  refine and_congr_right fun _ => and_congr_right fun hoptions => ?_
  rw [setsSpan_iff hoptions]
  rfl

theorem span_ofScript {today : Date} {s : Script} (h : (ofScript today s).faults = []) :
    (ofScript today s).value.settings.start = s.ownStart today ∧
      (ofScript today s).value.settings.days = s.ownDays := by
  rw [ofScript, faults_bind, List.append_eq_nil_iff, faults_bind, List.append_eq_nil_iff] at h
  exact Settings.span_ofProperties h.2.1

theorem checkSpan_override_eq_ok_iff {r : Request} {s : Script}
    (h : (ofScript r.today s).faults = []) :
    ((ofScript r.today s).value.override r).checkSpan = .ok () ↔
      r.days.getD s.ownDays ≤ 36600 ∧
        ∀ i < r.days.getD s.ownDays,
          ∃ d, (r.start.getD (s.ownStart r.today)).addDays? i = some d := by
  obtain ⟨hstart, hdays⟩ := span_ofScript h
  rw [checkSpan_eq_ok_iff, ← Settings.checkHorizon_eq_ok_iff, ← Settings.checkHorizon_ok_iff]
  simp only [override, hstart, hdays, Duration.maxDays]
  exact and_congr_right fun _ => ⟨fun hok => ⟨(), hok⟩, fun ⟨_, hok⟩ => hok⟩

/-- A text whose parts and tokens are in order has a plan just when its script is well-formed. If it
is not, something is reported, unless a start date breaks the program off; then nothing is. -/
theorem ofText_iff_wellFormed (r : Request) {source : List Char} {s : Script}
    (h : Script.ofText source = ⟨s, []⟩) :
    ((∃ p, ofText r source = .ok p) ↔ s.WellFormed r) ∧
      (¬ s.WellFormed r → s.abort? r.today = none →
        ∃ ds, ds ≠ [] ∧ ofText r source = .error ds) ∧
      ∀ why, ofText r source = .aborted why ↔ s.abort? r.today = some why := by
  obtain ⟨hscript, rfl⟩ : (Script.ofText source).faults = [] ∧ (Script.ofText source).value = s := by
    rw [h]
    exact ⟨rfl, rfl⟩
  have hiff : (∃ p, ofText r source = .ok p) ↔ (Script.ofText source).value.WellFormed r := by
    constructor
    · rintro ⟨p, hp⟩
      obtain ⟨-, hfaults, rfl, hspan⟩ := ofText_eq_ok_iff.mp hp
      obtain ⟨hdeclared, hoptions, hown⟩ := (faults_ofScript_eq_nil_iff _ _).mp hfaults
      obtain ⟨hdays, hday⟩ := (checkSpan_override_eq_ok_iff hfaults).mp hspan
      exact ⟨hdeclared, hoptions, hown, hdays, hday⟩
    · intro hwf
      have hfaults := (faults_ofScript_eq_nil_iff r.today (Script.ofText source).value).mpr
        ⟨hwf.toWellDeclared, hwf.options, hwf.own_span⟩
      have hspan := (checkSpan_override_eq_ok_iff hfaults).mpr ⟨hwf.days_le, hwf.exists_day⟩
      exact ⟨_, ofText_eq_ok_iff.mpr ⟨hscript, hfaults, rfl, hspan⟩⟩
  have haborted : ∀ why, ofText r source = .aborted why ↔
      (Script.ofText source).value.abort? r.today = some why := by
    intro why
    rw [ofText_eq_aborted_iff, abort?, if_pos hscript]
  refine ⟨hiff, fun hnot hnone => ?_, haborted⟩
  cases hplan : ofText r source with
  | ok p => exact absurd (hiff.mp ⟨p, hplan⟩) hnot
  | error ds => exact ⟨ds, ne_nil_of_ofText_eq_error hplan, rfl⟩
  | aborted why =>
      rw [(haborted why).mp hplan] at hnone
      cases hnone

def twoDays : List Char :=
  "var a = 1; at end, a += 2; date end = */*/-1; options \x7b duration: \"2d\" \x7d".toList

theorem ofText_iff_wellFormed_twoDays :
    Script.ofText twoDays = ⟨(Script.ofText twoDays).value, []⟩ ∧
      (Script.ofText twoDays).value.WellFormed ⟨leapDay, none, none⟩ := by
  have hscript : Script.ofText twoDays = ⟨(Script.ofText twoDays).value, []⟩ := by
    have hfaults : (Script.ofText twoDays).faults = [] := by decide +kernel
    rw [← hfaults]
  have hplan : ((ofText ⟨leapDay, none, none⟩ twoDays).toOption.isSome) = true := by
    decide +kernel
  exact ⟨hscript, (ofText_iff_wellFormed ⟨leapDay, none, none⟩ hscript).1.mp
    (Result.exists_ok_of_isSome hplan)⟩

def letterBehindPoint : List Char := "options \x7b startDate: \"8:30:20.p\" \x7d".toList

/-- Nothing is wrong with any token, and still there is neither a plan nor a diagnostic. -/
theorem ofText_ne_letterBehindPoint :
    (Script.ofText letterBehindPoint).faults = [] ∧
      ¬ ((∃ p, ofText ⟨leapDay, none, none⟩ letterBehindPoint = .ok p) ∨
        ∃ ds, ds ≠ [] ∧ ofText ⟨leapDay, none, none⟩ letterBehindPoint = .error ds) := by
  have haborted : ofText ⟨leapDay, none, none⟩ letterBehindPoint = .aborted .malformedFraction :=
    ofText_eq_aborted_iff.mpr (by decide +kernel)
  refine ⟨by decide +kernel, ?_⟩
  rw [haborted]
  rintro (⟨p, ⟨⟩⟩ | ⟨ds, -, ⟨⟩⟩)

end Plan

end Forecast
