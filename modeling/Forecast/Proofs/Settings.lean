import Mathlib.Tactic.SplitIfs
import Forecast.Proofs.Days
import Forecast.Settings.OfProperties

namespace Forecast

open Checked

def PropertyValue.IsString (v : PropertyValue) : Prop := ∃ text span, v = .string text span

def PropertyValue.word? : PropertyValue → Option String
  | .string text _ => some text
  | .name x => some x.name
  | .number _ _ _ => none

def PropertyValue.number? : PropertyValue → Option Float
  | .number negative magnitude _ =>
    some (if negative then -magnitude.toFloat else magnitude.toFloat)
  | _ => none

def PropertyValue.date? (today : Date) : PropertyValue → Option Date
  | .string text _ => (StartDate.ofText today text.toList).toOption
  | _ => none

def PropertyValue.days? : PropertyValue → Option Nat
  | .string text _ => (Duration.ofText text.toList).toOption
  | _ => none

def Property.Admissible (today : Date) (p : Property) : Prop :=
  match p.key.name with
  | "startDate" => (p.value.date? today).isSome
  | "duration" => p.value.days?.isSome
  | "height" | "strokeWidth" => ∃ x, p.value.number? = some x ∧ 0.0 < x ∧ x.isFinite
  | "chartType" => p.value.word? = some "line" ∨ p.value.word? = some "area"
  | "legend" => p.value.word? = some "none" ∨ p.value.word? = some "line"
  | "label" | "color" => p.value.IsString
  | _ => True

def Property.start? (today : Date) (p : Property) : Option Date :=
  if p.key.name = "startDate" then p.value.date? today else none

def Property.days? (p : Property) : Option Nat :=
  if p.key.name = "duration" then p.value.days? else none

def startOf? (today : Date) (ps : List Property) : Option Date :=
  (ps.filterMap (·.start? today)).getLast?

def daysOf? (ps : List Property) : Option Nat := (ps.filterMap Property.days?).getLast?

theorem getLast?_filterMap_cons {α β : Type} (f : α → Option β) (a : α) (l : List α) :
    ((a :: l).filterMap f).getLast? = (l.filterMap f).getLast?.or (f a) := by
  cases h : f a with
  | none => rw [List.filterMap_cons_none h, Option.or_none]
  | some b =>
      rw [List.filterMap_cons_some h, List.getLast?_cons]
      cases (l.filterMap f).getLast? <;> rfl

theorem startOf?_cons (today : Date) (p : Property) (ps : List Property) :
    startOf? today (p :: ps) = (startOf? today ps).or (p.start? today) :=
  getLast?_filterMap_cons _ p ps

theorem daysOf?_cons (p : Property) (ps : List Property) :
    daysOf? (p :: ps) = (daysOf? ps).or p.days? :=
  getLast?_filterMap_cons _ p ps

theorem PropertyValue.expectString_eq_ok_iff {key text : String} {v : PropertyValue} :
    v.expectString key = .ok text ↔ ∃ span, v = .string text span := by
  cases v <;> simp [PropertyValue.expectString]

theorem PropertyValue.expectWord_eq_ok_iff {key word : String} {v : PropertyValue} :
    v.expectWord key = .ok word ↔ v.word? = some word := by
  cases v <;> simp [PropertyValue.expectWord, PropertyValue.word?]

theorem PropertyValue.expectPositive_eq_ok_iff {key : String} {x : Float} {v : PropertyValue} :
    v.expectPositive key = .ok x ↔ v.number? = some x ∧ 0.0 < x ∧ x.isFinite := by
  cases v with
  | string text span => simp [PropertyValue.expectPositive, PropertyValue.number?]
  | name x => simp [PropertyValue.expectPositive, PropertyValue.number?]
  | number negative magnitude span =>
      simp only [PropertyValue.expectPositive, PropertyValue.number?, Option.some.injEq]
      generalize (if negative then -magnitude.toFloat else magnitude.toFloat) = y
      split_ifs with hy
      · constructor
        · intro h
          obtain rfl := Except.ok.inj h
          exact ⟨rfl, hy⟩
        · rintro ⟨rfl, -⟩
          rfl
      · simp only [false_iff, not_and]
        rintro rfl hpos hfin
        exact hy ⟨hpos, hfin⟩

theorem ChartType.exists_ofWord_iff {word : String} :
    (∃ t, ChartType.ofWord word = .ok t) ↔ word = "line" ∨ word = "area" := by
  unfold ChartType.ofWord
  split <;> simp_all

theorem Legend.exists_ofWord_iff {word : String} :
    (∃ l, Legend.ofWord word = .ok l) ↔ word = "none" ∨ word = "line" := by
  unfold Legend.ofWord
  split <;> simp_all

theorem bind_eq_ok_iff {ε α β : Type} {x : Except ε α} {f : α → Except ε β} {b : β} :
    (x >>= f) = .ok b ↔ ∃ a, x = .ok a ∧ f a = .ok b := by
  cases x with
  | error e => simp [bind, Except.bind]
  | ok a => simp [bind, Except.bind]

theorem exists_bind_eq_ok_iff {ε α β : Type} {x : Except ε α} {f : α → Except ε β} :
    (∃ b, (x >>= f) = .ok b) ↔ ∃ a, x = .ok a ∧ ∃ b, f a = .ok b := by
  simp only [bind_eq_ok_iff]
  rw [exists_comm]
  simp only [exists_and_left]

theorem exists_pure_eq_ok_iff {ε β : Type} {b : β} :
    (∃ b', (pure b : Except ε β) = .ok b') ↔ True := by
  simp [pure, Except.pure]

namespace Settings

theorem duration_eq_ok_iff {text : String} {days : Nat} :
    duration text = .ok days ↔ Duration.ofText text.toList = .ok days := by
  rw [duration]
  split <;> simp_all

theorem startDate_eq_ok_iff {today d : Date} {text : String} :
    startDate today text = .ok d ↔ StartDate.ofText today text.toList = .ok d := by
  rw [startDate]
  cases StartDate.ofText today text.toList <;> simp

theorem date?_eq_some_iff (key : String) {today d : Date} {v : PropertyValue} :
    v.date? today = some d ↔ ∃ text, v.expectString key = .ok text ∧ startDate today text = .ok d := by
  cases v with
  | string text span =>
      simp only [PropertyValue.expectString, PropertyValue.date?, Except.ok.injEq, exists_eq_left',
        startDate_eq_ok_iff]
      cases StartDate.ofText today text.toList <;> simp [Result.toOption]
  | number negative magnitude span => simp [PropertyValue.expectString, PropertyValue.date?]
  | name x => simp [PropertyValue.expectString, PropertyValue.date?]

theorem days?_eq_some_iff (key : String) {days : Nat} {v : PropertyValue} :
    v.days? = some days ↔ ∃ text, v.expectString key = .ok text ∧ duration text = .ok days := by
  cases v with
  | string text span =>
      simp only [PropertyValue.expectString, PropertyValue.days?, Except.ok.injEq, exists_eq_left',
        duration_eq_ok_iff]
      cases Duration.ofText text.toList <;> simp [Except.toOption]
  | number negative magnitude span => simp [PropertyValue.expectString, PropertyValue.days?]
  | name x => simp [PropertyValue.expectString, PropertyValue.days?]

namespace Draft

/-- What setting the start or the number of days, or neither, makes of a draft. -/
structure Takes (start? : Option Date) (days? : Option Nat) (d e : Draft) : Prop where
  start : e.settings.start = start?.getD d.settings.start
  days : e.settings.days = days?.getD d.settings.days
  startSpan : e.startSpan.isSome = (start?.isSome || d.startSpan.isSome)
  daysSpan : e.daysSpan.isSome = (days?.isSome || d.daysSpan.isSome)

theorem Takes.refl (d : Draft) : Takes none none d d := by
  constructor <;> simp

theorem Takes.trans {s₁ s₂ : Option Date} {n₁ n₂ : Option Nat} {d e f : Draft}
    (h₁ : Takes s₁ n₁ d e) (h₂ : Takes s₂ n₂ e f) : Takes (s₂.or s₁) (n₂.or n₁) d f := by
  constructor
  · rw [h₂.start, h₁.start]
    cases s₂ <;> rfl
  · rw [h₂.days, h₁.days]
    cases n₂ <;> rfl
  · rw [h₂.startSpan, h₁.startSpan, Option.isSome_or, Bool.or_assoc]
  · rw [h₂.daysSpan, h₁.daysSpan, Option.isSome_or, Bool.or_assoc]

theorem exists_apply_iff (today : Date) (d : Draft) (p : Property) :
    (∃ e, d.apply today p = .ok e) ↔ p.Admissible today := by
  unfold apply Property.Admissible
  dsimp only
  generalize p.key.name = key
  split
  case h_1 =>
      simp only [exists_bind_eq_ok_iff, exists_pure_eq_ok_iff, and_true, Option.isSome_iff_exists,
        date?_eq_some_iff "startDate"]
      constructor
      · rintro ⟨text, htext, start, hstart⟩
        exact ⟨start, text, htext, hstart⟩
      · rintro ⟨start, text, htext, hstart⟩
        exact ⟨text, htext, start, hstart⟩
  case h_2 =>
      simp only [exists_bind_eq_ok_iff, exists_pure_eq_ok_iff, and_true, Option.isSome_iff_exists,
        days?_eq_some_iff "duration"]
      constructor
      · rintro ⟨text, htext, days, hdays⟩
        exact ⟨days, text, htext, hdays⟩
      · rintro ⟨days, text, htext, hdays⟩
        exact ⟨text, htext, days, hdays⟩
  case h_3 | h_4 =>
      simp only [exists_bind_eq_ok_iff, exists_pure_eq_ok_iff, and_true,
        PropertyValue.expectPositive_eq_ok_iff]
  case h_5 =>
      simp only [exists_bind_eq_ok_iff, exists_pure_eq_ok_iff, and_true,
        PropertyValue.expectWord_eq_ok_iff, ChartType.exists_ofWord_iff]
      simp [and_or_left, exists_or]
  case h_6 =>
      simp only [exists_bind_eq_ok_iff, exists_pure_eq_ok_iff, and_true,
        PropertyValue.expectWord_eq_ok_iff, Legend.exists_ofWord_iff]
      simp [and_or_left, exists_or]
  case h_7 | h_8 =>
      simp only [map_eq_ok_iff, PropertyValue.expectString_eq_ok_iff]
      simp [PropertyValue.IsString]
  case h_9 => simp_all

/-- What an entry does to a draft: it sets the start, or the number of days, or nothing of the
span of days; which variables are tracked is never its matter. -/
inductive Applied (today : Date) (p : Property) (d : Draft) : Draft → Prop
  | start {start : Date} (hstart : p.start? today = some start) (hdays : p.days? = none) :
      Applied today p d { d with settings.start := start, startSpan := some p.value.span }
  | days {days : Nat} (hstart : p.start? today = none) (hdays : p.days? = some days) :
      Applied today p d { d with settings.days := days, daysSpan := some p.value.span }
  | other {settings : Settings} (hstart : p.start? today = none) (hdays : p.days? = none)
      (hs : settings.start = d.settings.start) (hd : settings.days = d.settings.days)
      (ht : settings.tracked = d.settings.tracked) : Applied today p d { d with settings }

theorem Applied.of_key {today : Date} {p : Property} {d : Draft} {settings : Settings}
    (hstart : p.key.name ≠ "startDate") (hdays : p.key.name ≠ "duration")
    (hs : settings.start = d.settings.start) (hd : settings.days = d.settings.days)
    (ht : settings.tracked = d.settings.tracked) : Applied today p d { d with settings } :=
  .other (if_neg hstart) (if_neg hdays) hs hd ht

theorem applied_of_apply {today : Date} {d e : Draft} {p : Property}
    (h : d.apply today p = .ok e) : Applied today p d e := by
  rw [apply] at h
  split at h
  case h_1 key hkey =>
      obtain ⟨text, htext, start, hstart, rfl⟩ := by
        simpa only [bind_eq_ok_iff, pure, Except.pure, Except.ok.injEq] using h
      refine .start ((if_pos hkey).trans ((date?_eq_some_iff _).mpr ⟨text, htext, hstart⟩)) ?_
      exact if_neg (by simp [hkey])
  case h_2 key hkey =>
      obtain ⟨text, htext, days, hdays, rfl⟩ := by
        simpa only [bind_eq_ok_iff, pure, Except.pure, Except.ok.injEq] using h
      refine .days (if_neg (by simp [hkey])) ?_
      exact (if_pos hkey).trans ((days?_eq_some_iff _).mpr ⟨text, htext, hdays⟩)
  case h_3 key hkey | h_4 key hkey =>
      obtain ⟨x, -, rfl⟩ := by
        simpa only [bind_eq_ok_iff, pure, Except.pure, Except.ok.injEq] using h
      exact .of_key (by simp [hkey]) (by simp [hkey]) rfl rfl rfl
  case h_5 key hkey | h_6 key hkey =>
      obtain ⟨word, -, x, -, rfl⟩ := by
        simpa only [bind_eq_ok_iff, pure, Except.pure, Except.ok.injEq] using h
      exact .of_key (by simp [hkey]) (by simp [hkey]) rfl rfl rfl
  case h_7 key hkey | h_8 key hkey =>
      obtain ⟨text, -, rfl⟩ := map_eq_ok_iff.mp h
      exact .of_key (by simp [hkey]) (by simp [hkey]) rfl rfl rfl
  case h_9 =>
      obtain rfl := Except.ok.inj h
      exact .of_key (by assumption) (by assumption) rfl rfl rfl

theorem takes_of_apply {today : Date} {d e : Draft} {p : Property}
    (h : d.apply today p = .ok e) : Takes (p.start? today) p.days? d e := by
  cases applied_of_apply h with
  | start hstart hdays => constructor <;> simp [hstart, hdays]
  | days hstart hdays => constructor <;> simp [hstart, hdays]
  | other hstart hdays hs hd ht => constructor <;> simp [hstart, hdays, hs, hd]

theorem faults_applyAll_eq_nil_iff (today : Date) (d : Draft) (ps : List Property) :
    (d.applyAll today ps).faults = [] ↔ ∀ p ∈ ps, p.Admissible today := by
  induction ps generalizing d with
  | nil => simp [applyAll]
  | cons p rest ih =>
      rw [List.forall_mem_cons, ← exists_apply_iff today d p]
      cases h : d.apply today p with
      | ok e => simp [applyAll, h, ih]
      | error e => simp [applyAll, h]

theorem takes_applyAll {today : Date} {ps : List Property} (d : Draft)
    (h : ∀ p ∈ ps, p.Admissible today) :
    Takes (startOf? today ps) (daysOf? ps) d (d.applyAll today ps).value := by
  induction ps generalizing d with
  | nil => exact .refl d
  | cons p rest ih =>
      obtain ⟨hp, hrest⟩ := List.forall_mem_cons.mp h
      obtain ⟨e, he⟩ := (exists_apply_iff today d p).mpr hp
      rw [applyAll, he, startOf?_cons, daysOf?_cons]
      exact (takes_of_apply he).trans (ih e hrest)

theorem faults_finish_eq_nil_iff (today : Date) (d : Draft) :
    (d.finish today).faults = [] ↔
      (d.startSpan.isSome ∨ d.daysSpan.isSome → ∃ u, checkHorizon d.settings.start d.settings.days = .ok u) := by
  rw [finish]
  split <;> simp_all

theorem value_finish {today : Date} {d : Draft} (h : (d.finish today).faults = []) :
    (d.finish today).value = d.settings := by
  unfold finish at h ⊢
  split <;> simp_all

end Draft

/-- The settings of a script are made without a fault just when its entries are all admissible and
its own span of days, if it sets any of it, stays in the calendar. -/
theorem faults_ofProperties_eq_nil_iff (today : Date) (tracked : List Tracked)
    (ps : Option (List Property)) :
    (ofProperties today tracked ps).faults = [] ↔
      (∀ p ∈ ps.getD [], p.Admissible today) ∧
        ((startOf? today (ps.getD [])).isSome ∨ (daysOf? (ps.getD [])).isSome →
          ∃ u, checkHorizon ((startOf? today (ps.getD [])).getD today)
            ((daysOf? (ps.getD [])).getD defaultDays) = .ok u) := by
  rw [ofProperties, faults_bind, List.append_eq_nil_iff, Draft.faults_applyAll_eq_nil_iff]
  refine and_congr_right fun h => ?_
  have htakes := Draft.takes_applyAll ⟨default today tracked, none, none⟩ h
  rw [Draft.faults_finish_eq_nil_iff, htakes.start, htakes.days, htakes.startSpan, htakes.daysSpan]
  simp [default]

theorem span_ofProperties {today : Date} {tracked : List Tracked} {ps : Option (List Property)}
    (h : (ofProperties today tracked ps).faults = []) :
    (ofProperties today tracked ps).value.start = (startOf? today (ps.getD [])).getD today ∧
      (ofProperties today tracked ps).value.days = (daysOf? (ps.getD [])).getD defaultDays := by
  have hps := ((faults_ofProperties_eq_nil_iff today tracked ps).mp h).1
  have htakes := Draft.takes_applyAll ⟨default today tracked, none, none⟩ hps
  rw [ofProperties, faults_bind, List.append_eq_nil_iff] at h
  rw [ofProperties, value_bind, Draft.value_finish h.2]
  exact ⟨htakes.start, htakes.days⟩

end Settings

namespace Tracked

theorem exists_apply_iff (t : Tracked) (p : Property) :
    (∃ u, t.apply p = .ok u) ↔ (p.key.name = "label" ∨ p.key.name = "color" → p.value.IsString) := by
  unfold apply PropertyValue.IsString
  split
  case h_1 key hkey | h_2 key hkey =>
      simp only [hkey, map_eq_ok_iff, PropertyValue.expectString_eq_ok_iff]
      rw [exists_comm]
      simp
  case h_3 => simp_all

theorem faults_applyAll_eq_nil_iff (t : Tracked) (ps : List Property) :
    (t.applyAll ps).faults = [] ↔
      ∀ p ∈ ps, p.key.name = "label" ∨ p.key.name = "color" → p.value.IsString := by
  induction ps generalizing t with
  | nil => simp [applyAll]
  | cons p rest ih =>
      rw [List.forall_mem_cons, ← exists_apply_iff t p]
      cases h : t.apply p with
      | ok u => simp [applyAll, h, ih]
      | error e => simp [applyAll, h]

end Tracked

end Forecast
