import Forecast.Proofs.Agreement
import Forecast.Proofs.Plan.Precedence
import Forecast.Proofs.Plan.Reordered

namespace Forecast

open Checked

def PropertyValue.string? : PropertyValue → Option String
  | .string text _ => some text
  | .number _ _ _ => none
  | .name _ => none

theorem PropertyValue.IsString.isSome_string? {v : PropertyValue} (h : v.IsString) :
    v.string?.isSome := by
  obtain ⟨text, span, rfl⟩ := h
  rfl

def colorOf? (ps : List Property) : Option String := (lastProperty? "color" ps).bind (·.value.string?)

def Declaration.visibleName? : Declaration → Option String
  | .var x _ ps => if colorOf? (ps.getD []) = some "hidden" then none else some x.name
  | .date _ _ => none
  | .rule _ _ => none

namespace Tracked

theorem color_apply {t u : Tracked} {p : Property} (h : t.apply p = .ok u) :
    u.color = if p.key.name = "color" then p.value.string? else t.color := by
  unfold apply at h
  split at h
  case h_1 hkey =>
      obtain ⟨label, -, rfl⟩ := map_eq_ok_iff.mp h
      simp [hkey]
  case h_2 hkey =>
      obtain ⟨color, hcolor, rfl⟩ := map_eq_ok_iff.mp h
      obtain ⟨span, hvalue⟩ := PropertyValue.expectString_eq_ok_iff.mp hcolor
      simp [hkey, hvalue, PropertyValue.string?]
  case h_3 hkey =>
      obtain rfl := Except.ok.inj h
      rw [if_neg hkey]

theorem color_applyAll {t : Tracked} {ps : List Property}
    (h : ∀ p ∈ ps, p.key.name = "label" ∨ p.key.name = "color" → p.value.IsString) :
    (t.applyAll ps).value.color = (colorOf? ps).or t.color := by
  induction ps generalizing t with
  | nil => rfl
  | cons p rest ih =>
      obtain ⟨hp, hrest⟩ := List.forall_mem_cons.mp h
      obtain ⟨u, hu⟩ := (exists_apply_iff t p).mpr hp
      rw [applyAll, hu, ih hrest, color_apply hu, colorOf?, colorOf?, lastProperty?_cons]
      cases hlast : lastProperty? "color" rest with
      | none =>
          by_cases hkey : p.key.name = "color"
          · obtain ⟨text, htext⟩ := Option.isSome_iff_exists.mp (hp (.inr hkey)).isSome_string?
            simp [hkey, htext]
          · simp [hkey]
      | some q =>
          obtain ⟨hq, hkey⟩ := mem_of_lastProperty? hlast
          obtain ⟨text, htext⟩ := Option.isSome_iff_exists.mp (hrest q hq (.inr hkey)).isSome_string?
          simp [htext]

end Tracked

namespace Plan.Draft

variable {table : List (String × DatePattern)} {d d' : Draft}

theorem keys_add {declaration : Declaration} (h : (d.add table declaration).faults = []) :
    (d.add table declaration).value.tracked.map Tracked.key =
      d.tracked.map Tracked.key ++ [declaration].filterMap Declaration.visibleName? := by
  cases declaration with
  | rule when a => exact (List.append_nil _).symm
  | date x p =>
      rw [add, value_addDate]
      split_ifs <;> exact (List.append_nil _).symm
  | var x e ps =>
      obtain ⟨hx, -, hstrings⟩ := (faults_addVar_eq_nil_iff d x e ps).mp h
      have hcolor : (Tracked.ofProperties x.name ps).value.color = colorOf? (ps.getD []) := by
        rw [Tracked.ofProperties, Tracked.color_applyAll hstrings, Option.or_none]
      rw [add, value_addVar, if_neg hx, hcolor, List.filterMap_cons, Declaration.visibleName?,
        Tracked.hiddenColor]
      split_ifs
      · exact (List.append_nil _).symm
      · rw [List.map_append, List.map_singleton, Tracked.key_ofProperties]
        rfl

theorem keys_addAll {ds : List Declaration} (h : (d.addAll table ds).faults = []) :
    (d.addAll table ds).value.tracked.map Tracked.key =
      d.tracked.map Tracked.key ++ ds.filterMap Declaration.visibleName? := by
  induction ds generalizing d with
  | nil => exact (List.append_nil _).symm
  | cons declaration rest ih =>
      rw [addAll, faults_bind, List.append_eq_nil_iff] at h
      have hcons : (declaration :: rest).filterMap Declaration.visibleName? =
          [declaration].filterMap Declaration.visibleName? ++
            rest.filterMap Declaration.visibleName? :=
        List.filterMap_append (l := [declaration])
      rw [addAll, value_bind, ih h.2, keys_add h.1, hcons, List.append_assoc]

end Plan.Draft

def Property.isStyle (p : Property) : Bool :=
  (p.key.name = "label" || p.key.name = "color") && p.value.string?.isSome

def plain (ps : Option (List Property)) : List Property := (ps.getD []).filter (!·.isStyle)

/-- The same declaration, with other labels and colors if it is one of a variable. -/
inductive Declaration.Restyles : Declaration → Declaration → Prop
  | var (x : Ident) (e : NumberExpr) {ps ps' : Option (List Property)} (h : plain ps' = plain ps) :
      Restyles (.var x e ps) (.var x e ps')
  | date (x : Ident) (p : PatternLiteral) : Restyles (.date x p) (.date x p)
  | rule (when : When) (a : Action) : Restyles (.rule when a) (.rule when a)

structure Script.Restyles (s s' : Script) : Prop where
  declarations : List.Forall₂ Declaration.Restyles s.declarations s'.declarations
  options : s'.options = s.options

theorem isString_of_plain_eq {ps ps' : Option (List Property)} (h : plain ps' = plain ps)
    (hps : ∀ p ∈ ps.getD [], p.key.name = "label" ∨ p.key.name = "color" → p.value.IsString) :
    ∀ p ∈ ps'.getD [], p.key.name = "label" ∨ p.key.name = "color" → p.value.IsString := by
  intro p hp hkey
  cases hv : p.value with
  | string text span => exact ⟨text, span, rfl⟩
  | number negative magnitude span | name x =>
      -- What is no string is no style, so it is among the properties of the other list.
      have hplain : p ∈ plain ps' := List.mem_filter.mpr ⟨hp, by
        simp [Property.isStyle, hv, PropertyValue.string?]⟩
      rw [h] at hplain
      rw [← hv]
      exact hps p (List.mem_filter.mp hplain).1 hkey

namespace Settings

def Draft.tracking (d : Draft) (tracked : List Tracked) : Draft :=
  { d with settings.tracked := tracked }

variable (today : Date) (tracked : List Tracked)

theorem Draft.apply_tracking (d : Draft) (p : Property) :
    (d.tracking tracked).apply today p = (fun e => e.tracking tracked) <$> d.apply today p := by
  unfold apply
  dsimp only
  split
  case h_7 | h_8 => cases p.value.expectString p.key.name <;> rfl
  case h_9 => rfl
  all_goals
    simp only [map_bind, map_pure]
    rfl

theorem Draft.applyAll_tracking (d : Draft) (ps : List Property) :
    (d.tracking tracked).applyAll today ps =
      ⟨(d.applyAll today ps).value.tracking tracked, (d.applyAll today ps).faults⟩ := by
  induction ps generalizing d with
  | nil => rfl
  | cons p rest ih =>
      rw [applyAll, applyAll, apply_tracking]
      cases d.apply today p with
      | ok e => exact ih e
      | error e =>
          simp only [Functor.map, Except.map]
          rw [ih]
          rfl

theorem Draft.finish_tracking (d : Draft) :
    (d.tracking tracked).finish today =
      ⟨{ (d.finish today).value with tracked }, (d.finish today).faults⟩ := by
  obtain ⟨settings, startSpan, daysSpan⟩ := d
  unfold finish
  dsimp only [tracking]
  cases checkHorizon settings.start settings.days with
  | ok u => rfl
  | error e => cases startSpan <;> cases daysSpan <;> rfl

theorem ofProperties_tracking (old : List Tracked) (ps : Option (List Property)) :
    ofProperties today tracked ps =
      ⟨{ (ofProperties today old ps).value with tracked }, (ofProperties today old ps).faults⟩ := by
  have hall := Draft.applyAll_tracking today tracked ⟨default today old, none, none⟩ (ps.getD [])
  have hfinish := Draft.finish_tracking today tracked
    (Draft.applyAll today ⟨default today old, none, none⟩ (ps.getD [])).value
  have hstart : (⟨default today old, none, none⟩ : Draft).tracking tracked =
      ⟨default today tracked, none, none⟩ := rfl
  rw [hstart] at hall
  rw [ofProperties, ofProperties, hall]
  simp only [bind, hfinish]

end Settings

namespace Plan

namespace Draft

def untracked (d : Draft) : Draft := { d with tracked := [] }

variable {table : List (String × DatePattern)} {d d' : Draft}

theorem add_restyles {c c' : Declaration} (hc : c.Restyles c') (hd : d'.untracked = d.untracked)
    (h : (d.add table c).faults = []) :
    (d'.add table c').faults = [] ∧
      (d'.add table c').value.untracked = (d.add table c).value.untracked := by
  obtain ⟨names, initial, tracked, dates, rules⟩ := d
  obtain ⟨names', initial', tracked', dates', rules'⟩ := d'
  obtain ⟨rfl, rfl, rfl, rfl⟩ :
      names' = names ∧ initial' = initial ∧ dates' = dates ∧ rules' = rules := by
    simpa [untracked] using hd
  cases hc with
  | var x e hplain =>
      obtain ⟨hx, hnames, hstrings⟩ := (faults_addVar_eq_nil_iff _ x e _).mp h
      refine ⟨(faults_addVar_eq_nil_iff _ x e _).mpr
        ⟨hx, hnames, isString_of_plain_eq hplain hstrings⟩, ?_⟩
      rw [add, add, value_addVar, value_addVar, if_neg hx, if_neg hx]
      rfl
  | date x p =>
      obtain ⟨hp, hx⟩ := (faults_addDate_eq_nil_iff _ x p).mp h
      refine ⟨(faults_addDate_eq_nil_iff _ x p).mpr ⟨hp, hx⟩, ?_⟩
      rw [add, add, value_addDate, value_addDate]
      split_ifs <;> rfl
  | rule when a =>
      obtain ⟨hwhen, hnames⟩ := (faults_addRule_eq_nil_iff table _ when a).mp h
      exact ⟨(faults_addRule_eq_nil_iff table _ when a).mpr ⟨hwhen, hnames⟩, rfl⟩

theorem addAll_restyles {ds ds' : List Declaration} (hds : List.Forall₂ Declaration.Restyles ds ds')
    (hd : d'.untracked = d.untracked) (h : (d.addAll table ds).faults = []) :
    (d'.addAll table ds').faults = [] ∧
      (d'.addAll table ds').value.untracked = (d.addAll table ds).value.untracked := by
  induction hds generalizing d d' with
  | nil => exact ⟨rfl, hd⟩
  | cons hc hrest ih =>
      rw [addAll, faults_bind, List.append_eq_nil_iff] at h
      obtain ⟨hfaults, hvalue⟩ := add_restyles hc hd h.1
      rw [addAll, addAll, faults_bind, List.append_eq_nil_iff, value_bind, value_bind]
      obtain ⟨hfaults', hvalue'⟩ := ih hvalue h.2
      exact ⟨⟨hfaults, hfaults'⟩, hvalue'⟩

end Draft

theorem dateTable_restyles {ds ds' : List Declaration}
    (h : List.Forall₂ Declaration.Restyles ds ds') : dateTable ds' = dateTable ds := by
  induction h with
  | nil => rfl
  | cons hc hrest ih =>
      rw [dateTable] at ih ⊢
      cases hc with
      | var x e hplain => exact ih
      | date x p => exact congrArg ((x.name, p.resolve.value) :: ·) ih
      | rule when a => exact ih

theorem ofScript_restyles {today : Date} {s s' : Script} (h : s.Restyles s')
    (hs : (ofScript today s).faults = []) :
    (ofScript today s').faults = [] ∧ ∃ tracked,
      (ofScript today s').value = { (ofScript today s).value with settings.tracked := tracked } := by
  rw [ofScript, faults_bind, List.append_eq_nil_iff] at hs
  have hempty : Draft.empty.untracked = Draft.empty.untracked := rfl
  obtain ⟨hfaults, hvalue⟩ := Draft.addAll_restyles h.declarations hempty hs.1
  simp only [ofScript, faults_bind, value_bind, value_pure, faults_pure, dateTable_restyles h.declarations,
    h.options]
  generalize (Draft.empty.addAll (dateTable s.declarations) s'.declarations) = u' at *
  generalize (Draft.empty.addAll (dateTable s.declarations) s.declarations) = u at *
  obtain ⟨⟨names, initial, tracked, dates, rules⟩, faults⟩ := u
  obtain ⟨⟨names', initial', tracked', dates', rules'⟩, faults'⟩ := u'
  obtain ⟨rfl, rfl, rfl, rfl⟩ :
      names' = names ∧ initial' = initial ∧ dates' = dates ∧ rules' = rules := by
    simpa [Draft.untracked] using hvalue
  have hsettings := Settings.ofProperties_tracking today tracked' tracked s.options
  dsimp only at *
  rw [hsettings]
  refine ⟨?_, tracked', rfl⟩
  rw [hfaults]
  exact hs.2

theorem nodup_initialState {r : Request} {source : List Char} {p : Plan}
    (h : ofText r source = .ok p) : (p.initialState.map Prod.fst).Nodup := by
  have hlength := (coherent_of_ofText h).length_initial
  obtain ⟨-, -, rfl, -⟩ := ofText_eq_ok_iff.mp h
  obtain ⟨hnames, -, -⟩ := ofScript_keeps r.today (Script.ofText source).value
  rw [initialState, List.map_fst_zip hlength.ge, override, hnames]
  exact Script.nodup_vars _

theorem keys_of_ofText {r : Request} {source : List Char} {p : Plan} (h : ofText r source = .ok p) :
    p.settings.tracked.map Tracked.key =
      (Script.ofText source).value.declarations.filterMap Declaration.visibleName? := by
  obtain ⟨-, hfaults, rfl, -⟩ := ofText_eq_ok_iff.mp h
  rw [ofScript, faults_bind, List.append_eq_nil_iff] at hfaults
  have htracked : ((ofScript r.today (Script.ofText source).value).value.override r).settings.tracked =
      _ := Settings.tracked_ofProperties r.today _ _
  rw [htracked, Draft.keys_addAll hfaults.1]
  rfl

/-- Plans that differ in their tracked variables draw the same of what both of them track. -/
theorem exists_graph_tracking {p : Plan} (h : p.checkSpan = .ok ()) (tracked : List Tracked) :
    ∃ g g', p.graph = .ok g ∧ Plan.graph { p with settings.tracked := tracked } = .ok g' ∧
      ∀ (k k' : Nat) (t t' : Tracked), p.settings.tracked[k]? = some t → tracked[k']? = some t' →
        t.key = t'.key → ∃ samples, g.series[k]? = some samples ∧ g'.series[k']? = some samples := by
  obtain ⟨dates, hdates⟩ := datesFrom_ok (checkSpan_eq_ok_iff.mp h).2
  obtain ⟨g, hg, hseries⟩ := graph_of_datesFrom hdates
  obtain ⟨g', hg', hseries'⟩ :=
    graph_of_datesFrom (p := { p with settings.tracked := tracked }) hdates
  refine ⟨g, g', hg, hg', fun k k' t t' ht ht' hkey => ⟨_, hseries k t ht, ?_⟩⟩
  rw [hseries' k' t' ht', hkey]

/-- Labels and colors are presentation. The variables have distinct names; those whose last color is
not the hiding one are drawn, in the order of their declarations; and with other labels and colors
for any of them the script still has a plan, which computes the same on all days and draws the same
series for each variable that both of them draw. -/
theorem ofText_restyles {r : Request} {source : List Char} {p : Plan}
    (h : ofText r source = .ok p) :
    (p.initialState.map Prod.fst).Nodup ∧
    p.settings.tracked.map Tracked.key =
      (Script.ofText source).value.declarations.filterMap Declaration.visibleName? ∧
    ∀ source' (s' : Script), Token.brokenParts source' = [] → s'.Spelled (Token.ofText source') →
      (Script.ofText source).value.unplaced.Restyles s'.unplaced →
      ∃ p', ofText r source' = .ok p' ∧ p'.initialState = p.initialState ∧ p'.rules = p.rules ∧
        p'.dates = p.dates ∧ (∀ start days, p'.run start days = p.run start days) ∧
        ∃ g g', p.graph = .ok g ∧ p'.graph = .ok g' ∧ ∀ (k k' : Nat) (t t' : Tracked),
          p.settings.tracked[k]? = some t → p'.settings.tracked[k']? = some t' → t.key = t'.key →
            ∃ samples, g.series[k]? = some samples ∧ g'.series[k']? = some samples := by
  refine ⟨nodup_initialState h, keys_of_ofText h, fun source' s' hunbroken hspelled hstyles => ?_⟩
  obtain ⟨hfaults, hvalue⟩ := ofScript_unplaced_of_ofText h
  have hspan := checkSpan_of_ofText h
  obtain ⟨hfaults', tracked, hvalue'⟩ := ofScript_restyles hstyles hfaults
  have hplan : (ofScript r.today s'.unplaced).value.override r =
      { p with settings.tracked := tracked } := by
    rw [hvalue', ← hvalue]
    rfl
  exact ⟨_, ofText_of_spelled hunbroken hspelled hfaults' hplan hspan, rfl, rfl, rfl,
    fun _ _ => rfl, exists_graph_tracking hspan tracked⟩

namespace Hiding

def color (text : String) : Property := ⟨Sorted.name "color", .string text ⟨0, 0⟩⟩

def var (name : String) (value : Nat) (ps : Option (List Property)) : Declaration :=
  .var (Sorted.name name) (.literal ⟨value, 0⟩ ⟨0, 0⟩) ps

def middle : Script :=
  ⟨[var "a" 1 none, var "b" 2 (some [color "red", color "hidden"]), var "c" 3 (some [color "red"])],
    none⟩

def first : Script :=
  ⟨[var "a" 1 (some [color "hidden"]), var "b" 2 (some [color "hidden", color "red"]), var "c" 3 none],
    none⟩

theorem restyles : middle.Restyles first where
  declarations := .cons (.var _ _ (by decide +kernel)) (.cons (.var _ _ (by decide +kernel))
    (.cons (.var _ _ (by decide +kernel)) .nil))
  options := rfl

end Hiding

theorem ofText_restyles_middle :
    ∃ p p' g g', ofText ⟨leapDay, none, some 2⟩ (Hiding.middle.render Script.oneBlank) = .ok p ∧
      p.settings.tracked.map Tracked.key = ["a", "c"] ∧
      ofText ⟨leapDay, none, some 2⟩ (Hiding.first.render Script.oneBlank) = .ok p' ∧
      p'.settings.tracked.map Tracked.key = ["b", "c"] ∧ p'.initialState = p.initialState ∧
      p.graph = .ok g ∧ p'.graph = .ok g' ∧
        ∃ samples, g.series[1]? = some samples ∧ g'.series[1]? = some samples := by
  have hmiddle : Hiding.middle.Writable := by decide +kernel
  have hfirst : Hiding.first.Writable := by decide +kernel
  obtain ⟨s, -, -, htext, hunplaced⟩ :=
    Script.exists_spelled_render hmiddle (Script.separates_oneBlank _)
  obtain ⟨s', hspelled, hunbroken, htext', hunplaced'⟩ :=
    Script.exists_spelled_render hfirst (Script.separates_oneBlank _)
  have hkeys : (Script.ofText (Hiding.middle.render Script.oneBlank)).value.declarations.filterMap
      Declaration.visibleName? = ["a", "c"] := by
    decide +kernel
  have hkeys' : (Script.ofText (Hiding.first.render Script.oneBlank)).value.declarations.filterMap
      Declaration.visibleName? = ["b", "c"] := by
    decide +kernel
  have hsome : ((ofText ⟨leapDay, none, some 2⟩
      (Hiding.middle.render Script.oneBlank)).toOption.isSome) = true := by
    decide +kernel
  obtain ⟨p, h⟩ := Result.exists_ok_of_isSome hsome
  obtain ⟨-, htracked, hstyles⟩ := ofText_restyles h
  obtain ⟨p', hp', hinitial, -, -, -, g, g', hg, hg', hseries⟩ :=
    hstyles _ s' hunbroken hspelled (by rw [htext, hunplaced, hunplaced']; exact Hiding.restyles)
  have htracked' := (ofText_restyles hp').2.1
  rw [hkeys] at htracked
  rw [hkeys'] at htracked'
  obtain ⟨t, ht, hkey⟩ : ∃ t, p.settings.tracked[1]? = some t ∧ t.key = "c" := by
    have hget := congrArg (·[1]?) htracked
    simpa using hget
  obtain ⟨t', ht', hkey'⟩ : ∃ t, p'.settings.tracked[1]? = some t ∧ t.key = "c" := by
    have hget := congrArg (·[1]?) htracked'
    simpa using hget
  exact ⟨p, p', g, g', h, htracked, hp', htracked', hinitial, hg, hg',
    hseries 1 1 t t' ht ht' (hkey.trans hkey'.symm)⟩

end Plan

end Forecast
