import Forecast.Proofs.Plan.Accepted

namespace Forecast

open Checked

def lastProperty? (key : String) (ps : List Property) : Option Property :=
  ps.reverse.find? (·.key.name = key)

theorem lastProperty?_cons (key : String) (p : Property) (ps : List Property) :
    lastProperty? key (p :: ps) =
      (lastProperty? key ps).or (if p.key.name = key then some p else none) := by
  rw [lastProperty?, List.reverse_cons, List.find?_append, ← lastProperty?]
  by_cases hkey : p.key.name = key <;> simp [hkey]

theorem mem_of_lastProperty? {key : String} {p : Property} {ps : List Property}
    (h : lastProperty? key ps = some p) : p ∈ ps ∧ p.key.name = key := by
  rw [lastProperty?] at h
  exact ⟨List.mem_reverse.mp (List.mem_of_find?_eq_some h), by simpa using List.find?_some h⟩

theorem getLast?_filterMap_entries {β : Type} {key : String} {f : PropertyValue → Option β}
    {ps : List Property} (h : ∀ p ∈ ps, p.key.name = key → (f p.value).isSome) :
    (ps.filterMap fun p => if p.key.name = key then f p.value else none).getLast? =
      (lastProperty? key ps).bind (f ·.value) := by
  induction ps with
  | nil => rfl
  | cons p rest ih =>
      obtain ⟨-, hrest⟩ := List.forall_mem_cons.mp h
      rw [getLast?_filterMap_cons, lastProperty?_cons, ih hrest]
      cases hlast : lastProperty? key rest with
      | none =>
          rw [Option.bind_none, Option.none_or, Option.none_or]
          split_ifs <;> rfl
      | some q =>
          obtain ⟨hq, hkey⟩ := mem_of_lastProperty? hlast
          obtain ⟨b, hb⟩ := Option.isSome_iff_exists.mp (hrest q hq hkey)
          rw [Option.some_or, Option.bind_some, hb, Option.some_or]

section Admissible

variable {today : Date} {p : Property} {ps : List Property}

theorem Property.Admissible.isSome_date? (h : p.Admissible today) (hkey : p.key.name = "startDate") :
    (p.value.date? today).isSome := by
  rwa [Admissible, hkey] at h

theorem Property.Admissible.isSome_days? (h : p.Admissible today) (hkey : p.key.name = "duration") :
    p.value.days?.isSome := by
  rwa [Admissible, hkey] at h

theorem startOf?_eq_lastProperty? (h : ∀ p ∈ ps, p.Admissible today) :
    startOf? today ps = (lastProperty? "startDate" ps).bind (·.value.date? today) :=
  getLast?_filterMap_entries fun p hp => (h p hp).isSome_date?

theorem daysOf?_eq_lastProperty? (h : ∀ p ∈ ps, p.Admissible today) :
    daysOf? ps = (lastProperty? "duration" ps).bind (·.value.days?) :=
  getLast?_filterMap_entries fun p hp => (h p hp).isSome_days?

end Admissible

/-- The start and the number of days of some settings, in the order in which they are looked for. -/
structure Settings.SpanFrom (r : Request) (ps : List Property) (s : Settings) : Prop where
  start_request : ∀ d, r.start = some d → s.start = d
  start_entry : r.start = none → ∀ p, lastProperty? "startDate" ps = some p →
    p.value.date? r.today = some s.start
  start_default : r.start = none → lastProperty? "startDate" ps = none → s.start = r.today
  days_request : ∀ n, r.days = some n → s.days = n
  days_entry : r.days = none → ∀ p, lastProperty? "duration" ps = some p → p.value.days? = some s.days
  days_default : r.days = none → lastProperty? "duration" ps = none → s.days = 5 * 365

theorem Settings.spanFrom_of_eq {r : Request} {ps : List Property} {s : Settings}
    (hps : ∀ p ∈ ps, p.Admissible r.today)
    (hstart : s.start = r.start.getD ((startOf? r.today ps).getD r.today))
    (hdays : s.days = r.days.getD ((daysOf? ps).getD defaultDays)) : s.SpanFrom r ps := by
  rw [startOf?_eq_lastProperty? hps] at hstart
  rw [daysOf?_eq_lastProperty? hps] at hdays
  refine ⟨fun d hd => ?_, fun hnone p hp => ?_, fun hnone hp => ?_, fun n hn => ?_,
    fun hnone p hp => ?_, fun hnone hp => ?_⟩
  · rw [hstart, hd, Option.getD_some]
  · obtain ⟨hmem, hkey⟩ := mem_of_lastProperty? hp
    obtain ⟨d, hd⟩ := Option.isSome_iff_exists.mp ((hps p hmem).isSome_date? hkey)
    rw [hstart, hnone, hp, Option.bind_some, hd, Option.getD_none, Option.getD_some]
  · rw [hstart, hnone, hp, Option.bind_none, Option.getD_none, Option.getD_none]
  · rw [hdays, hn, Option.getD_some]
  · obtain ⟨hmem, hkey⟩ := mem_of_lastProperty? hp
    obtain ⟨n, hn⟩ := Option.isSome_iff_exists.mp ((hps p hmem).isSome_days? hkey)
    rw [hdays, hnone, hp, Option.bind_some, hn, Option.getD_none, Option.getD_some]
  · rw [hdays, hnone, hp, Option.bind_none, Option.getD_none, Option.getD_none, defaultDays]

def PropertyValue.IsWrittenDate : PropertyValue → Prop
  | .string text _ =>
    ∃ format ∈ Written.formats, (Written.Format.date? format (Text.trim text.toList)).isSome
  | .number _ _ _ | .name _ => False

instance : DecidablePred PropertyValue.IsWrittenDate
  | .string _ _ => inferInstanceAs (Decidable (∃ format ∈ Written.formats, _))
  | .number _ _ _ | .name _ => inferInstanceAs (Decidable False)

theorem PropertyValue.IsWrittenDate.exists_date? {v : PropertyValue} (h : v.IsWrittenDate) :
    ∃ d, ∀ today, v.date? today = some d := by
  cases v with
  | number negative magnitude span => cases h
  | name x => cases h
  | string text span =>
      have hsome : (Written.date? (Text.trim text.toList)).isSome := List.findSome?_isSome_iff.mpr h
      obtain ⟨d, hd⟩ := Option.isSome_iff_exists.mp hsome
      refine ⟨d, fun today => ?_⟩
      simp only [date?, StartDate.ofText, hd, Result.toOption]

namespace Settings.Draft

variable {today today' : Date} {d : Draft} {p : Property} {ps : List Property}

def startingOn (d : Draft) (start : Date) : Draft := { d with settings.start := start }

theorem apply_startDate {start : Date} (hkey : p.key.name = "startDate")
    (hstart : p.value.date? today = some start) :
    d.apply today p = .ok { d with settings.start := start, startSpan := some p.value.span } := by
  obtain ⟨text, htext, hdate⟩ := (date?_eq_some_iff p.key.name).mp hstart
  unfold apply
  simp only [hkey] at htext ⊢
  exact bind_eq_ok_iff.mpr ⟨text, htext, bind_eq_ok_iff.mpr ⟨start, hdate, rfl⟩⟩

theorem apply_startingOn (today : Date) (hkey : p.key.name ≠ "startDate") (start : Date) :
    (d.startingOn start).apply today' p = (fun e => e.startingOn start) <$> d.apply today p := by
  unfold apply
  dsimp only
  split
  case h_1 h => exact absurd h hkey
  case h_7 | h_8 => cases p.value.expectString p.key.name <;> rfl
  case h_9 => rfl
  all_goals
    simp only [map_bind, map_pure]
    rfl

theorem apply_congr (hp : p.key.name = "startDate" → p.value.IsWrittenDate) :
    d.apply today' p = d.apply today p := by
  by_cases hkey : p.key.name = "startDate"
  · obtain ⟨start, hstart⟩ := (hp hkey).exists_date?
    rw [apply_startDate hkey (hstart today'), apply_startDate hkey (hstart today)]
  · unfold apply
    dsimp only
    split
    case h_1 h => exact absurd h hkey
    all_goals rfl

theorem applyAll_congr (h : ∀ p ∈ ps, p.key.name = "startDate" → p.value.IsWrittenDate) :
    d.applyAll today' ps = d.applyAll today ps := by
  induction ps generalizing d with
  | nil => rfl
  | cons p rest ih =>
      obtain ⟨hp, hrest⟩ := List.forall_mem_cons.mp h
      rw [applyAll, applyAll, apply_congr hp]
      cases d.apply today p with
      | ok e => exact ih hrest
      | error e => simp only [ih hrest]

theorem applyAll_startingOn (h : ∀ p ∈ ps, p.key.name = "startDate" → p.value.IsWrittenDate)
    (hset : ∃ p ∈ ps, p.key.name = "startDate") (start : Date) :
    (d.startingOn start).applyAll today' ps = d.applyAll today ps := by
  induction ps generalizing d with
  | nil => simp at hset
  | cons p rest ih =>
      obtain ⟨hp, hrest⟩ := List.forall_mem_cons.mp h
      rw [applyAll, applyAll]
      by_cases hkey : p.key.name = "startDate"
      · obtain ⟨own, hown⟩ := (hp hkey).exists_date?
        rw [apply_startDate hkey (hown today'), apply_startDate hkey (hown today)]
        exact applyAll_congr hrest
      · have hset' : ∃ q ∈ rest, q.key.name = "startDate" := by
          simpa [List.exists_mem_cons_iff, hkey] using hset
        rw [apply_startingOn today hkey start]
        cases d.apply today p with
        | ok e => exact ih hrest hset'
        | error e =>
            simp only [Functor.map, Except.map]
            rw [ih hrest hset']

theorem exists_applyAll_startingOn (h : ∀ p ∈ ps, p.Admissible today)
    (h' : ∀ p ∈ ps, p.Admissible today') (start : Date) :
    ∃ last, ((d.startingOn start).applyAll today' ps).value =
      (d.applyAll today ps).value.startingOn last := by
  induction ps generalizing d start with
  | nil => exact ⟨start, rfl⟩
  | cons p rest ih =>
      obtain ⟨hp, hrest⟩ := List.forall_mem_cons.mp h
      obtain ⟨hp', hrest'⟩ := List.forall_mem_cons.mp h'
      rw [applyAll, applyAll]
      by_cases hkey : p.key.name = "startDate"
      · obtain ⟨own, hown⟩ := Option.isSome_iff_exists.mp (hp.isSome_date? hkey)
        obtain ⟨own', hown'⟩ := Option.isSome_iff_exists.mp (hp'.isSome_date? hkey)
        rw [apply_startDate hkey hown, apply_startDate hkey hown']
        exact ih (d := { d with settings.start := own, startSpan := some p.value.span }) hrest hrest'
          own'
      · obtain ⟨e, he⟩ := (exists_apply_iff today d p).mpr hp
        rw [apply_startingOn today hkey start, he]
        exact ih hrest hrest' start

end Settings.Draft

namespace Settings

variable {today today' : Date} {tracked : List Tracked} {ps : Option (List Property)}

/-- The options write the start out as a date, each time that they set it. -/
def StartWritten (ps : List Property) : Prop :=
  (∃ p ∈ ps, p.key.name = "startDate") ∧
    ∀ p ∈ ps, p.key.name = "startDate" → p.value.IsWrittenDate

instance : DecidablePred StartWritten := fun _ => inferInstanceAs (Decidable (_ ∧ _))

theorem value_ofProperties (h : (ofProperties today tracked ps).faults = []) :
    (ofProperties today tracked ps).value =
      (Draft.applyAll today ⟨default today tracked, none, none⟩ (ps.getD [])).value.settings := by
  rw [ofProperties, faults_bind, List.append_eq_nil_iff] at h
  rw [ofProperties, value_bind, Draft.value_finish h.2]

theorem faults_finish_congr (d : Draft) : (d.finish today').faults = (d.finish today).faults := by
  unfold Draft.finish
  split <;> rfl

theorem applyAll_default_eq (h : StartWritten (ps.getD [])) (today today' : Date) :
    Draft.applyAll today' ⟨default today' tracked, none, none⟩ (ps.getD []) =
      Draft.applyAll today ⟨default today tracked, none, none⟩ (ps.getD []) :=
  Draft.applyAll_startingOn (d := ⟨default today tracked, none, none⟩) h.2 h.1 today'

theorem faults_ofProperties_congr (h : StartWritten (ps.getD [])) (today today' : Date) :
    (ofProperties today' tracked ps).faults = (ofProperties today tracked ps).faults := by
  rw [ofProperties, ofProperties, faults_bind, faults_bind,
    applyAll_default_eq h today, faults_finish_congr]

theorem value_ofProperties_congr (h : StartWritten (ps.getD []))
    (hok : (ofProperties today tracked ps).faults = []) (today' : Date) :
    (ofProperties today' tracked ps).value = (ofProperties today tracked ps).value := by
  have hok' : (ofProperties today' tracked ps).faults = [] :=
    (faults_ofProperties_congr h today today').trans hok
  rw [value_ofProperties hok, value_ofProperties hok', applyAll_default_eq h today]

theorem exists_value_ofProperties (hok : (ofProperties today tracked ps).faults = [])
    (hok' : (ofProperties today' tracked ps).faults = []) :
    ∃ start, (ofProperties today' tracked ps).value =
      { (ofProperties today tracked ps).value with start } := by
  obtain ⟨start, hstart⟩ := Draft.exists_applyAll_startingOn (d := ⟨default today tracked, none, none⟩)
    ((faults_ofProperties_eq_nil_iff today tracked ps).mp hok).1
    ((faults_ofProperties_eq_nil_iff today' tracked ps).mp hok').1 today'
  refine ⟨start, ?_⟩
  rw [value_ofProperties hok, value_ofProperties hok']
  exact congrArg Draft.settings hstart

end Settings

namespace Plan

variable {today today' : Date} {s : Script}

theorem faults_ofScript_congr (h : Settings.StartWritten (s.options.getD [])) (today today' : Date) :
    (ofScript today' s).faults = (ofScript today s).faults := by
  simp only [ofScript, faults_bind, faults_pure, Settings.faults_ofProperties_congr h today today']

theorem faults_ofProperties_of_ofScript (h : (ofScript today s).faults = []) :
    (Settings.ofProperties today
      (Draft.empty.addAll (dateTable s.declarations) s.declarations).value.tracked
      s.options).faults = [] := by
  rw [ofScript, faults_bind, List.append_eq_nil_iff, faults_bind, List.append_eq_nil_iff] at h
  exact h.2.1

theorem value_ofScript_congr (h : Settings.StartWritten (s.options.getD []))
    (hok : (ofScript today s).faults = []) (today' : Date) :
    (ofScript today' s).value = (ofScript today s).value := by
  have hsettings :=
    Settings.value_ofProperties_congr h (faults_ofProperties_of_ofScript hok) today'
  simp only [ofScript, value_bind, value_pure, hsettings]

theorem exists_value_ofScript (hok : (ofScript today s).faults = [])
    (hok' : (ofScript today' s).faults = []) :
    ∃ start, (ofScript today' s).value =
      { (ofScript today s).value with settings.start := start } := by
  obtain ⟨start, hstart⟩ := Settings.exists_value_ofProperties (faults_ofProperties_of_ofScript hok)
    (faults_ofProperties_of_ofScript hok')
  refine ⟨start, ?_⟩
  simp only [ofScript, value_bind, value_pure, hstart]

def reported (today : Date) (source : List Char) : List Diagnostic :=
  let script := Script.ofText source
  let faults := if script.faults ≠ [] then script.faults else (ofScript today script.value).faults
  faults.map (.ofFault source)

theorem reported_eq_nil_iff {source : List Char} :
    reported today source = [] ↔ (Script.ofText source).faults = [] ∧
      (ofScript today (Script.ofText source).value).faults = [] := by
  rw [reported]
  by_cases hscript : (Script.ofText source).faults = [] <;> simp [hscript]

theorem ofText_of_ne_nil {r : Request} {source : List Char} (hnone : abort? r.today source = none)
    (h : reported r.today source ≠ []) : ofText r source = .error (reported r.today source) := by
  rw [abort?] at hnone
  rw [reported] at h ⊢
  split_ifs at h ⊢ with hscript
  · exact ofText_eq_iff.mpr (.misread hscript)
  · have hscript := not_not.mp hscript
    rw [if_pos hscript] at hnone
    exact ofText_eq_iff.mpr (.faulty hscript hnone (mt List.map_eq_nil_iff.mpr h))

theorem ofText_of_eq_nil {r : Request} {source : List Char} (h : reported r.today source = []) :
    ofText r source =
      match ((ofScript r.today (Script.ofText source).value).value.override r).checkSpan with
      | .ok () => .ok ((ofScript r.today (Script.ofText source).value).value.override r)
      | .error e => .error [⟨.first, .setting e⟩] := by
  obtain ⟨hscript, hplan⟩ := reported_eq_nil_iff.mp h
  split
  · exact ofText_eq_iff.mpr (.ok hscript hplan ‹_›)
  · exact ofText_eq_iff.mpr (.outOfSpan hscript hplan ‹_›)

theorem spanFrom_of_ofText {r : Request} {source : List Char} {p : Plan}
    (h : ofText r source = .ok p) :
    p.settings.SpanFrom r ((Script.ofText source).value.options.getD []) := by
  obtain ⟨-, hfaults, rfl, -⟩ := ofText_eq_ok_iff.mp h
  obtain ⟨hstart, hdays⟩ := span_ofScript hfaults
  refine Settings.spanFrom_of_eq ((faults_ofScript_eq_nil_iff _ _).mp hfaults).2.1 ?_ ?_
  · rw [override, hstart]
    rfl
  · rw [override, hdays]
    rfl

theorem eq_of_ofText {r r' : Request} {source : List Char} {p p' : Plan}
    (h : ofText r source = .ok p) (h' : ofText r' source = .ok p') :
    p' = { p with
      settings.start := p'.settings.start
      settings.days := p'.settings.days } := by
  obtain ⟨-, hfaults, rfl, -⟩ := ofText_eq_ok_iff.mp h
  obtain ⟨-, hfaults', rfl, -⟩ := ofText_eq_ok_iff.mp h'
  obtain ⟨start, hstart⟩ := exists_value_ofScript hfaults hfaults'
  rw [hstart]
  rfl

theorem ofText_today {source : List Char}
    (h : Settings.StartWritten ((Script.ofText source).value.options.getD [])) (r : Request)
    (today : Date) : ofText { r with today } source = ofText r source := by
  have hfaults := faults_ofScript_congr h r.today today
  have habort : (Script.ofText source).value.abort? today =
      (Script.ofText source).value.abort? r.today := by
    rw [← findSome?_ofScript, hfaults, findSome?_ofScript]
  generalize hresult : ofText r source = x
  rw [ofText_eq_iff] at hresult ⊢
  cases hresult with
  | misread hscript => exact .misread hscript
  | aborted hscript hwhy => exact .aborted hscript (habort.trans hwhy)
  | faulty hscript hnone hplan =>
      rw [← hfaults] at hplan ⊢
      exact .faulty hscript (habort.trans hnone) hplan
  | outOfSpan hscript hplan hspan =>
      have hvalue := value_ofScript_congr h hplan today
      refine .outOfSpan hscript (hfaults.trans hplan) ?_
      rw [hvalue]
      exact hspan
  | ok hscript hplan hspan =>
      have hvalue := value_ofScript_congr h hplan today
      rw [← hvalue] at hspan ⊢
      exact .ok hscript (hfaults.trans hplan) hspan

/-- The span of days is looked for in the request, then in the last entry of the options, then among
the defaults. A request can only replace it: what is reported of the text itself, and whether it breaks
the program off, is the same for every request on the same date, and any two plans of a text differ in
their spans alone. If the options write the start out as a date, then the date of today decides on
nothing, neither on a graph nor on what is wrong. -/
theorem ofText_precedence (source : List Char) :
    (∀ r, (∀ why, ofText r source = .aborted why ↔ abort? r.today source = some why) ∧
      (abort? r.today source = none → reported r.today source ≠ [] →
        ofText r source = .error (reported r.today source)) ∧
      (reported r.today source = [] → (∃ p, ofText r source = .ok p) ∨
        ∃ e, ofText r source = .error [⟨.first, .setting e⟩])) ∧
    (∀ r p, ofText r source = .ok p →
      p.settings.SpanFrom r ((Script.ofText source).value.options.getD [])) ∧
    (∀ r r' p p', ofText r source = .ok p → ofText r' source = .ok p' → p' = { p with
      settings.start := p'.settings.start
      settings.days := p'.settings.days }) ∧
    (Settings.StartWritten ((Script.ofText source).value.options.getD []) → ∀ (r : Request) today,
      ofText { r with today } source = ofText r source ∧
        evaluate { r with today } source = evaluate r source ∧
          evaluateFully { r with today } source = evaluateFully r source) := by
  refine ⟨fun r => ⟨fun why => ofText_eq_aborted_iff, ofText_of_ne_nil, fun hnil => ?_⟩,
    fun r p => spanFrom_of_ofText, fun r r' p p' => eq_of_ofText,
    fun h r today => ⟨ofText_today h r today, ?_, ?_⟩⟩
  · rw [ofText_of_eq_nil hnil]
    split
    · exact .inl ⟨_, rfl⟩
    · exact .inr ⟨_, rfl⟩
  · rw [evaluate, evaluate, ofText_today h r today]
  · rw [evaluateFully, evaluateFully, ofText_today h r today]

def startTwice : List Char :=
  "options \x7b startDate: \"2024-02-29\", duration: \"2d\", startDate: \"1 March 2024\" \x7d".toList

theorem ofText_precedence_startTwice :
    Settings.StartWritten ((Script.ofText startTwice).value.options.getD []) ∧
      ∃ p, ofText ⟨leapDay, none, some 3⟩ startTwice = .ok p ∧
        leapDay.next? = some p.settings.start ∧ p.settings.days = 3 ∧
          ∀ today, evaluate ⟨today, none, some 3⟩ startTwice =
            evaluate ⟨leapDay, none, some 3⟩ startTwice := by
  have hwritten : Settings.StartWritten ((Script.ofText startTwice).value.options.getD []) := by
    decide +kernel
  have hsome : ((ofText ⟨leapDay, none, some 3⟩ startTwice).toOption.isSome) = true := by
    decide +kernel
  have hentry : (lastProperty? "startDate" ((Script.ofText startTwice).value.options.getD [])).bind
      (·.value.date? leapDay) = leapDay.next? := by
    decide +kernel
  obtain ⟨d, hnext⟩ := Option.isSome_iff_exists.mp
    (show leapDay.next?.isSome by decide +kernel)
  obtain ⟨q, hlast, hdate⟩ := Option.bind_eq_some_iff.mp (hentry.trans hnext)
  obtain ⟨-, hspan, -, htoday⟩ := ofText_precedence startTwice
  obtain ⟨p, h⟩ := Result.exists_ok_of_isSome hsome
  have hp := hspan _ p h
  have hstart := hdate.symm.trans (hp.start_entry rfl q hlast)
  exact ⟨hwritten, p, h, hnext.trans hstart, hp.days_request 3 rfl, fun today =>
    (htoday hwritten ⟨leapDay, none, some 3⟩ today).2.1⟩

end Plan

end Forecast
