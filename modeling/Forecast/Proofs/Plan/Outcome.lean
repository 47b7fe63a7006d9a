import Forecast.Evaluation
import Forecast.Proofs.Plan.Faults

namespace Forecast

open Checked

def PropertyValue.abort? (today : Date) : PropertyValue → Option Abort
  | .string text _ => (StartDate.ofText today text.toList).abort?
  | _ => none

def Property.abort? (today : Date) (p : Property) : Option Abort :=
  if p.key.name = "startDate" then p.value.abort? today else none

def Script.abort? (today : Date) (s : Script) : Option Abort :=
  (s.options.getD []).findSome? (·.abort? today)

namespace Settings

variable {α β : Type} {today : Date} {d : Draft} {p : Property}

def abortOf : Except Error α → Option Abort
  | .ok _ => none
  | .error e => e.abort?

theorem abortOf_bind {x : Except Error α} {f : α → Except Error β}
    (hf : ∀ a, abortOf (f a) = none) : abortOf (x >>= f) = abortOf x := by
  cases x with
  | error e => rfl
  | ok a => exact hf a

theorem abortOf_map (x : Except Error α) (f : α → β) : abortOf (x.map f) = abortOf x := by
  cases x <;> rfl

theorem abortOf_expectString (key : String) (v : PropertyValue) :
    abortOf (v.expectString key) = none := by
  cases v <;> rfl

theorem abortOf_expectWord (key : String) (v : PropertyValue) :
    abortOf (v.expectWord key) = none := by
  cases v <;> rfl

theorem abortOf_expectPositive (key : String) (v : PropertyValue) :
    abortOf (v.expectPositive key) = none := by
  cases v with
  | string text span | name x => rfl
  | number negative magnitude span =>
      simp only [PropertyValue.expectPositive]
      split_ifs <;> rfl

theorem abortOf_chartType (word : String) : abortOf (ChartType.ofWord word) = none := by
  unfold ChartType.ofWord
  split <;> rfl

theorem abortOf_legend (word : String) : abortOf (Legend.ofWord word) = none := by
  unfold Legend.ofWord
  split <;> rfl

theorem abortOf_duration (text : String) : abortOf (duration text) = none := by
  unfold duration
  split <;> rfl

theorem abortOf_checkHorizon (start : Date) (days : Nat) :
    abortOf (checkHorizon start days) = none := by
  rw [checkHorizon]
  split_ifs <;> rfl

theorem abortOf_trackedApply (t : Tracked) (p : Property) : abortOf (t.apply p) = none := by
  rw [Tracked.apply]
  split
  case h_1 | h_2 => rw [abortOf_map, abortOf_expectString]
  case h_3 => rfl

theorem abortOf_startDate (today : Date) (text : String) :
    abortOf (startDate today text) = (StartDate.ofText today text.toList).abort? := by
  rw [startDate]
  cases StartDate.ofText today text.toList <;> rfl

/-- An entry of the options breaks the program off whatever the entries before it have made. -/
theorem abortOf_apply (today : Date) (d : Draft) (p : Property) :
    abortOf (d.apply today p) = p.abort? today := by
  rw [Property.abort?, Draft.apply]
  dsimp only
  split
  case h_1 hkey =>
      rw [if_pos hkey]
      cases p.value with
      | string text span =>
          change abortOf (startDate today text >>= _) = _
          rw [abortOf_bind fun _ => rfl, abortOf_startDate]
          rfl
      | number negative magnitude span | name x => rfl
  case h_2 hkey =>
      rw [if_neg (by simp [hkey]), abortOf_bind fun _ => ?_, abortOf_expectString]
      rw [abortOf_bind fun _ => rfl, abortOf_duration]
  case h_3 hkey | h_4 hkey =>
      rw [if_neg (by simp [hkey]), abortOf_bind fun _ => rfl, abortOf_expectPositive]
  case h_5 hkey =>
      rw [if_neg (by simp [hkey]), abortOf_bind fun _ => ?_, abortOf_expectWord]
      rw [abortOf_bind fun _ => rfl, abortOf_chartType]
  case h_6 hkey =>
      rw [if_neg (by simp [hkey]), abortOf_bind fun _ => ?_, abortOf_expectWord]
      rw [abortOf_bind fun _ => rfl, abortOf_legend]
  case h_7 hkey | h_8 hkey =>
      rw [if_neg (by simp [hkey]), abortOf_map, abortOf_expectString]
  case h_9 =>
      rw [if_neg (by assumption)]
      rfl

theorem findSome?_applyAll (today : Date) (d : Draft) (ps : List Property) :
    (d.applyAll today ps).faults.findSome? (·.problem.abort?) =
      ps.findSome? (·.abort? today) := by
  induction ps generalizing d with
  | nil => rfl
  | cons p rest ih =>
      rw [Draft.applyAll, List.findSome?_cons, ← abortOf_apply today d p]
      cases d.apply today p with
      | ok e => exact ih e
      | error e =>
          rw [faults_bind, faults_report, List.singleton_append, List.findSome?_cons, ih]
          rfl

theorem findSome?_finish (today : Date) (d : Draft) :
    (d.finish today).faults.findSome? (·.problem.abort?) = none := by
  have hcheck := abortOf_checkHorizon d.settings.start d.settings.days
  rw [Draft.finish]
  split
  case h_1 | h_4 => rfl
  case h_2 e span hhorizon _ | h_3 e span hhorizon _ _ =>
      rw [hhorizon] at hcheck
      have hnone : e.abort? = none := hcheck
      simp [Problem.abort?, hnone]

theorem findSome?_ofProperties (tracked : List Tracked) (ps : Option (List Property)) :
    (ofProperties today tracked ps).faults.findSome? (·.problem.abort?) =
      (ps.getD []).findSome? (·.abort? today) := by
  rw [ofProperties, faults_bind, List.findSome?_append, findSome?_applyAll, findSome?_finish,
    Option.or_none]

end Settings

namespace Plan

theorem findSome?_addAll (table : List (String × DatePattern)) (d : Draft)
    (ds : List Declaration) :
    (d.addAll table ds).faults.findSome? (·.problem.abort?) = none := by
  refine List.findSome?_eq_none_iff.mpr fun ⟨span, problem⟩ hf => ?_
  have today : Date := ⟨2000, 2, 2, by decide, by decide, by decide⟩
  have habout : Fault.IsAbout today ⟨ds, none⟩ ⟨span, problem⟩ :=
    Draft.isAbout_of_mem_addAll (List.Subset.refl _) hf
  cases problem with
  | setting e =>
      obtain ⟨p, hblames, -⟩ := habout
      cases hblames with
      | @var _ t _ _ hd hp h =>
          have hnone := Settings.abortOf_trackedApply t p
          rw [h] at hnone
          exact hnone
      | option hp h => cases hp
      | start hp hstart h => cases hp
      | days hp hdays h => cases hp
  | _ => rfl

theorem findSome?_ofScript (today : Date) (s : Script) :
    (ofScript today s).faults.findSome? (·.problem.abort?) = s.abort? today := by
  rw [ofScript, faults_bind, faults_bind, faults_pure, List.append_nil, List.findSome?_append,
    findSome?_addAll, Settings.findSome?_ofProperties, Option.none_or]
  rfl

/-- What becomes of a text. Broken text and wrong tokens come first, then a start date that breaks
the program off, then what else is wrong with the plan, and the span of days in the end. -/
inductive Outcome (r : Request) (source : List Char) : Result (List Diagnostic) Plan → Prop
  | misread (h : (Script.ofText source).faults ≠ []) :
      Outcome r source (.error ((Script.ofText source).faults.map (.ofFault source)))
  | aborted {why : Abort} (h : (Script.ofText source).faults = [])
      (hwhy : (Script.ofText source).value.abort? r.today = some why) :
      Outcome r source (.aborted why)
  | faulty (h : (Script.ofText source).faults = [])
      (hnone : (Script.ofText source).value.abort? r.today = none)
      (hplan : (ofScript r.today (Script.ofText source).value).faults ≠ []) :
      Outcome r source
        (.error ((ofScript r.today (Script.ofText source).value).faults.map (.ofFault source)))
  | outOfSpan {e : Settings.Error} (h : (Script.ofText source).faults = [])
      (hplan : (ofScript r.today (Script.ofText source).value).faults = [])
      (hspan : ((ofScript r.today (Script.ofText source).value).value.override r).checkSpan =
        .error e) :
      Outcome r source (.error [⟨.first, .setting e⟩])
  | ok (h : (Script.ofText source).faults = [])
      (hplan : (ofScript r.today (Script.ofText source).value).faults = [])
      (hspan : ((ofScript r.today (Script.ofText source).value).value.override r).checkSpan =
        .ok ()) :
      Outcome r source (.ok ((ofScript r.today (Script.ofText source).value).value.override r))

theorem abortOf_checkSpan (p : Plan) : Settings.abortOf p.checkSpan = none := by
  rw [checkSpan, Settings.checkDays]
  split_ifs
  · exact Settings.abortOf_checkHorizon _ _
  · rfl

variable {r : Request} {source : List Char}

theorem ofText_eq_iff {x : Result (List Diagnostic) Plan} :
    ofText r source = x ↔ Outcome r source x := by
  have hnone : (ofScript r.today (Script.ofText source).value).faults = [] →
      (Script.ofText source).value.abort? r.today = none := by
    intro hplan
    rw [← findSome?_ofScript, hplan]
    rfl
  constructor
  · rintro rfl
    rw [ofText]
    split_ifs with h
    · exact .misread h
    · have h := not_not.mp h
      rw [finish, findSome?_ofScript]
      split
      · exact .aborted h ‹_›
      · split_ifs with hplan
        · exact .faulty h ‹_› hplan
        · have hplan := not_not.mp hplan
          dsimp only
          split
          · exact .ok h hplan ‹_›
          · exact .outOfSpan h hplan ‹_›
  · intro h
    cases h with
    | misread h => rw [ofText, if_pos h]
    | aborted h hwhy => rw [ofText, if_neg (not_not.mpr h), finish, findSome?_ofScript, hwhy]
    | faulty h hnone hplan =>
        rw [ofText, if_neg (not_not.mpr h), finish, findSome?_ofScript, hnone]
        exact if_pos hplan
    | outOfSpan h hplan hspan | ok h hplan hspan =>
        rw [ofText, if_neg (not_not.mpr h), finish, findSome?_ofScript, hnone hplan]
        dsimp only
        rw [if_neg (not_not.mpr hplan), hspan]

/-- What a text breaks the program off with; where a token is wrong no start date is read. -/
def abort? (today : Date) (source : List Char) : Option Abort :=
  if (Script.ofText source).faults = [] then (Script.ofText source).value.abort? today else none

theorem ofText_eq_aborted_iff {why : Abort} :
    ofText r source = .aborted why ↔ abort? r.today source = some why := by
  rw [ofText_eq_iff, abort?, Option.ite_none_right_eq_some]
  constructor
  · rintro (_ | ⟨h, hwhy⟩)
    exact ⟨h, hwhy⟩
  · rintro ⟨h, hwhy⟩
    exact .aborted h hwhy

theorem abort?_eq_none (h : ∀ why, ofText r source ≠ .aborted why) :
    abort? r.today source = none :=
  Option.eq_none_iff_forall_ne_some.mpr fun why hwhy => h why (ofText_eq_aborted_iff.mpr hwhy)

theorem ofText_eq_ok_iff {p : Plan} :
    ofText r source = .ok p ↔ (Script.ofText source).faults = [] ∧
      (ofScript r.today (Script.ofText source).value).faults = [] ∧
        (ofScript r.today (Script.ofText source).value).value.override r = p ∧
          p.checkSpan = .ok () := by
  rw [ofText_eq_iff]
  constructor
  · intro h
    cases h with
    | ok h hplan hspan => exact ⟨h, hplan, rfl, hspan⟩
  · rintro ⟨h, hplan, rfl, hspan⟩
    exact .ok h hplan hspan

theorem ne_nil_of_ofText_eq_error {ds : List Diagnostic} (h : ofText r source = .error ds) :
    ds ≠ [] := by
  cases ofText_eq_iff.mp h with
  | misread hne => simpa using hne
  | faulty h' hnone hne => simpa using hne
  | outOfSpan => exact List.cons_ne_nil _ _

theorem abort?_of_mem_faults {f : Fault} (hf : f ∈ (Script.ofText source).faults) :
    f.problem.abort? = none := by
  rcases List.mem_append.mp hf with hf | hf
  · obtain ⟨⟨span, text⟩, -, rfl⟩ := List.mem_map.mp hf
    rfl
  · obtain ⟨⟨token, cause⟩, -, rfl⟩ := List.mem_map.mp hf
    cases token <;> cases cause <;> rfl

/-- Nothing that is reported has broken the program off. -/
theorem abort?_of_ofText_eq_error {ds : List Diagnostic} (h : ofText r source = .error ds)
    {d : Diagnostic} (hd : d ∈ ds) : d.problem.abort? = none := by
  cases ofText_eq_iff.mp h with
  | misread =>
      obtain ⟨f, hf, rfl⟩ := List.mem_map.mp hd
      exact abort?_of_mem_faults hf
  | faulty h' hnone =>
      obtain ⟨f, hf, rfl⟩ := List.mem_map.mp hd
      rw [← findSome?_ofScript] at hnone
      exact List.findSome?_eq_none_iff.mp hnone f hf
  | @outOfSpan e h' hplan hspan =>
      obtain rfl := List.mem_singleton.mp hd
      have hnone := abortOf_checkSpan
        ((ofScript r.today (Script.ofText source).value).value.override r)
      rw [hspan] at hnone
      exact hnone

end Plan

end Forecast
