import Forecast.Proofs.Script.Names
import Forecast.Proofs.Script.Occurrence
import Forecast.Proofs.Settings

namespace Forecast

open Checked

def PatternLiteral.blamedPart (p : PatternLiteral) : DatePattern.Error → PartLiteral
  | .negativeYear _ => p.year
  | .monthOutOfRange _ => p.month
  | .dayOutOfRange _ => p.day

theorem PatternLiteral.blamedPart_span (p : PatternLiteral) (e : DatePattern.Error) :
    (p.blamedPart e).span = p.blamed e := by
  cases e <;> rfl

/-- The error is about the value of a property: one that does not fit a variable or the options, or
the start or the number of days of a span that leaves the calendar. -/
inductive Script.Blames (today : Date) (s : Script) : Property → Settings.Error → Prop
  | var {d : Declaration} {t : Tracked} {p : Property} {e : Settings.Error}
      (hd : d ∈ s.declarations) (hp : p ∈ d.properties) (h : t.apply p = .error e) :
      Blames today s p e
  | option {d : Settings.Draft} {p : Property} {e : Settings.Error} (hp : p ∈ s.options.getD [])
      (h : d.apply today p = .error e) : Blames today s p e
  | start {p : Property} {start : Date} {days : Nat} {e : Settings.Error}
      (hp : p ∈ s.options.getD []) (hstart : p.start? today = some start)
      (h : Settings.checkHorizon start days = .error e) : Blames today s p e
  | days {p : Property} {start : Date} {days : Nat} {e : Settings.Error}
      (hp : p ∈ s.options.getD []) (hdays : p.days? = some days)
      (h : Settings.checkHorizon start days = .error e) : Blames today s p e

/-- The fault is at a name, a part of a pattern or a value of the script that its problem is
about. -/
def Fault.IsAbout (today : Date) (s : Script) (f : Fault) : Prop :=
  match f.problem with
  | .varExists name | .varNotFound name | .dateExists name | .dateNotFound name =>
    ∃ d ∈ s.declarations, ⟨name, f.span⟩ ∈ d.idents
  | .pattern e => ∃ d ∈ s.declarations, ∃ p, d.pattern? = some p ∧ p.pattern = .error e ∧
    (p.blamedPart e).span = f.span
  | .setting e => ∃ p, s.Blames today p e ∧ p.value.span = f.span
  | _ => False

section Declarations

variable {today : Date} {s : Script} {f : Fault}

theorem isAbout_unknownNames {d : Declaration} (hd : d ∈ s.declarations) {known : List String}
    {names : List Ident} (hnames : names ⊆ d.idents) (hf : f ∈ unknownNames known names) :
    f.IsAbout today s := by
  obtain ⟨x, hx, -, rfl⟩ := (mem_unknownNames_iff known).mp hf
  exact ⟨d, hd, hnames hx⟩

theorem PatternLiteral.isAbout_of_mem_resolve {d : Declaration} (hd : d ∈ s.declarations)
    {p : PatternLiteral} (hp : d.pattern? = some p) (hf : f ∈ p.resolve.faults) :
    f.IsAbout today s := by
  rw [resolve] at hf
  cases h : p.pattern with
  | ok pattern =>
      rw [h] at hf
      cases hf
  | error e =>
      rw [h] at hf
      obtain rfl : f = ⟨p.blamed e, .pattern e⟩ := by simpa using hf
      exact ⟨d, hd, p, hp, h, p.blamedPart_span e⟩

theorem Tracked.isAbout_of_mem_applyAll {d : Declaration} (hd : d ∈ s.declarations) {t : Tracked}
    {ps : List Property} (hps : ps ⊆ d.properties) (hf : f ∈ (t.applyAll ps).faults) :
    f.IsAbout today s := by
  induction ps generalizing t with
  | nil => cases hf
  | cons p rest ih =>
      obtain ⟨hp, hrest⟩ := List.cons_subset.mp hps
      rw [applyAll] at hf
      cases h : t.apply p with
      | ok t' =>
          rw [h] at hf
          exact ih hrest hf
      | error e =>
          rw [h] at hf
          rcases List.mem_cons.mp hf with rfl | hf
          · exact ⟨p, .var hd hp h, rfl⟩
          · exact ih hrest hf

namespace Plan.Draft

theorem isAbout_of_mem_addVar {x : Ident} {e : NumberExpr} {ps : Option (List Property)}
    (hd : .var x e ps ∈ s.declarations) {d : Draft} (hf : f ∈ (d.addVar x e ps).faults) :
    f.IsAbout today s := by
  have hcases : f = ⟨x.span, .varExists x.name⟩ ∨ f ∈ unknownNames d.names e.names ∨
      f ∈ (Tracked.ofProperties x.name ps).faults := by
    rw [addVar] at hf
    by_cases hx : x.name ∈ d.names
    · simpa [hx, faults_resolve_number] using hf
    · exact .inr (by simpa [hx, faults_resolve_number] using hf)
  rcases hcases with rfl | hf | hf
  · exact ⟨_, hd, List.mem_cons_self⟩
  · exact isAbout_unknownNames hd (List.subset_cons_self x e.names) hf
  · refine Tracked.isAbout_of_mem_applyAll hd ?_ hf
    cases ps with
    | none => exact List.nil_subset _
    | some ps => exact List.Subset.refl ps

theorem isAbout_of_mem_addDate {x : Ident} {p : PatternLiteral} (hd : .date x p ∈ s.declarations)
    {d : Draft} (hf : f ∈ (d.addDate x p).faults) : f.IsAbout today s := by
  have hcases : f ∈ p.resolve.faults ∨ f = ⟨x.span, .dateExists x.name⟩ := by
    rw [addDate] at hf
    by_cases hx : (d.dates.lookup x.name).isSome
    · simpa [hx] using hf
    · exact .inl (by simpa [hx] using hf)
  rcases hcases with hf | rfl
  · exact p.isAbout_of_mem_resolve hd rfl hf
  · exact ⟨_, hd, List.mem_singleton_self x⟩

theorem isAbout_of_mem_resolveWhen {table : List (String × DatePattern)} {when : When} {a : Action}
    (hd : .rule when a ∈ s.declarations) (hf : f ∈ (resolveWhen table when).faults) :
    f.IsAbout today s := by
  cases when with
  | pattern p =>
      refine p.isAbout_of_mem_resolve hd rfl ?_
      simpa [resolveWhen] using hf
  | named x =>
      rw [resolveWhen] at hf
      cases h : table.lookup x.name with
      | some pattern =>
          rw [h] at hf
          cases hf
      | none =>
          rw [h] at hf
          obtain rfl : f = ⟨x.span, .dateNotFound x.name⟩ := by simpa using hf
          exact ⟨_, hd, List.mem_cons_self⟩

theorem isAbout_of_mem_addRule {when : When} {a : Action} (hd : .rule when a ∈ s.declarations)
    {table : List (String × DatePattern)} {d : Draft} (hf : f ∈ (d.addRule table when a).faults) :
    f.IsAbout today s := by
  have hcases : f ∈ (resolveWhen table when).faults ∨ f ∈ unknownNames d.names a.names := by
    simpa [addRule, faults_resolve_action] using hf
  rcases hcases with hf | hf
  · exact isAbout_of_mem_resolveWhen hd hf
  · refine isAbout_unknownNames hd ?_ hf
    cases when with
    | pattern p => exact List.Subset.refl _
    | named x => exact List.subset_cons_self x a.names

theorem isAbout_of_mem_addAll {table : List (String × DatePattern)} {d : Draft}
    {ds : List Declaration} (hds : ds ⊆ s.declarations) (hf : f ∈ (d.addAll table ds).faults) :
    f.IsAbout today s := by
  induction ds generalizing d with
  | nil => cases hf
  | cons declaration rest ih =>
      obtain ⟨hd, hrest⟩ := List.cons_subset.mp hds
      rw [addAll, faults_bind] at hf
      rcases List.mem_append.mp hf with hf | hf
      · cases declaration with
        | var x e ps => exact isAbout_of_mem_addVar hd hf
        | date x p => exact isAbout_of_mem_addDate hd hf
        | rule when a => exact isAbout_of_mem_addRule hd hf
      · exact ih hrest hf

end Plan.Draft

end Declarations

namespace Settings

variable {today : Date} {s : Script} {f : Fault}

/-- The start and the number of days of a draft, where they are set, are those of entries at the
places that the draft has noted. -/
structure Draft.SetBy (today : Date) (ps : List Property) (d : Draft) : Prop where
  start : ∀ span ∈ d.startSpan, ∃ p ∈ ps, p.value.span = span ∧
    p.start? today = some d.settings.start
  days : ∀ span ∈ d.daysSpan, ∃ p ∈ ps, p.value.span = span ∧ p.days? = some d.settings.days

theorem Draft.SetBy.apply {ps : List Property} {d e : Draft} {p : Property} (h : d.SetBy today ps)
    (hp : p ∈ ps) (he : d.apply today p = .ok e) : e.SetBy today ps := by
  cases applied_of_apply he with
  | start hstart hdays =>
      refine ⟨?_, h.days⟩
      rintro span ⟨⟩
      exact ⟨p, hp, rfl, hstart⟩
  | days hstart hdays =>
      refine ⟨h.start, ?_⟩
      rintro span ⟨⟩
      exact ⟨p, hp, rfl, hdays⟩
  | other hstart hdays hs hd ht =>
      constructor
      · rw [hs]
        exact h.start
      · rw [hd]
        exact h.days

theorem Draft.SetBy.applyAll {all ps : List Property} {d : Draft} (h : d.SetBy today all)
    (hps : ps ⊆ all) : (d.applyAll today ps).value.SetBy today all := by
  induction ps generalizing d with
  | nil => exact h
  | cons p rest ih =>
      obtain ⟨hp, hrest⟩ := List.cons_subset.mp hps
      rw [Draft.applyAll]
      cases he : d.apply today p with
      | ok e => exact ih (h.apply hp he) hrest
      | error e => exact ih h hrest

theorem Draft.isAbout_of_mem_applyAll {ps : List Property} {d : Draft}
    (hps : ps ⊆ s.options.getD []) (hf : f ∈ (d.applyAll today ps).faults) : f.IsAbout today s := by
  induction ps generalizing d with
  | nil => cases hf
  | cons p rest ih =>
      obtain ⟨hp, hrest⟩ := List.cons_subset.mp hps
      rw [applyAll] at hf
      cases h : d.apply today p with
      | ok e =>
          rw [h] at hf
          exact ih hrest hf
      | error e =>
          rw [h] at hf
          rcases List.mem_cons.mp hf with rfl | hf
          · exact ⟨p, .option hp h, rfl⟩
          · exact ih hrest hf

theorem Draft.isAbout_of_mem_finish {d : Draft} (hd : d.SetBy today (s.options.getD []))
    (hf : f ∈ (d.finish today).faults) : f.IsAbout today s := by
  -- The draft has noted where the values come from that leave the calendar.
  rw [finish] at hf
  split at hf
  · cases hf
  · rename_i _ e span hcheck hstart
    obtain rfl : f = ⟨span, .setting e⟩ := by simpa using hf
    obtain ⟨p, hp, hspan, hvalue⟩ := hd.start span hstart
    exact ⟨p, .start hp hvalue hcheck, hspan⟩
  · rename_i e span hcheck _ hdays
    obtain rfl : f = ⟨span, .setting e⟩ := by simpa using hf
    obtain ⟨p, hp, hspan, hvalue⟩ := hd.days span hdays
    exact ⟨p, .days hp hvalue hcheck, hspan⟩
  · cases hf

theorem isAbout_of_mem_ofProperties {tracked : List Tracked}
    (hf : f ∈ (ofProperties today tracked s.options).faults) : f.IsAbout today s := by
  rw [ofProperties, faults_bind] at hf
  rcases List.mem_append.mp hf with hf | hf
  · exact Draft.isAbout_of_mem_applyAll (List.Subset.refl _) hf
  · refine Draft.isAbout_of_mem_finish (Draft.SetBy.applyAll ?_ (List.Subset.refl _)) hf
    constructor <;> rintro span ⟨⟩

end Settings

theorem Plan.isAbout_of_mem_ofScript {today : Date} {s : Script} {f : Fault}
    (hf : f ∈ (ofScript today s).faults) : f.IsAbout today s := by
  rw [ofScript, faults_bind, faults_bind, faults_pure, List.append_nil] at hf
  rcases List.mem_append.mp hf with hf | hf
  · exact Draft.isAbout_of_mem_addAll (List.Subset.refl _) hf
  · exact Settings.isAbout_of_mem_ofProperties hf

end Forecast
