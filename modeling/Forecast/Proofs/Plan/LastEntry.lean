import Forecast.Proofs.Plan.Presentation
import Forecast.Proofs.Plan.Unplaced

namespace Forecast

open Checked

namespace Checked

variable {α β : Type}

def problems (x : Checked α) : List Problem := x.faults.map Fault.problem

@[simp] theorem problems_pure (a : α) : (pure a : Checked α).problems = [] := rfl

@[simp] theorem problems_bind (x : Checked α) (f : α → Checked β) :
    (x >>= f).problems = x.problems ++ (f x.value).problems :=
  List.map_append

@[simp] theorem problems_report (span : Span) (problem : Problem) :
    (report span problem).problems = [problem] := rfl

@[simp] theorem problems_unplaced (x : Checked α) : x.unplaced.problems = x.problems :=
  List.map_map

end Checked

/-- Two entries with different keys, one right after the other, come in the other order. -/
inductive Exchanges : List Property → List Property → Prop
  | intro (before after : List Property) {p q : Property} (h : p.key.name ≠ q.key.name) :
      Exchanges (before ++ p :: q :: after) (before ++ q :: p :: after)

/-- Some entries are left out: each has a key that is not asked for, or the key of a later entry. -/
inductive Trims (asked : List String) : List Property → List Property → Prop
  | nil : Trims asked [] []
  | keep (p : Property) {rest rest' : List Property} (h : Trims asked rest rest') :
      Trims asked (p :: rest) (p :: rest')
  | drop {p : Property} {rest rest' : List Property}
      (hp : p.key.name ∉ asked ∨ ∃ q ∈ rest, q.key.name = p.key.name) (h : Trims asked rest rest') :
      Trims asked (p :: rest) rest'

variable {asked : List String} {key : String} {ps ps' : List Property} {p q : Property}

theorem Trims.sublist (h : Trims asked ps ps') : ps'.Sublist ps := by
  induction h with
  | nil => exact .slnil
  | keep p h ih => exact ih.cons_cons p
  | drop hp h ih => exact ih.cons _

theorem exists_lastProperty? (h : ∃ q ∈ ps, q.key.name = key) :
    ∃ p, lastProperty? key ps = some p := by
  obtain ⟨q, hq, hkey⟩ := h
  rw [← Option.isSome_iff_exists, lastProperty?, List.find?_isSome]
  exact ⟨q, List.mem_reverse.mpr hq, by simpa using hkey⟩

theorem Trims.lastProperty? (h : Trims asked ps ps') (hkey : key ∈ asked) :
    lastProperty? key ps' = lastProperty? key ps := by
  induction h with
  | nil => rfl
  | keep p h ih => rw [lastProperty?_cons, lastProperty?_cons, ih]
  | @drop p rest rest' hp h ih =>
      rw [lastProperty?_cons, ih]
      by_cases hp' : p.key.name = key
      · have hlater := hp.resolve_left (not_not.mpr (hp' ▸ hkey))
        rw [hp'] at hlater
        obtain ⟨q, hq⟩ := exists_lastProperty? hlater
        rw [hq, Option.some_or]
      · rw [if_neg hp', Option.or_none]

section Decides

variable {β : Type}

/-- The new value is what the last entry of the key tells, and the old one if there is no entry. -/
def Decides (key : String) (f : PropertyValue → Option β) (ps : List Property) (old new : β) :
    Prop :=
  match lastProperty? key ps with
  | some p => f p.value = some new
  | none => new = old

variable {f : PropertyValue → Option β} {old mid new : β}

theorem decides_singleton :
    Decides key f [p] old new ↔ if p.key.name = key then f p.value = some new else new = old := by
  rw [Decides, lastProperty?_cons]
  by_cases hkey : p.key.name = key <;> simp [hkey, lastProperty?]

theorem Decides.cons (hp : Decides key f [p] old mid) (h : Decides key f ps mid new) :
    Decides key f (p :: ps) old new := by
  rw [decides_singleton] at hp
  unfold Decides at *
  rw [lastProperty?_cons]
  cases hlast : lastProperty? key ps with
  | some q =>
      rw [hlast] at h
      exact h
  | none =>
      rw [hlast] at h
      obtain rfl : new = mid := h
      by_cases hkey : p.key.name = key
      · rw [if_pos hkey] at hp
        simpa [hkey] using hp
      · rw [if_neg hkey] at hp
        simpa [hkey] using hp

theorem Decides.unique {new' : β} (h : Decides key f ps old new) (h' : Decides key f ps' old new')
    (hlast : lastProperty? key ps' = lastProperty? key ps) : new' = new := by
  unfold Decides at *
  rw [hlast] at h'
  cases hp : lastProperty? key ps with
  | some p =>
      rw [hp] at h h'
      exact Option.some.inj (h'.symm.trans h)
  | none =>
      rw [hp] at h h'
      exact h'.trans h.symm

end Decides

section TakeAll

variable {σ χ : Type} (change : Property → Except Settings.Error χ) (act : χ → σ → σ)

/-- Makes the change of each entry in turn. An entry that is wrong is reported and changes nothing;
whether it is, and which change it makes, is a matter of the entry alone. -/
def takeAll (s : σ) : List Property → Checked σ
  | [] => pure s
  | p :: rest =>
    match change p with
    | .ok c => takeAll (act c s) rest
    | .error e => do
      Checked.report p.value.span (.setting e)
      takeAll s rest

def KeepsApart : Prop :=
  ∀ p q c c', p.key.name ≠ q.key.name → change p = .ok c → change q = .ok c' →
    ∀ s, act c' (act c s) = act c (act c' s)

variable {change act}

theorem takeAll_append (s : σ) (ps qs : List Property) :
    takeAll change act s (ps ++ qs) =
      takeAll change act s ps >>= fun t => takeAll change act t qs := by
  induction ps generalizing s with
  | nil => rfl
  | cons p ps ih =>
      rw [List.cons_append, takeAll, takeAll]
      cases change p with
      | ok c => exact ih _
      | error e =>
          simp only [ih]
          rfl

theorem takeAll_swap (h : KeepsApart change act) (hne : p.key.name ≠ q.key.name) (s : σ)
    (rest : List Property) :
    (takeAll change act s (q :: p :: rest)).value = (takeAll change act s (p :: q :: rest)).value ∧
      (takeAll change act s (q :: p :: rest)).problems.Perm
        (takeAll change act s (p :: q :: rest)).problems := by
  have hcomm := h p q
  simp only [takeAll]
  cases hp : change p with
  | ok c =>
      cases hq : change q with
      | ok c' =>
          simp only [hcomm c c' hne hp hq s]
          exact ⟨trivial, .refl _⟩
      | error e' => exact ⟨rfl, .refl _⟩
  | error e =>
      cases hq : change q with
      | ok c' => exact ⟨rfl, .refl _⟩
      | error e' => exact ⟨rfl, .swap _ _ _⟩

theorem takeAll_exchanges (h : KeepsApart change act) (s : σ) (hps : Exchanges ps ps') :
    (takeAll change act s ps').value = (takeAll change act s ps).value ∧
      (takeAll change act s ps').problems.Perm (takeAll change act s ps).problems := by
  obtain ⟨before, after, hne⟩ := hps
  obtain ⟨hvalue, hproblems⟩ := takeAll_swap h hne (takeAll change act s before).value after
  rw [takeAll_append, takeAll_append, value_bind, value_bind, problems_bind, problems_bind]
  exact ⟨hvalue, hproblems.append_left _⟩

theorem run_takeAll {P : List Property → σ → σ → Prop} (hnil : ∀ s, P [] s s)
    (hcons : ∀ p ps s t u, P [p] s t → P ps t u → P (p :: ps) s u)
    (hstep : ∀ p c, change p = .ok c → ∀ s, P [p] s (act c s)) (s : σ)
    (h : (takeAll change act s ps).faults = []) : P ps s (takeAll change act s ps).value := by
  induction ps generalizing s with
  | nil => exact hnil s
  | cons p rest ih =>
      rw [takeAll] at h ⊢
      cases hp : change p with
      | ok c =>
          rw [hp] at h
          exact hcons p rest s _ _ (hstep p c hp s) (ih _ h)
      | error e =>
          rw [hp] at h
          cases h

end TakeAll

namespace Settings

inductive Change where
  | start (date : Date) (span : Span)
  | days (n : Nat) (span : Span)
  | height (px : Nat)
  | strokeWidth (x : Float)
  | chartType (t : ChartType)
  | legend (l : Legend)
  | nothing

def Change.act : Change → Draft → Draft
  | start date span, d => { d with settings.start := date, startSpan := some span }
  | days n span, d => { d with settings.days := n, daysSpan := some span }
  | height px, d => { d with settings.height := px }
  | strokeWidth x, d => { d with settings.strokeWidth := x }
  | chartType t, d => { d with settings.chartType := t }
  | legend l, d => { d with settings.legend := l }
  | nothing, d => d

def change (today : Date) (p : Property) : Except Error Change :=
  let key := p.key.name
  match key with
  | "startDate" => do
    return .start (← startDate today (← p.value.expectString key)) p.value.span
  | "duration" => do return .days (← duration (← p.value.expectString key)) p.value.span
  | "height" => do return .height (pixels (← p.value.expectPositive key))
  | "strokeWidth" => do return .strokeWidth (← p.value.expectPositive key)
  | "chartType" => do return .chartType (← ChartType.ofWord (← p.value.expectWord key))
  | "legend" => do return .legend (← Legend.ofWord (← p.value.expectWord key))
  | "label" | "color" => (p.value.expectString key).map fun _ => .nothing
  | _ => .ok .nothing

theorem Draft.apply_eq (today : Date) (d : Draft) (p : Property) :
    d.apply today p = (fun c => c.act d) <$> change today p := by
  unfold apply change
  dsimp only
  generalize p.key.name = key
  split
  case h_7 | h_8 => cases p.value.expectString _ <;> rfl
  case h_9 => simp [*, Change.act]
  all_goals
    simp only [map_bind, map_pure]
    rfl

theorem Draft.applyAll_eq (today : Date) (d : Draft) (ps : List Property) :
    d.applyAll today ps = takeAll (change today) Change.act d ps := by
  induction ps generalizing d with
  | nil => rfl
  | cons p rest ih =>
      rw [applyAll, takeAll, apply_eq]
      cases change today p with
      | ok c => exact ih _
      | error e => exact congrArg (Checked.report p.value.span (.setting e) >>= fun _ => ·) (ih d)

def keys : List String := ["startDate", "duration", "height", "strokeWidth", "chartType", "legend"]

/-- What an entry with a fitting value changes: what its key is about, to what its value says. -/
inductive Change.Of (today : Date) (p : Property) : Change → Prop
  | start {d : Date} (hkey : p.key.name = "startDate") (hvalue : p.value.date? today = some d) :
      Of today p (.start d p.value.span)
  | days {n : Nat} (hkey : p.key.name = "duration") (hvalue : p.value.days? = some n) :
      Of today p (.days n p.value.span)
  | height {x : Float} (hkey : p.key.name = "height") (hvalue : p.value.number? = some x) :
      Of today p (.height (pixels x))
  | strokeWidth {x : Float} (hkey : p.key.name = "strokeWidth")
      (hvalue : p.value.number? = some x) : Of today p (.strokeWidth x)
  | chartType {t : ChartType} (hkey : p.key.name = "chartType")
      (hvalue : p.value.word? = some t.text) : Of today p (.chartType t)
  | legend {l : Legend} (hkey : p.key.name = "legend") (hvalue : p.value.word? = some l.text) :
      Of today p (.legend l)
  | nothing (hkey : p.key.name ∉ keys) : Of today p .nothing

theorem text_of_chartType {word : String} {t : ChartType} (h : ChartType.ofWord word = .ok t) :
    word = t.text := by
  unfold ChartType.ofWord at h
  split at h <;> cases h <;> rfl

theorem text_of_legend {word : String} {l : Legend} (h : Legend.ofWord word = .ok l) :
    word = l.text := by
  unfold Legend.ofWord at h
  split at h <;> cases h <;> rfl

theorem Change.of_change {today : Date} {c : Change} (h : change today p = .ok c) :
    c.Of today p := by
  unfold change at h
  dsimp only at h
  split at h
  case h_1 key hkey =>
      obtain ⟨text, htext, start, hstart, rfl⟩ := by
        simpa only [bind_eq_ok_iff, pure, Except.pure, Except.ok.injEq] using h
      exact .start hkey ((date?_eq_some_iff _).mpr ⟨text, htext, hstart⟩)
  case h_2 key hkey =>
      obtain ⟨text, htext, days, hdays, rfl⟩ := by
        simpa only [bind_eq_ok_iff, pure, Except.pure, Except.ok.injEq] using h
      exact .days hkey ((days?_eq_some_iff _).mpr ⟨text, htext, hdays⟩)
  case h_3 key hkey =>
      obtain ⟨x, hx, rfl⟩ := by
        simpa only [bind_eq_ok_iff, pure, Except.pure, Except.ok.injEq] using h
      exact .height hkey (PropertyValue.expectPositive_eq_ok_iff.mp hx).1
  case h_4 key hkey =>
      obtain ⟨x, hx, rfl⟩ := by
        simpa only [bind_eq_ok_iff, pure, Except.pure, Except.ok.injEq] using h
      exact .strokeWidth hkey (PropertyValue.expectPositive_eq_ok_iff.mp hx).1
  case h_5 key hkey =>
      obtain ⟨word, hword, t, ht, rfl⟩ := by
        simpa only [bind_eq_ok_iff, pure, Except.pure, Except.ok.injEq] using h
      exact .chartType hkey (text_of_chartType ht ▸ PropertyValue.expectWord_eq_ok_iff.mp hword)
  case h_6 key hkey =>
      obtain ⟨word, hword, l, hl, rfl⟩ := by
        simpa only [bind_eq_ok_iff, pure, Except.pure, Except.ok.injEq] using h
      exact .legend hkey (text_of_legend hl ▸ PropertyValue.expectWord_eq_ok_iff.mp hword)
  case h_7 key hkey | h_8 key hkey =>
      obtain ⟨text, -, rfl⟩ := map_eq_ok_iff.mp h
      exact .nothing (by simp [hkey, keys])
  case h_9 =>
      obtain rfl := Except.ok.inj h
      exact .nothing (by simp_all [keys])

theorem keepsApart_change (today : Date) : KeepsApart (change today) Change.act := by
  intro p q c c' hne hp hq s
  cases Change.of_change hp <;> cases Change.of_change hq <;>
    first | rfl | exact absurd (Eq.trans ‹p.key.name = _› (Eq.symm ‹q.key.name = _›)) hne

/-- Each setting is what the last entry of its key tells, or what it was before. -/
structure Decided (today : Date) (ps : List Property) (s t : Settings) : Prop where
  start : Decides "startDate" (·.date? today) ps s.start t.start
  days : Decides "duration" (·.days?) ps s.days t.days
  height : Decides "height" (fun v => v.number?.map pixels) ps s.height t.height
  strokeWidth : Decides "strokeWidth" (·.number?) ps s.strokeWidth t.strokeWidth
  chartType : Decides "chartType" (·.word?) ps s.chartType.text t.chartType.text
  legend : Decides "legend" (·.word?) ps s.legend.text t.legend.text
  tracked : t.tracked = s.tracked

variable {today : Date} {tracked : List Tracked} {s t t' : Settings}

theorem Decided.nil (s : Settings) : Decided today [] s s := by
  constructor <;> rfl

theorem Decided.cons {u : Settings} (hp : Decided today [p] s t) (h : Decided today ps t u) :
    Decided today (p :: ps) s u where
  start := hp.start.cons h.start
  days := hp.days.cons h.days
  height := hp.height.cons h.height
  strokeWidth := hp.strokeWidth.cons h.strokeWidth
  chartType := hp.chartType.cons h.chartType
  legend := hp.legend.cons h.legend
  tracked := h.tracked.trans hp.tracked

theorem text_injective_chartType {t t' : ChartType} (h : t.text = t'.text) : t = t' := by
  cases t <;> cases t' <;> first | rfl | simp [ChartType.text] at h

theorem text_injective_legend {l l' : Legend} (h : l.text = l'.text) : l = l' := by
  cases l <;> cases l' <;> first | rfl | simp [Legend.text] at h

theorem Decided.unique (h : Decided today ps s t) (h' : Decided today ps' s t')
    (hlast : ∀ key ∈ keys, lastProperty? key ps' = lastProperty? key ps) : t' = t := by
  have hstart := h.start.unique h'.start (hlast _ (by decide))
  have hdays := h.days.unique h'.days (hlast _ (by decide))
  have hheight := h.height.unique h'.height (hlast _ (by decide))
  have hwidth := h.strokeWidth.unique h'.strokeWidth (hlast _ (by decide))
  have htype := text_injective_chartType (h.chartType.unique h'.chartType (hlast _ (by decide)))
  have hlegend := text_injective_legend (h.legend.unique h'.legend (hlast _ (by decide)))
  have htracked := h'.tracked.trans h.tracked.symm
  obtain ⟨start, days, height, shown, type, width, legend⟩ := t
  obtain ⟨start', days', height', shown', type', width', legend'⟩ := t'
  simp_all

theorem Change.Of.decided {c : Change} (h : c.Of today p) (d : Draft) :
    Decided today [p] d.settings (c.act d).settings := by
  cases h <;> constructor <;> simp_all [decides_singleton, act, keys]

theorem decided_ofProperties (h : (ofProperties today tracked (some ps)).faults = []) :
    Decided today ps (default today tracked) (ofProperties today tracked (some ps)).value := by
  rw [value_ofProperties h]
  rw [ofProperties, faults_bind, List.append_eq_nil_iff] at h
  have hall := h.1
  rw [Option.getD_some, Draft.applyAll_eq] at hall ⊢
  exact run_takeAll (P := fun ps d e => Decided today ps d.settings e.settings) (fun d => .nil _)
    (fun _ _ _ _ _ => .cons) (fun p c hc d => (Change.of_change hc).decided d) _ hall

theorem ofProperties_exchanges (today : Date) (tracked : List Tracked) (hps : Exchanges ps ps') :
    (ofProperties today tracked (some ps')).value = (ofProperties today tracked (some ps)).value ∧
      (ofProperties today tracked (some ps')).problems.Perm
        (ofProperties today tracked (some ps)).problems := by
  obtain ⟨hvalue, hproblems⟩ :=
    takeAll_exchanges (keepsApart_change today) ⟨default today tracked, none, none⟩ hps
  simp only [ofProperties, Option.getD_some, Draft.applyAll_eq, value_bind, problems_bind, hvalue]
  exact ⟨trivial, hproblems.append_right _⟩

theorem faults_ofProperties_trims (hps : Trims keys ps ps')
    (h : (ofProperties today tracked (some ps)).faults = []) :
    (ofProperties today tracked (some ps')).faults = [] := by
  rw [faults_ofProperties_eq_nil_iff, Option.getD_some] at h ⊢
  obtain ⟨hadmissible, hspan⟩ := h
  have hadmissible' : ∀ p ∈ ps', p.Admissible today := fun p hp =>
    hadmissible p (hps.sublist.subset hp)
  rw [startOf?_eq_lastProperty? hadmissible, daysOf?_eq_lastProperty? hadmissible] at hspan
  rw [startOf?_eq_lastProperty? hadmissible', daysOf?_eq_lastProperty? hadmissible',
    hps.lastProperty? (by decide), hps.lastProperty? (by decide)]
  exact ⟨hadmissible', hspan⟩

end Settings

namespace Tracked

def keys : List String := ["label", "color"]

def change (p : Property) : Except Settings.Error (Tracked → Tracked) :=
  match p.key.name with
  | "label" => (p.value.expectString "label").map fun label t => { t with label }
  | "color" => (p.value.expectString "color").map fun color t => { t with color := some color }
  | _ => .ok id

theorem apply_eq (t : Tracked) (p : Property) : t.apply p = (fun f => f t) <$> change p := by
  unfold apply change
  generalize p.key.name = key
  split
  case h_1 => cases p.value.expectString "label" <;> rfl
  case h_2 => cases p.value.expectString "color" <;> rfl
  case h_3 => simp [*]

theorem applyAll_eq (t : Tracked) (ps : List Property) :
    t.applyAll ps = takeAll change (fun f t => f t) t ps := by
  induction ps generalizing t with
  | nil => rfl
  | cons p rest ih =>
      rw [applyAll, takeAll, apply_eq]
      cases change p with
      | ok f => exact ih _
      | error e => exact congrArg (Checked.report p.value.span (.setting e) >>= fun _ => ·) (ih t)

/-- The label and the color are what the last entries of their keys tell, or what they were
before. -/
structure Decided (ps : List Property) (t u : Tracked) : Prop where
  key : u.key = t.key
  label : Decides "label" (·.string?) ps t.label u.label
  color : Decides "color" (fun v => v.string?.map some) ps t.color u.color

variable {t u u' : Tracked}

theorem Decided.nil (t : Tracked) : Decided [] t t := by
  constructor <;> rfl

theorem Decided.cons {v : Tracked} (hp : Decided [p] t u) (h : Decided ps u v) :
    Decided (p :: ps) t v where
  key := h.key.trans hp.key
  label := hp.label.cons h.label
  color := hp.color.cons h.color

theorem Decided.unique (h : Decided ps t u) (h' : Decided ps' t u')
    (hlast : ∀ key ∈ keys, lastProperty? key ps' = lastProperty? key ps) : u' = u := by
  have hkey := h'.key.trans h.key.symm
  have hlabel := h.label.unique h'.label (hlast _ (by decide))
  have hcolor := h.color.unique h'.color (hlast _ (by decide))
  obtain ⟨key, label, color⟩ := u
  obtain ⟨key', label', color'⟩ := u'
  simp_all

inductive Change (p : Property) : (Tracked → Tracked) → Prop
  | label {text : String} (hkey : p.key.name = "label") (hvalue : p.value.string? = some text) :
      Change p fun t => { t with label := text }
  | color {text : String} (hkey : p.key.name = "color") (hvalue : p.value.string? = some text) :
      Change p fun t => { t with color := some text }
  | nothing (hkey : p.key.name ∉ keys) : Change p id

theorem change_of_eq_ok {f : Tracked → Tracked} (h : change p = .ok f) : Change p f := by
  have hstring : ∀ {key text : String}, p.value.expectString key = .ok text →
      p.value.string? = some text := by
    intro key text htext
    obtain ⟨span, hvalue⟩ := PropertyValue.expectString_eq_ok_iff.mp htext
    rw [hvalue, PropertyValue.string?]
  unfold change at h
  split at h
  case h_1 hkey =>
      obtain ⟨text, htext, rfl⟩ := map_eq_ok_iff.mp h
      exact .label hkey (hstring htext)
  case h_2 hkey =>
      obtain ⟨text, htext, rfl⟩ := map_eq_ok_iff.mp h
      exact .color hkey (hstring htext)
  case h_3 =>
      obtain rfl := Except.ok.inj h
      exact .nothing (by simp_all [keys])

theorem keepsApart_change : KeepsApart change fun (f : Tracked → Tracked) t => f t := by
  intro p q f g hne hp hq t
  cases change_of_eq_ok hp <;> cases change_of_eq_ok hq <;>
    first | rfl | exact absurd (Eq.trans ‹p.key.name = _› (Eq.symm ‹q.key.name = _›)) hne

theorem Change.decided {f : Tracked → Tracked} (h : Change p f) (t : Tracked) :
    Decided [p] t (f t) := by
  cases h <;> constructor <;> simp_all [decides_singleton, keys]

variable {name : String}

theorem decided_ofProperties (h : (ofProperties name (some ps)).faults = []) :
    Decided ps ⟨name, name, none⟩ (ofProperties name (some ps)).value := by
  rw [ofProperties, Option.getD_some, applyAll_eq] at h ⊢
  exact run_takeAll .nil (fun _ _ _ _ _ => .cons)
    (fun p f hf t => (change_of_eq_ok hf).decided t) _ h

theorem ofProperties_exchanges (name : String) (hps : Exchanges ps ps') :
    (ofProperties name (some ps')).value = (ofProperties name (some ps)).value ∧
      (ofProperties name (some ps')).problems.Perm (ofProperties name (some ps)).problems := by
  simp only [ofProperties, Option.getD_some, applyAll_eq]
  exact takeAll_exchanges keepsApart_change _ hps

theorem faults_ofProperties_trims (hps : Trims keys ps ps')
    (h : (ofProperties name (some ps)).faults = []) :
    (ofProperties name (some ps')).faults = [] := by
  rw [ofProperties, faults_applyAll_eq_nil_iff, Option.getD_some] at h ⊢
  exact fun p hp => h p (hps.sublist.subset hp)

end Tracked

/-- A way to read lists of entries in which the last entry of a key counts. Places do not matter:
the list with other entries, or with its entries in another order, may stand anywhere in a text. -/
structure LastCounts {α : Type} (asked : List String) (read : List Property → Checked α)
    (decided : List Property → α → Prop) : Prop where
  /-- The order of neighbours with different keys does not matter, neither for what is read nor for
  what is wrong. -/
  exchange : ∀ ps ps', Exchanges (ps.map Property.unplaced) (ps'.map Property.unplaced) →
    (read ps').value = (read ps).value ∧ (read ps').problems.Perm (read ps).problems
  decided : ∀ ps, (read ps).faults = [] → decided ps (read ps).value
  /-- What does not count may be left out. -/
  trim : ∀ ps ps', Trims asked (ps.map Property.unplaced) (ps'.map Property.unplaced) →
    (read ps).faults = [] → (read ps').faults = [] ∧ (read ps').value = (read ps).value

theorem LastCounts.of_unplaced {α : Type} {asked : List String} {read : List Property → Checked α}
    {decided : List Property → α → Prop}
    (hread : ∀ ps, read (ps.map Property.unplaced) = (read ps).unplaced)
    (hexchange : ∀ ps ps', Exchanges ps ps' →
      (read ps').value = (read ps).value ∧ (read ps').problems.Perm (read ps).problems)
    (hdecided : ∀ ps, (read ps).faults = [] → decided ps (read ps).value)
    (htrim : ∀ ps ps', Trims asked ps ps' → (read ps).faults = [] → (read ps').faults = [])
    (hunique : ∀ ps ps' a a', (∀ key ∈ asked, lastProperty? key ps' = lastProperty? key ps) →
      decided ps a → decided ps' a' → a' = a) : LastCounts asked read decided where
  exchange ps ps' hps := by
    have h := hexchange _ _ hps
    simpa only [hread, value_unplaced, problems_unplaced] using h
  decided := hdecided
  trim ps ps' hps h := by
    have hfaults : (read (ps.map Property.unplaced)).faults = [] := by
      rw [hread, faults_unplaced_eq_nil_iff, h]
    have hfaults' := htrim _ _ hps hfaults
    have hvalue := hunique _ _ _ _ (fun key hkey => hps.lastProperty? hkey) (hdecided _ hfaults)
      (hdecided _ hfaults')
    rw [hread, faults_unplaced_eq_nil_iff] at hfaults'
    rw [hread, hread, value_unplaced, value_unplaced] at hvalue
    exact ⟨hfaults', hvalue⟩

/-- In the options of a script and in the properties of a variable the last entry of a key counts.
Neighbours with different keys may come in either order, which changes neither the result nor what
is reported but for the order of the reports. If nothing is reported, each setting is what the last
entry of its key tells or else its default, and entries under a key that has a later entry, or that
is not asked for, may be left out; labels and colors are not asked for among the options. -/
theorem lastCounts_ofProperties (today : Date) (tracked : List Tracked) (name : String) :
    LastCounts Settings.keys (fun ps => Settings.ofProperties today tracked (some ps))
      (fun ps => Settings.Decided today ps (Settings.default today tracked)) ∧
    LastCounts Tracked.keys (fun ps => Tracked.ofProperties name (some ps))
      (fun ps => Tracked.Decided ps ⟨name, name, none⟩) := by
  constructor
  · exact .of_unplaced (fun ps => Settings.ofProperties_unplaced today tracked (some ps))
      (fun ps ps' => Settings.ofProperties_exchanges today tracked)
      (fun ps => Settings.decided_ofProperties) (fun ps ps' => Settings.faults_ofProperties_trims)
      fun ps ps' s s' hlast h h' => h.unique h' hlast
  · exact .of_unplaced (fun ps => Tracked.ofProperties_unplaced name (some ps))
      (fun ps ps' => Tracked.ofProperties_exchanges name)
      (fun ps => Tracked.decided_ofProperties) (fun ps ps' => Tracked.faults_ofProperties_trims)
      fun ps ps' t t' hlast h h' => h.unique h' hlast

def hesitantOptions : List Property :=
  [⟨⟨"duration", ⟨10, 18⟩⟩, .string "9w" ⟨20, 24⟩⟩,
    ⟨⟨"weight", ⟨26, 32⟩⟩, .number true ⟨7, 0⟩ ⟨34, 36⟩⟩,
    ⟨⟨"legend", ⟨38, 44⟩⟩, .name ⟨"none", ⟨46, 50⟩⟩⟩,
    ⟨⟨"color", ⟨52, 57⟩⟩, .string "red" ⟨59, 64⟩⟩,
    ⟨⟨"duration", ⟨66, 74⟩⟩, .string "2d" ⟨76, 80⟩⟩]

def decidedOptions : List Property :=
  [⟨⟨"legend", ⟨10, 16⟩⟩, .name ⟨"none", ⟨18, 22⟩⟩⟩,
    ⟨⟨"duration", ⟨24, 32⟩⟩, .string "2d" ⟨34, 38⟩⟩]

theorem lastCounts_ofProperties_hesitant :
    Trims Settings.keys (hesitantOptions.map Property.unplaced)
      (decidedOptions.map Property.unplaced) ∧
    (Settings.ofProperties leapDay [] (some decidedOptions)).value =
      (Settings.ofProperties leapDay [] (some hesitantOptions)).value ∧
    (Settings.ofProperties leapDay [] (some decidedOptions)).value.days = 2 ∧
    (Settings.ofProperties leapDay [] (some decidedOptions.reverse)).value =
      (Settings.ofProperties leapDay [] (some decidedOptions)).value := by
  obtain ⟨⟨hexchange, hdecided, htrim⟩, -⟩ := lastCounts_ofProperties leapDay [] "a"
  have htrims : Trims Settings.keys (hesitantOptions.map Property.unplaced)
      (decidedOptions.map Property.unplaced) :=
    .drop (by decide) (.drop (by decide) (.keep _ (.drop (by decide) (.keep _ .nil))))
  have hfaults : (Settings.ofProperties leapDay [] (some hesitantOptions)).faults = [] := by
    decide +kernel
  obtain ⟨hfaults', hvalue⟩ := htrim _ _ htrims hfaults
  have hdays : some 2 = some _ := (hdecided decidedOptions hfaults').days
  refine ⟨htrims, hvalue, (Option.some.inj hdays).symm, ?_⟩
  exact (hexchange decidedOptions decidedOptions.reverse (.intro [] [] (by decide))).1

end Forecast
