import Forecast.Proofs.Diagnostics
import Forecast.Proofs.Plan.Accepted
import Forecast.Proofs.Source.Boundary

namespace Forecast

open Checked
open List (Sublist)

def Problem.isNameError : Problem → Bool
  | varExists _ | varNotFound _ | dateExists _ | dateNotFound _ => true
  | _ => false

/-- The variables that are named in an initial value or in an action, targets included, each as
often as it is named. -/
def Declaration.uses : Declaration → List Ident
  | .var _ e _ => e.names
  | .date _ _ => []
  | .rule _ a => a.names

/-- What is wrong with a name of a declaration, given those before it and the names of all dates. -/
inductive Declaration.NameFault (before : List Declaration) (dates : List String) :
    Declaration → Fault → Prop
  | varExists {x : Ident} {e : NumberExpr} {ps : Option (List Property)}
      (hx : x.name ∈ varNames before) :
      NameFault before dates (.var x e ps) ⟨x.span, .varExists x.name⟩
  | varNotFound {d : Declaration} {x : Ident} (hx : x ∈ d.uses) (hname : x.name ∉ varNames before) :
      NameFault before dates d ⟨x.span, .varNotFound x.name⟩
  | dateExists {x : Ident} {p : PatternLiteral} (hx : x.name ∈ dateNames before) :
      NameFault before dates (.date x p) ⟨x.span, .dateExists x.name⟩
  | dateNotFound {x : Ident} {a : Action} (hx : x.name ∉ dates) :
      NameFault before dates (.rule (.named x) a) ⟨x.span, .dateNotFound x.name⟩

def NameFault (ds : List Declaration) (f : Fault) : Prop :=
  ∃ before d after, ds = before ++ d :: after ∧ d.NameFault before (dateNames ds) f

def nameErrors (faults : List Fault) : List Fault := faults.filter (·.problem.isNameError)

@[simp] theorem nameErrors_nil : nameErrors [] = [] := rfl

@[simp] theorem nameErrors_append (fs gs : List Fault) :
    nameErrors (fs ++ gs) = nameErrors fs ++ nameErrors gs :=
  List.filter_append fs gs

theorem nameErrors_cons (f : Fault) (fs : List Fault) :
    nameErrors (f :: fs) = if f.problem.isNameError then f :: nameErrors fs else nameErrors fs :=
  List.filter_cons

theorem mem_nameErrors_iff {f : Fault} {fs : List Fault} :
    f ∈ nameErrors fs ↔ f ∈ fs ∧ f.problem.isNameError :=
  List.mem_filter

@[simp] theorem nameErrors_unknownNames (known : List String) (xs : List Ident) :
    nameErrors (unknownNames known xs) = unknownNames known xs := by
  refine List.filter_eq_self.mpr fun f hf => ?_
  obtain ⟨x, -, rfl⟩ := List.mem_map.mp hf
  rfl

@[simp] theorem PatternLiteral.nameErrors_resolve (p : PatternLiteral) :
    nameErrors p.resolve.faults = [] := by
  rw [resolve]
  cases p.pattern <;> rfl

theorem Tracked.nameErrors_applyAll (t : Tracked) (ps : List Property) :
    nameErrors (t.applyAll ps).faults = [] := by
  induction ps generalizing t with
  | nil => rfl
  | cons p rest ih =>
      rw [applyAll]
      cases t.apply p with
      | ok t' => exact ih t'
      | error e => exact ih t

@[simp] theorem Tracked.nameErrors_ofProperties (name : String) (ps : Option (List Property)) :
    nameErrors (ofProperties name ps).faults = [] :=
  nameErrors_applyAll _ _

namespace Settings

variable (today : Date)

theorem Draft.nameErrors_applyAll (d : Draft) (ps : List Property) :
    nameErrors (d.applyAll today ps).faults = [] := by
  induction ps generalizing d with
  | nil => rfl
  | cons p rest ih =>
      rw [applyAll]
      cases d.apply today p with
      | ok d' => exact ih d'
      | error e => exact ih d

theorem Draft.nameErrors_finish (d : Draft) : nameErrors (d.finish today).faults = [] := by
  rw [finish]
  split <;> rfl

theorem nameErrors_ofProperties (tracked : List Tracked) (ps : Option (List Property)) :
    nameErrors (ofProperties today tracked ps).faults = [] := by
  rw [ofProperties, faults_bind, nameErrors_append, Draft.nameErrors_applyAll,
    Draft.nameErrors_finish, List.append_nil]

end Settings

namespace Plan.Draft

variable (table : List (String × DatePattern)) (d : Draft)

theorem nameErrors_addVar (x : Ident) (e : NumberExpr) (ps : Option (List Property)) :
    nameErrors (d.addVar x e ps).faults =
      (if x.name ∈ d.names then [⟨x.span, .varExists x.name⟩] else []) ++
        unknownNames d.names e.names := by
  rw [addVar]
  by_cases hx : x.name ∈ d.names
  · simp [hx, faults_resolve_number, nameErrors_cons, Problem.isNameError]
  · simp [hx, faults_resolve_number]

theorem nameErrors_addDate (x : Ident) (p : PatternLiteral) :
    nameErrors (d.addDate x p).faults =
      if (d.dates.lookup x.name).isSome then [⟨x.span, .dateExists x.name⟩] else [] := by
  rw [addDate]
  by_cases hx : (d.dates.lookup x.name).isSome
  · simp [hx, nameErrors_cons, Problem.isNameError]
  · simp [hx]

theorem nameErrors_resolveWhen (x : Ident) :
    nameErrors (resolveWhen table (.named x)).faults =
      if (table.lookup x.name).isSome then [] else [⟨x.span, .dateNotFound x.name⟩] := by
  rw [resolveWhen]
  cases table.lookup x.name <;> rfl

theorem nameErrors_addRule (when : When) (a : Action) :
    nameErrors (d.addRule table when a).faults =
      nameErrors (resolveWhen table when).faults ++ unknownNames d.names a.names := by
  simp [addRule, faults_resolve_action]

theorem spans_nameErrors_add (declaration : Declaration) :
    Sublist ((nameErrors (d.add table declaration).faults).map Fault.span)
      (declaration.idents.map Ident.span) := by
  cases declaration with
  | var x e ps =>
      have hnames := spans_unknownNames d.names e.names
      rw [add, nameErrors_addVar, List.map_append]
      split_ifs
      · exact hnames.cons_cons x.span
      · exact hnames.cons x.span
  | date x p =>
      rw [add, nameErrors_addDate]
      split_ifs
      · exact .refl _
      · exact List.nil_sublist _
  | rule when a =>
      have hnames := spans_unknownNames d.names a.names
      rw [add, nameErrors_addRule, List.map_append]
      cases when with
      | pattern p => simpa [resolveWhen, Declaration.idents] using hnames
      | named x =>
          rw [nameErrors_resolveWhen]
          split_ifs
          · exact hnames.cons x.span
          · exact hnames.cons_cons x.span

theorem spans_nameErrors_addAll (ds : List Declaration) :
    Sublist ((nameErrors (d.addAll table ds).faults).map Fault.span)
      ((ds.flatMap Declaration.idents).map Ident.span) := by
  induction ds generalizing d with
  | nil => exact .refl _
  | cons first rest ih =>
      rw [addAll, faults_bind, nameErrors_append, List.map_append, List.flatMap_cons,
        List.map_append]
      exact (spans_nameErrors_add table d first).append (ih _)

theorem mem_nameErrors_addVar_iff {before : List Declaration} (dates : List String) {d : Draft}
    (hnames : ∀ y, y ∈ d.names ↔ y ∈ varNames before) (x : Ident) (e : NumberExpr)
    (ps : Option (List Property)) (f : Fault) :
    f ∈ nameErrors (d.addVar x e ps).faults ↔
      (Declaration.var x e ps).NameFault before dates f := by
  rw [nameErrors_addVar, List.mem_append, mem_unknownNames_iff]
  simp only [hnames]
  constructor
  · rintro (hf | ⟨y, hy, hname, rfl⟩)
    · split_ifs at hf with hx
      · obtain rfl := List.mem_singleton.mp hf
        exact .varExists hx
      · cases hf
    · exact .varNotFound hy hname
  · intro hf
    cases hf with
    | varExists hx =>
        rw [if_pos hx]
        exact .inl (List.mem_singleton_self _)
    | varNotFound hy hname => exact .inr ⟨_, hy, hname, rfl⟩

theorem mem_nameErrors_addDate_iff {before : List Declaration} (dates : List String) {d : Draft}
    (hdates : ∀ y, y ∈ d.dates.map Prod.fst ↔ y ∈ dateNames before) (x : Ident)
    (p : PatternLiteral) (f : Fault) :
    f ∈ nameErrors (d.addDate x p).faults ↔ (Declaration.date x p).NameFault before dates f := by
  rw [nameErrors_addDate]
  simp only [isSome_lookup_iff, hdates]
  constructor
  · intro hf
    split_ifs at hf with hx
    · obtain rfl := List.mem_singleton.mp hf
      exact .dateExists hx
    · cases hf
  · intro hf
    cases hf with
    | varNotFound hy hname => cases hy
    | dateExists hx =>
        rw [if_pos hx]
        exact List.mem_singleton_self _

theorem mem_nameErrors_addRule_iff {before : List Declaration} {dates : List String} {d : Draft}
    (hnames : ∀ y, y ∈ d.names ↔ y ∈ varNames before) (htable : table.map Prod.fst = dates)
    (when : When) (a : Action) (f : Fault) :
    f ∈ nameErrors (d.addRule table when a).faults ↔
      (Declaration.rule when a).NameFault before dates f := by
  rw [nameErrors_addRule, List.mem_append, mem_unknownNames_iff]
  simp only [hnames]
  constructor
  · rintro (hf | ⟨y, hy, hname, rfl⟩)
    · cases when with
      | pattern p => simp [resolveWhen] at hf
      | named x =>
          rw [nameErrors_resolveWhen] at hf
          split_ifs at hf with hx
          · cases hf
          · obtain rfl := List.mem_singleton.mp hf
            rw [isSome_lookup_iff, htable] at hx
            exact .dateNotFound hx
    · exact .varNotFound hy hname
  · intro hf
    cases hf with
    | varNotFound hy hname => exact .inr ⟨_, hy, hname, rfl⟩
    | dateNotFound hx =>
        rw [← htable, ← isSome_lookup_iff] at hx
        rw [nameErrors_resolveWhen, if_neg hx]
        exact .inl (List.mem_singleton_self _)

theorem mem_nameErrors_add_iff (ds before : List Declaration) (declaration : Declaration)
    (f : Fault) :
    f ∈ nameErrors ((empty.addAll (dateTable ds) before).value.add (dateTable ds) declaration).faults ↔
      declaration.NameFault before (dateNames ds) f := by
  have hnames : ∀ y, y ∈ (empty.addAll (dateTable ds) before).value.names ↔ y ∈ varNames before :=
    fun y => mem_names_addAll_iff _ y before
  cases declaration with
  | var x e ps => exact mem_nameErrors_addVar_iff _ hnames x e ps f
  | date x p =>
      refine mem_nameErrors_addDate_iff _ (fun y => ?_) x p f
      rw [mem_dates_addAll_iff]
      simp [empty]
  | rule when a => exact mem_nameErrors_addRule_iff _ hnames (map_fst_dateTable ds) when a f

theorem mem_nameErrors_addAll_iff (ds : List Declaration) (f : Fault) :
    f ∈ nameErrors (empty.addAll (dateTable ds) ds).faults ↔ NameFault ds f := by
  simp only [mem_nameErrors_iff, mem_faults_addAll_iff, NameFault, ← mem_nameErrors_add_iff]
  constructor
  · rintro ⟨⟨before, declaration, after, hsplit, hf⟩, hname⟩
    exact ⟨before, declaration, after, hsplit, hf, hname⟩
  · rintro ⟨before, declaration, after, hsplit, hf, hname⟩
    exact ⟨⟨before, declaration, after, hsplit, hf⟩, hname⟩

end Plan.Draft

section Texts

variable {source : List Char}

theorem Plan.nameErrors_ofScript (today : Date) (s : Script) :
    nameErrors (ofScript today s).faults =
      nameErrors (Draft.empty.addAll (dateTable s.declarations) s.declarations).faults := by
  rw [ofScript, faults_bind, faults_bind, faults_pure, List.append_nil, nameErrors_append,
    Settings.nameErrors_ofProperties, List.append_nil]

theorem Plan.mem_nameErrors_ofScript_iff (today : Date) (s : Script) (f : Fault) :
    f ∈ nameErrors (ofScript today s).faults ↔ NameFault s.declarations f := by
  rw [nameErrors_ofScript, Draft.mem_nameErrors_addAll_iff]

theorem Script.Spelled.pairwise_spans {s : Script} (h : s.Spelled (Token.ofText source)) :
    ((s.declarations.flatMap Declaration.idents).map Ident.span).Pairwise
      fun a b => a.start < b.start := by
  have htokens : ((Token.ofText source).map Token.span).Pairwise fun a b => a.start < b.start :=
    List.pairwise_map.mpr (Token.pairwise_start source)
  refine htokens.sublist ((h.idents_sublist.map Ident.span).trans ?_)
  rw [namesAmong, List.map_map]
  exact List.filter_sublist.map Token.span

theorem Script.pairwise_nameErrors (today : Date) (h : (ofText source).faults = []) :
    (nameErrors (Plan.ofScript today (ofText source).value).faults).Pairwise
      fun f g => f.span.start < g.span.start := by
  have hnames := (spelled_of_faults_eq_nil h).2.pairwise_spans
  rw [Plan.nameErrors_ofScript]
  have hspans := Plan.Draft.spans_nameErrors_addAll (Plan.dateTable (ofText source).value.declarations)
    .empty (ofText source).value.declarations
  exact (List.pairwise_map (f := Fault.span)).mp (hnames.sublist hspans)

theorem Plan.isAt_of_mem_nameErrors {today : Date} (h : (Script.ofText source).faults = []) {f : Fault}
    (hf : f ∈ nameErrors (ofScript today (Script.ofText source).value).faults) :
    f.problem.IsAt today source f.span.start :=
  isAt_of_mem_faults h (mem_nameErrors_iff.mp hf).1

theorem Script.pairwise_before (today : Date) (h : (ofText source).faults = []) :
    ((nameErrors (Plan.ofScript today (ofText source).value).faults).map
      (Diagnostic.ofFault source)).Pairwise fun d e => d.position.Before e.position := by
  refine List.pairwise_map.mpr ((pairwise_nameErrors today h).imp_of_mem ?_)
  intro f g hf hg hlt
  have hfirst := (Plan.isAt_of_mem_nameErrors h hf).exists_append
  have hsecond := (Plan.isAt_of_mem_nameErrors h hg).exists_append
  exact Position.before_ofOffset hfirst hsecond hlt

theorem Plan.filter_of_ofText_eq_error {r : Request} (h : (Script.ofText source).faults = [])
    {ds : List Diagnostic} (hplan : ofText r source = .error ds) :
    ds.filter (·.problem.isNameError) =
      (nameErrors (ofScript r.today (Script.ofText source).value).faults).map (.ofFault source) := by
  cases ofText_eq_iff.mp hplan with
  | misread hscript => exact absurd h hscript
  | faulty h' hnone hfaults =>
      rw [List.filter_map]
      rfl
  | outOfSpan h' hfaults hspan =>
      rw [hfaults]
      rfl

theorem exists_evaluate (r : Request) (h : (Script.ofText source).faults = [])
    (hnone : (Script.ofText source).value.abort? r.today = none) :
    ∃ v, evaluate r source = .ok v ∧ v.diagnostics.filter (·.problem.isNameError) =
      (nameErrors (Plan.ofScript r.today (Script.ofText source).value).faults).map
        (.ofFault source) := by
  cases hplan : Plan.ofText r source with
  | aborted why =>
      rw [Plan.ofText_eq_aborted_iff, Plan.abort?, if_pos h, hnone] at hplan
      cases hplan
  | error ds =>
      refine ⟨⟨ds, none⟩, ?_, Plan.filter_of_ofText_eq_error h hplan⟩
      rw [evaluate, hplan]
  | ok p =>
      obtain ⟨-, hfaults, -, hspan⟩ := Plan.ofText_eq_ok_iff.mp hplan
      obtain ⟨g, last, hsimulate, -⟩ := Plan.exists_graph_of_checkSpan hspan
      refine ⟨⟨[], some g⟩, evaluate_of_simulate hplan hsimulate, ?_⟩
      rw [hfaults]
      rfl

end Texts

/-- Where the tokens of a text are in order, what is reported of the names in it is exactly what is
wrong with them, each fault once and at its name, in the order of the text. A start date that breaks
the program off takes all of it along. -/
theorem evaluate_nameErrors (r : Request) {source : List Char}
    (h : (Script.ofText source).faults = []) :
    (∀ why, (Script.ofText source).value.abort? r.today = some why →
      evaluate r source = .aborted why) ∧
    ((Script.ofText source).value.abort? r.today = none →
      ∃ v, evaluate r source = .ok v ∧
        (∀ d, d ∈ v.diagnostics ∧ d.problem.isNameError ↔
          ∃ f, NameFault (Script.ofText source).value.declarations f ∧ d = .ofFault source f) ∧
        (∀ d ∈ v.diagnostics, d.problem.isNameError → d.PointsAt r.today source) ∧
        (v.diagnostics.filter (·.problem.isNameError)).Pairwise
          fun d e => d.position.Before e.position) := by
  refine ⟨fun why hwhy => ?_, fun hnone => ?_⟩
  · rw [evaluate, Plan.ofText_eq_iff.mpr (.aborted h hwhy)]
  · obtain ⟨v, hv, hreported⟩ := exists_evaluate r h hnone
    have hmem : ∀ d, d ∈ v.diagnostics ∧ d.problem.isNameError ↔
        ∃ f ∈ nameErrors (Plan.ofScript r.today (Script.ofText source).value).faults,
          Diagnostic.ofFault source f = d := by
      intro d
      rw [← List.mem_map, ← hreported, List.mem_filter]
    refine ⟨v, hv, fun d => ?_, ?_, ?_⟩
    · simp only [hmem, Plan.mem_nameErrors_ofScript_iff]
      exact exists_congr fun f => and_congr_right fun _ => eq_comm
    · intro d hd hname
      obtain ⟨f, hf, rfl⟩ := (hmem d).mp ⟨hd, hname⟩
      exact Diagnostic.pointsAt_ofFault (Plan.isAt_of_mem_nameErrors h hf)
    · rw [hreported]
      exact Script.pairwise_before r.today h

/-- A variable and a date that are declared twice, and a rule at an unknown date with unknown names on
both sides of an assignment. -/
def misnamed : List Char :=
  "var a = 1 var a = b date d = *-*-1 date d = *-*-2 at e, x = y".toList

def misnamedProblems : List Problem :=
  [.varExists "a", .varNotFound "b", .dateExists "d", .dateNotFound "e", .varNotFound "x",
    .varNotFound "y"]

theorem evaluate_nameErrors_misnamed : ∃ ds : List Diagnostic,
    ds.map Diagnostic.problem = misnamedProblems ∧
    evaluate ⟨leapDay, none, none⟩ misnamed = .ok ⟨ds, none⟩ ∧
    ∀ d ∈ ds, ∃ f, NameFault (Script.ofText misnamed).value.declarations f ∧
      d = .ofFault misnamed f := by
  have hscript : (Script.ofText misnamed).faults = [] := by decide +kernel
  have hnone : (Script.ofText misnamed).value.abort? leapDay = none := by decide +kernel
  obtain ⟨v, hv, hmem, -⟩ := (evaluate_nameErrors ⟨leapDay, none, none⟩ hscript).2 hnone
  have hproblems : (Plan.ofScript leapDay (Script.ofText misnamed).value).faults.map Fault.problem =
      misnamedProblems := by decide +kernel
  have hplan : (Plan.ofScript leapDay (Script.ofText misnamed).value).faults ≠ [] := by
    intro hnone
    rw [hnone] at hproblems
    cases hproblems
  have herror : Plan.ofText ⟨leapDay, none, none⟩ misnamed = .error
      ((Plan.ofScript leapDay (Script.ofText misnamed).value).faults.map (.ofFault misnamed)) :=
    Plan.ofText_eq_iff.mpr (.faulty hscript hnone hplan)
  have hevaluate : evaluate ⟨leapDay, none, none⟩ misnamed = .ok
      ⟨(Plan.ofScript leapDay (Script.ofText misnamed).value).faults.map (.ofFault misnamed), none⟩ := by
    rw [evaluate, herror]
  obtain rfl := Result.ok.inj (hevaluate.symm.trans hv)
  refine ⟨_, ?_, hevaluate, fun d hd => (hmem d).mp ⟨hd, ?_⟩⟩
  · rw [List.map_map]
    exact hproblems
  · obtain ⟨f, hf, rfl⟩ := List.mem_map.mp hd
    have hname : ∀ p ∈ misnamedProblems, p.isNameError := by decide
    exact hname f.problem (hproblems ▸ List.mem_map_of_mem hf)

def unreported : List Char := "var a = b\noptions \x7b startDate: \"8:30:20.p\" \x7d".toList

/-- A name is wrong, and there are no diagnostics that it could be among. -/
theorem evaluate_ne_unreported :
    (Script.ofText unreported).faults = [] ∧
      NameFault (Script.ofText unreported).value.declarations ⟨⟨8, 9⟩, .varNotFound "b"⟩ ∧
      ¬ ∃ v, evaluate ⟨leapDay, none, none⟩ unreported = .ok v := by
  have hscript : (Script.ofText unreported).faults = [] := by decide +kernel
  have haborted : Plan.ofText ⟨leapDay, none, none⟩ unreported = .aborted .malformedFraction :=
    Plan.ofText_eq_aborted_iff.mpr (by decide +kernel)
  have hfault : ⟨⟨8, 9⟩, .varNotFound "b"⟩ ∈
      nameErrors (Plan.ofScript leapDay (Script.ofText unreported).value).faults := by
    decide +kernel
  refine ⟨hscript, (Plan.mem_nameErrors_ofScript_iff _ _ _).mp hfault, ?_⟩
  rw [evaluate, haborted]
  rintro ⟨v, ⟨⟩⟩

end Forecast
