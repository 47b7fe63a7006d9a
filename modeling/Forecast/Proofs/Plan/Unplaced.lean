import Forecast.Proofs.Evaluation
import Forecast.Proofs.Script.Complete
import Forecast.Proofs.Script.Unplaced

namespace Forecast

def Fault.unplaced (f : Fault) : Fault := ⟨⟨0, 0⟩, f.problem⟩

namespace Checked

variable {α β : Type}

def unplaced (x : Checked α) : Checked α := ⟨x.value, x.faults.map Fault.unplaced⟩

@[simp] theorem value_unplaced (x : Checked α) : x.unplaced.value = x.value := rfl

@[simp] theorem faults_unplaced_eq_nil_iff (x : Checked α) :
    x.unplaced.faults = [] ↔ x.faults = [] :=
  List.map_eq_nil_iff

@[simp] theorem unplaced_pure (a : α) : (pure a : Checked α).unplaced = pure a := rfl

@[simp] theorem unplaced_report (span : Span) (problem : Problem) :
    (report span problem).unplaced = report ⟨0, 0⟩ problem := rfl

@[simp] theorem unplaced_bind (x : Checked α) (f : α → Checked β) :
    (x >>= f).unplaced = x.unplaced >>= fun a => (f a).unplaced := by
  rw [unplaced, faults_bind, List.map_append]
  rfl

end Checked

open Checked

section Scope

variable (scope : List String)

theorem Ident.resolve_unplaced (x : Ident) :
    x.unplaced.resolve scope = (x.resolve scope).unplaced := by
  rw [resolve, resolve, unplaced]
  dsimp only
  cases scope.idxOf? x.name <;> rfl

theorem NumberExpr.resolve_unplaced (e : NumberExpr) :
    e.unplaced.resolve scope = (e.resolve scope).unplaced := by
  induction e with
  | literal value span => rfl
  | reference x => simp only [unplaced, resolve, unplaced_bind, unplaced_pure, x.resolve_unplaced]
  | negate e ih => simp only [unplaced, resolve, unplaced_bind, unplaced_pure, ih]
  | binary op lhs rhs ihl ihr =>
      simp only [unplaced, resolve, unplaced_bind, unplaced_pure, ihl, ihr]

theorem Comparison.resolve_unplaced (c : Comparison) :
    c.unplaced.resolve scope = (c.resolve scope).unplaced := by
  simp only [unplaced, resolve, unplaced_bind, unplaced_pure, NumberExpr.resolve_unplaced]

theorem Conjunction.resolve_unplaced (c : Conjunction) :
    c.unplaced.resolve scope = (c.resolve scope).unplaced := by
  induction c with
  | one c => exact c.resolve_unplaced scope
  | and earlier c ih =>
      simp only [unplaced, resolve, unplaced_bind, unplaced_pure, ih, c.resolve_unplaced]

theorem Condition.resolve_unplaced (c : Condition) :
    c.unplaced.resolve scope = (c.resolve scope).unplaced := by
  induction c with
  | one c => exact c.resolve_unplaced scope
  | or earlier c ih =>
      simp only [unplaced, resolve, unplaced_bind, unplaced_pure, ih, c.resolve_unplaced]

theorem resolveAssign_unplaced (x : Ident) (op : AssignOp) (e : NumberExpr) :
    resolveAssign scope x.unplaced op e.unplaced = (resolveAssign scope x op e).unplaced := by
  simp only [resolveAssign, unplaced_bind, unplaced_pure, x.resolve_unplaced, e.resolve_unplaced]

mutual

theorem Action.resolve_unplaced : ∀ a : Action,
    a.unplaced.resolve scope = (a.resolve scope).unplaced
  | .assign x op e => by
      rw [Action.unplaced, Action.resolve, Action.resolve]
      exact resolveAssign_unplaced scope x op e
  | .choose test yes no => by
      simp only [Action.unplaced, Action.resolve, unplaced_bind, unplaced_pure,
        test.resolve_unplaced, Block.resolve_unplaced yes, Otherwise.resolve_unplaced no]
  | .block body => by
      rw [Action.unplaced, Action.resolve, Action.resolve]
      exact Block.resolve_unplaced body

theorem Otherwise.resolve_unplaced : ∀ o : Otherwise,
    o.unplaced.resolve scope = (o.resolve scope).unplaced
  | .nothing => by rw [Otherwise.unplaced, Otherwise.resolve, unplaced_pure]
  | .block body => by
      rw [Otherwise.unplaced, Otherwise.resolve, Otherwise.resolve]
      exact Block.resolve_unplaced body
  | .chain test yes no => by
      simp only [Otherwise.unplaced, Otherwise.resolve, unplaced_bind, unplaced_pure,
        test.resolve_unplaced, Block.resolve_unplaced yes, Otherwise.resolve_unplaced no]

theorem Block.resolve_unplaced : ∀ b : Block,
    b.unplaced.resolve scope = (b.resolve scope).unplaced
  | .nil => by rw [Block.unplaced, Block.resolve, unplaced_pure]
  | .cons first rest => by
      simp only [Block.unplaced, Block.resolve, unplaced_bind, unplaced_pure,
        Action.resolve_unplaced first, Block.resolve_unplaced rest]

end

end Scope

theorem PatternLiteral.pattern_unplaced (p : PatternLiteral) : p.unplaced.pattern = p.pattern := rfl

theorem PatternLiteral.resolve_unplaced (p : PatternLiteral) :
    p.unplaced.resolve = p.resolve.unplaced := by
  rw [resolve, resolve, pattern_unplaced]
  cases p.pattern with
  | ok pattern => rfl
  | error e => cases e <;> rfl

theorem PropertyValue.span_unplaced (v : PropertyValue) : v.unplaced.span = ⟨0, 0⟩ := by
  cases v <;> rfl

theorem PropertyValue.expectString_unplaced (v : PropertyValue) (key : String) :
    v.unplaced.expectString key = v.expectString key := by
  cases v <;> rfl

theorem PropertyValue.expectWord_unplaced (v : PropertyValue) (key : String) :
    v.unplaced.expectWord key = v.expectWord key := by
  cases v <;> rfl

theorem PropertyValue.expectPositive_unplaced (v : PropertyValue) (key : String) :
    v.unplaced.expectPositive key = v.expectPositive key := by
  cases v <;> rfl

namespace Tracked

theorem apply_unplaced (t : Tracked) (p : Property) : t.apply p.unplaced = t.apply p := by
  have hvalue : ∀ key, p.unplaced.value.expectString key = p.value.expectString key :=
    p.value.expectString_unplaced
  have hkey : p.unplaced.key.name = p.key.name := rfl
  rw [apply, apply, hkey]
  simp only [hvalue]

theorem applyAll_unplaced (t : Tracked) (ps : List Property) :
    t.applyAll (ps.map Property.unplaced) = (t.applyAll ps).unplaced := by
  induction ps generalizing t with
  | nil => rfl
  | cons p rest ih =>
      rw [List.map_cons, applyAll, applyAll, apply_unplaced]
      cases t.apply p with
      | ok t => exact ih t
      | error e =>
          have hspan : p.unplaced.value.span = ⟨0, 0⟩ := p.value.span_unplaced
          simp only [hspan, ih, unplaced_bind, unplaced_report]

theorem ofProperties_unplaced (name : String) (ps : Option (List Property)) :
    ofProperties name (ps.map (·.map Property.unplaced)) = (ofProperties name ps).unplaced := by
  rw [ofProperties, ofProperties, ← applyAll_unplaced]
  cases ps <;> rfl

end Tracked

namespace Settings

def Draft.unplaced (d : Draft) : Draft :=
  ⟨d.settings, d.startSpan.map fun _ => ⟨0, 0⟩, d.daysSpan.map fun _ => ⟨0, 0⟩⟩

theorem Draft.apply_unplaced (today : Date) (d : Draft) (p : Property) :
    d.unplaced.apply today p.unplaced = Draft.unplaced <$> d.apply today p := by
  have hkey : p.unplaced.key.name = p.key.name := rfl
  have hstring : ∀ key, p.unplaced.value.expectString key = p.value.expectString key :=
    p.value.expectString_unplaced
  have hword : ∀ key, p.unplaced.value.expectWord key = p.value.expectWord key :=
    p.value.expectWord_unplaced
  have hpositive : ∀ key, p.unplaced.value.expectPositive key = p.value.expectPositive key :=
    p.value.expectPositive_unplaced
  have hspan : p.unplaced.value.span = ⟨0, 0⟩ := p.value.span_unplaced
  unfold apply
  simp only [hkey, hstring, hword, hpositive, hspan]
  split
  case h_7 | h_8 => cases p.value.expectString p.key.name <;> rfl
  case h_9 => rfl
  all_goals
    simp only [map_bind, map_pure]
    rfl

theorem Draft.applyAll_unplaced (today : Date) (d : Draft) (ps : List Property) :
    d.unplaced.applyAll today (ps.map Property.unplaced) =
      ⟨(d.applyAll today ps).value.unplaced, (d.applyAll today ps).unplaced.faults⟩ := by
  induction ps generalizing d with
  | nil => rfl
  | cons p rest ih =>
      rw [List.map_cons, applyAll, applyAll, apply_unplaced]
      cases d.apply today p with
      | ok d => exact ih d
      | error e =>
          have hspan : p.unplaced.value.span = ⟨0, 0⟩ := p.value.span_unplaced
          simp only [hspan, ih, unplaced_bind, unplaced_report]
          rfl

theorem Draft.finish_unplaced (today : Date) (d : Draft) :
    d.unplaced.finish today = (d.finish today).unplaced := by
  obtain ⟨settings, startSpan, daysSpan⟩ := d
  unfold finish
  dsimp only [unplaced]
  cases checkHorizon settings.start settings.days with
  | ok u => rfl
  | error e => cases startSpan <;> cases daysSpan <;> rfl

theorem ofProperties_unplaced (today : Date) (tracked : List Tracked)
    (ps : Option (List Property)) :
    ofProperties today tracked (ps.map (·.map Property.unplaced)) =
      (ofProperties today tracked ps).unplaced := by
  have hlist : (ps.map (·.map Property.unplaced)).getD [] = (ps.getD []).map Property.unplaced := by
    cases ps <;> rfl
  have hstart : (⟨default today tracked, none, none⟩ : Draft).unplaced =
      ⟨default today tracked, none, none⟩ := rfl
  have hdraft := Draft.applyAll_unplaced today ⟨default today tracked, none, none⟩ (ps.getD [])
  rw [hstart] at hdraft
  rw [ofProperties, ofProperties, unplaced_bind, hlist, hdraft]
  simp only [← Draft.finish_unplaced]
  rfl

end Settings

namespace Plan

theorem dateTable_unplaced (ds : List Declaration) :
    dateTable (ds.map Declaration.unplaced) = dateTable ds := by
  rw [dateTable, List.filterMap_map]
  refine congrArg (List.filterMap · ds) (funext fun d => ?_)
  cases d with
  | var x e ps => rfl
  | rule when a => rfl
  | date x p =>
      have hvalue : p.unplaced.resolve.value = p.resolve.value := by
        rw [p.resolve_unplaced, value_unplaced]
      exact congrArg (fun pattern => some (x.name, pattern)) hvalue

namespace Draft

variable (table : List (String × DatePattern)) (d : Draft)

theorem addVar_unplaced (x : Ident) (e : NumberExpr) (ps : Option (List Property)) :
    d.addVar x.unplaced e.unplaced (ps.map (·.map Property.unplaced)) =
      (d.addVar x e ps).unplaced := by
  have hname : x.unplaced.name = x.name := rfl
  rw [addVar, addVar, hname, e.resolve_unplaced, Tracked.ofProperties_unplaced]
  cases d.names.contains x.name with
  | false => simp only [Bool.false_eq_true, if_false, unplaced_bind, unplaced_pure]
  | true => simp only [if_true, unplaced_bind, unplaced_pure, unplaced_report]; rfl

theorem addDate_unplaced (x : Ident) (p : PatternLiteral) :
    d.addDate x.unplaced p.unplaced = (d.addDate x p).unplaced := by
  have hname : x.unplaced.name = x.name := rfl
  rw [addDate, addDate, hname, p.resolve_unplaced, unplaced_bind]
  congr 1
  funext pattern
  split_ifs <;> rfl

theorem resolveWhen_unplaced (when : When) :
    resolveWhen table when.unplaced = (resolveWhen table when).unplaced := by
  cases when with
  | pattern p =>
      rw [When.unplaced, resolveWhen, resolveWhen, p.resolve_unplaced, unplaced_bind]
      rfl
  | named x =>
      have hname : x.unplaced.name = x.name := rfl
      rw [When.unplaced, resolveWhen, resolveWhen, hname]
      cases table.lookup x.name <;> rfl

theorem addRule_unplaced (when : When) (a : Action) :
    d.addRule table when.unplaced a.unplaced = (d.addRule table when a).unplaced := by
  simp only [addRule, unplaced_bind, unplaced_pure, resolveWhen_unplaced,
    Action.resolve_unplaced]

theorem add_unplaced (declaration : Declaration) :
    d.add table declaration.unplaced = (d.add table declaration).unplaced := by
  cases declaration with
  | var x e ps => exact d.addVar_unplaced x e ps
  | date x p => exact d.addDate_unplaced x p
  | rule when a => exact d.addRule_unplaced table when a

theorem addAll_unplaced (ds : List Declaration) :
    d.addAll table (ds.map Declaration.unplaced) = (d.addAll table ds).unplaced := by
  induction ds generalizing d with
  | nil => rfl
  | cons declaration rest ih =>
      rw [List.map_cons, addAll, addAll, unplaced_bind, add_unplaced]
      congr 1
      funext d
      exact ih d

end Draft

theorem ofScript_unplaced (today : Date) (s : Script) :
    ofScript today s.unplaced = (ofScript today s).unplaced := by
  have hdeclarations : s.unplaced.declarations = s.declarations.map Declaration.unplaced := rfl
  have hoptions : s.unplaced.options = s.options.map (·.map Property.unplaced) := rfl
  simp only [ofScript, unplaced_bind, unplaced_pure, hdeclarations, hoptions, dateTable_unplaced,
    Draft.addAll_unplaced, Settings.ofProperties_unplaced]

variable {r : Request} {source : List Char} {p : Plan}

theorem ofScript_unplaced_of_ofText (h : ofText r source = .ok p) :
    (ofScript r.today (Script.ofText source).value.unplaced).faults = [] ∧
      (ofScript r.today (Script.ofText source).value.unplaced).value.override r = p := by
  obtain ⟨-, hfaults, hvalue, -⟩ := ofText_eq_ok_iff.mp h
  rw [ofScript_unplaced, faults_unplaced_eq_nil_iff, value_unplaced]
  exact ⟨hfaults, hvalue⟩

/-- A text has the plan of the tree that it spells, whatever the places in the tree are. -/
theorem ofText_of_spelled {s : Script} (hunbroken : Token.brokenParts source = [])
    (hspelled : s.Spelled (Token.ofText source))
    (hfaults : (ofScript r.today s.unplaced).faults = [])
    (hvalue : (ofScript r.today s.unplaced).value.override r = p) (hspan : p.checkSpan = .ok ()) :
    ofText r source = .ok p := by
  rw [ofScript_unplaced, faults_unplaced_eq_nil_iff] at hfaults
  rw [ofScript_unplaced, value_unplaced] at hvalue
  rw [ofText_eq_ok_iff, hspelled.ofText_eq hunbroken]
  exact ⟨rfl, hfaults, hvalue, hspan⟩

end Plan

end Forecast
