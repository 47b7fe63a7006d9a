import Forecast.Proofs.Plan.Accepted
import Forecast.Proofs.Plan.Unplaced
import Forecast.Proofs.Script.RoundTrip

namespace Forecast

open Checked

namespace Declaration

def isVar : Declaration → Bool
  | .var .. => true
  | _ => false

def isRule : Declaration → Bool
  | .rule .. => true
  | _ => false

def MayPrecede : Declaration → Declaration → Prop
  | .rule _ a, .var x _ _ => ∀ y ∈ a.names, y.name ≠ x.name
  | _, _ => True

instance : DecidableRel MayPrecede
  | .rule .., .var .. => inferInstanceAs (Decidable (∀ _ ∈ _, _))
  | .rule .., .date .. | .rule .., .rule .. | .var .., _ | .date .., _ =>
    inferInstanceAs (Decidable True)

end Declaration

/-- The second script has the declarations of the first one in another order: its variables and its
rules are in the same order, and each rule comes after the variables that it mentions. -/
structure Script.Reorders (s s' : Script) : Prop where
  perm : s'.declarations.Perm s.declarations
  vars : s'.declarations.filter Declaration.isVar = s.declarations.filter Declaration.isVar
  rules : s'.declarations.filter Declaration.isRule = s.declarations.filter Declaration.isRule
  after_vars : s'.declarations.Pairwise Declaration.MayPrecede
  options : s'.options = s.options

section Scope

variable {scope scope' : List String}

theorem idxOf?_append_of_mem {x : String} {known : List String} (hx : x ∈ known)
    (rest : List String) : (known ++ rest).idxOf? x = known.idxOf? x := by
  have hsome : (known.idxOf? x).isSome := List.isSome_idxOf?.mpr hx
  obtain ⟨i, hi⟩ := Option.isSome_iff_exists.mp hsome
  have hfind : known.findIdx? (· == x) = some i := hi
  rw [hi, List.idxOf?, List.findIdx?_append, hfind, Option.some_or]

theorem Ident.resolve_congr {x : Ident} (h : scope'.idxOf? x.name = scope.idxOf? x.name) :
    x.resolve scope' = x.resolve scope := by
  rw [resolve, resolve, h]

theorem NumberExpr.resolve_congr {e : NumberExpr}
    (h : ∀ x ∈ e.names, scope'.idxOf? x.name = scope.idxOf? x.name) :
    e.resolve scope' = e.resolve scope := by
  induction e with
  | literal value span => rfl
  | reference x => rw [resolve, resolve, Ident.resolve_congr (h x (List.mem_singleton_self x))]
  | negate e ih => rw [resolve, resolve, ih h]
  | binary op lhs rhs ihl ihr =>
      obtain ⟨hl, hr⟩ := List.forall_mem_append.mp h
      rw [resolve, resolve, ihl hl, ihr hr]

theorem Comparison.resolve_congr {c : Comparison}
    (h : ∀ x ∈ c.names, scope'.idxOf? x.name = scope.idxOf? x.name) :
    c.resolve scope' = c.resolve scope := by
  obtain ⟨hl, hr⟩ := List.forall_mem_append.mp h
  rw [resolve, resolve, NumberExpr.resolve_congr hl, NumberExpr.resolve_congr hr]

theorem Conjunction.resolve_congr {c : Conjunction}
    (h : ∀ x ∈ c.names, scope'.idxOf? x.name = scope.idxOf? x.name) :
    c.resolve scope' = c.resolve scope := by
  induction c with
  | one c => exact Comparison.resolve_congr h
  | and earlier c ih =>
      obtain ⟨hearlier, hc⟩ := List.forall_mem_append.mp h
      rw [resolve, resolve, ih hearlier, Comparison.resolve_congr hc]

theorem Condition.resolve_congr {c : Condition}
    (h : ∀ x ∈ c.names, scope'.idxOf? x.name = scope.idxOf? x.name) :
    c.resolve scope' = c.resolve scope := by
  induction c with
  | one c => exact Conjunction.resolve_congr h
  | or earlier c ih =>
      obtain ⟨hearlier, hc⟩ := List.forall_mem_append.mp h
      rw [resolve, resolve, ih hearlier, Conjunction.resolve_congr hc]

mutual

theorem Action.resolve_congr : ∀ {a : Action},
    (∀ x ∈ a.names, scope'.idxOf? x.name = scope.idxOf? x.name) →
      a.resolve scope' = a.resolve scope
  | .assign x op e, h => by
      rw [Action.names, List.forall_mem_cons] at h
      rw [Action.resolve, Action.resolve, resolveAssign, resolveAssign, Ident.resolve_congr h.1,
        NumberExpr.resolve_congr h.2]
  | .choose test yes no, h => by
      rw [Action.names, List.forall_mem_append, List.forall_mem_append] at h
      rw [Action.resolve, Action.resolve, Condition.resolve_congr h.1, Block.resolve_congr h.2.1,
        Otherwise.resolve_congr h.2.2]
  | .block body, h => by
      rw [Action.names] at h
      rw [Action.resolve, Action.resolve, Block.resolve_congr h]

theorem Otherwise.resolve_congr : ∀ {o : Otherwise},
    (∀ x ∈ o.names, scope'.idxOf? x.name = scope.idxOf? x.name) →
      o.resolve scope' = o.resolve scope
  | .nothing, _ => by rw [Otherwise.resolve, Otherwise.resolve]
  | .block body, h => by
      rw [Otherwise.names] at h
      rw [Otherwise.resolve, Otherwise.resolve, Block.resolve_congr h]
  | .chain test yes no, h => by
      rw [Otherwise.names, List.forall_mem_append, List.forall_mem_append] at h
      rw [Otherwise.resolve, Otherwise.resolve, Condition.resolve_congr h.1,
        Block.resolve_congr h.2.1, Otherwise.resolve_congr h.2.2]

theorem Block.resolve_congr : ∀ {b : Block},
    (∀ x ∈ b.names, scope'.idxOf? x.name = scope.idxOf? x.name) →
      b.resolve scope' = b.resolve scope
  | .nil, _ => by rw [Block.resolve, Block.resolve]
  | .cons first rest, h => by
      rw [Block.names, List.forall_mem_append] at h
      rw [Block.resolve, Block.resolve, Action.resolve_congr h.1, Block.resolve_congr h.2]

end

end Scope

theorem lookup_eq_of_perm {β : Type} {l l' : List (String × β)} (h : l'.Perm l)
    (hn : (l.map Prod.fst).Nodup) (k : String) : l'.lookup k = l.lookup k := by
  induction h with
  | nil => rfl
  | cons a h ih =>
      rw [List.map_cons, List.nodup_cons] at hn
      rw [List.lookup_cons, List.lookup_cons, ih hn.2]
  | swap a b l =>
      obtain ⟨hmem, -⟩ := List.nodup_cons.mp hn
      have hne : b.1 ≠ a.1 := fun h => hmem (h ▸ List.mem_cons_self)
      rw [List.lookup_cons, List.lookup_cons, List.lookup_cons, List.lookup_cons]
      by_cases ha : k = a.1
      · have hb : (k == b.1) = false := beq_eq_false_iff_ne.mpr (ha ▸ hne.symm)
        rw [hb]
      · have ha' : (k == a.1) = false := beq_eq_false_iff_ne.mpr ha
        rw [ha']
  | trans h₁ h₂ ih₁ ih₂ =>
      rw [ih₁ ((h₂.map Prod.fst).nodup_iff.mpr hn), ih₂ hn]

namespace Plan.Draft

def vars (d : Draft) : List String × Values × List Tracked := (d.names, d.initial, d.tracked)

variable {table : List (String × DatePattern)}

theorem vars_addVar {d d' : Draft} (h : d'.vars = d.vars) (x : Ident)
    (e : NumberExpr) (ps : Option (List Property)) :
    (d'.addVar x e ps).value.vars = (d.addVar x e ps).value.vars := by
  obtain ⟨names, initial, tracked, dates, rules⟩ := d
  obtain ⟨names', initial', tracked', dates', rules'⟩ := d'
  obtain ⟨rfl, rfl, rfl⟩ : names' = names ∧ initial' = initial ∧ tracked' = tracked := by
    simpa [vars] using h
  rw [value_addVar, value_addVar]
  split_ifs <;> rfl

theorem vars_add_of_not_isVar (d : Draft) {declaration : Declaration}
    (h : declaration.isVar = false) :
    (d.add table declaration).value.vars = d.vars := by
  cases declaration with
  | var x e ps => cases h
  | rule when a => rfl
  | date x p =>
      rw [add, value_addDate]
      split_ifs <;> rfl

theorem vars_addAll (table table' : List (String × DatePattern)) (ds : List Declaration)
    {d d' : Draft} (h : d'.vars = d.vars) :
    (d'.addAll table' ds).value.vars =
      (d.addAll table (ds.filter Declaration.isVar)).value.vars := by
  induction ds generalizing d d' with
  | nil => exact h
  | cons declaration rest ih =>
      rw [addAll, value_bind]
      cases hvar : declaration.isVar with
      | false =>
          rw [List.filter_cons_of_neg (by simp [hvar])]
          exact ih ((d'.vars_add_of_not_isVar hvar).trans h)
      | true =>
          rw [List.filter_cons_of_pos hvar, addAll, value_bind]
          cases declaration with
          | date x p => cases hvar
          | rule when a => cases hvar
          | var x e ps => exact ih (vars_addVar h x e ps)

theorem dates_add {d : Draft} {declaration : Declaration}
    (h : (d.dates.map Prod.fst ++ dateNames [declaration]).Nodup) :
    (d.add table declaration).value.dates = d.dates ++ dateTable [declaration] := by
  cases declaration with
  | var x e ps =>
      have hnil : dateTable [.var x e ps] = [] := rfl
      rw [add, value_addVar, hnil, List.append_nil]
      split_ifs <;> rfl
  | rule when a => exact (List.append_nil _).symm
  | date x p =>
      have hx : ¬ (d.dates.lookup x.name).isSome := by
        rw [isSome_lookup_iff]
        intro hmem
        exact (List.nodup_append.mp h).2.2 x.name hmem x.name (List.mem_singleton_self _) rfl
      rw [add, value_addDate, if_neg hx]
      rfl

theorem dates_addAll {d : Draft} {ds : List Declaration}
    (h : (d.dates.map Prod.fst ++ dateNames ds).Nodup) :
    (d.addAll table ds).value.dates = d.dates ++ dateTable ds := by
  induction ds generalizing d with
  | nil => exact (List.append_nil _).symm
  | cons declaration rest ih =>
      have hnames : dateNames (declaration :: rest) = dateNames [declaration] ++ dateNames rest :=
        List.filterMap_append (l := [declaration])
      have htable : dateTable (declaration :: rest) = dateTable [declaration] ++ dateTable rest :=
        List.filterMap_append (l := [declaration])
      rw [hnames, ← List.append_assoc] at h
      have hadd : (d.add table declaration).value.dates = d.dates ++ dateTable [declaration] :=
        dates_add (List.nodup_append.mp h).1
      rw [addAll, value_bind, ih, hadd, htable, List.append_assoc]
      rwa [hadd, List.map_append, map_fst_dateTable]

end Plan.Draft

namespace Plan

def rule? (table : List (String × DatePattern)) (known : List String) : Declaration → Option Rule
  | .rule when a => some (ruleOf table known when a)
  | _ => none

theorem rule?_congr {table table' : List (String × DatePattern)}
    (h : ∀ name, table'.lookup name = table.lookup name) (known : List String) :
    rule? table' known = rule? table known := by
  funext d
  cases d with
  | var x e ps => rfl
  | date x p => rfl
  | rule when a =>
      have hwhen : Draft.resolveWhen table' when = Draft.resolveWhen table when := by
        cases when with
        | pattern p => rfl
        | named x => rw [Draft.resolveWhen, Draft.resolveWhen, h]
      rw [rule?, rule?, ruleOf, ruleOf, hwhen]

theorem rulesFrom_eq_filterMap (table : List (String × DatePattern)) {known all : List String}
    {ds : List Declaration} (hall : ds.foldl Declaration.learn known <+: all)
    (hknown : ∀ before when a after, ds = before ++ .rule when a :: after →
      ∀ y ∈ a.names, y.name ∈ before.foldl Declaration.learn known) :
    rulesFrom table known ds = ds.filterMap (rule? table all) := by
  induction ds generalizing known with
  | nil => rfl
  | cons declaration rest ih =>
      have hrest : rulesFrom table (declaration.learn known) rest =
          rest.filterMap (rule? table all) :=
        ih hall fun before when a after hsplit =>
          hknown (declaration :: before) when a after (congrArg _ hsplit)
      cases declaration with
      | var x e ps => exact hrest
      | date x p => exact hrest
      | rule when a =>
          obtain ⟨later, rfl⟩ := (prefix_foldl_learn known rest).trans hall
          have hresolve : a.resolve (known ++ later) = a.resolve known :=
            Action.resolve_congr fun y hy => idxOf?_append_of_mem (hknown [] when a rest rfl y hy) _
          have hrule : rule? table (known ++ later) (.rule when a) =
              some (ruleOf table known when a) := by
            rw [rule?, ruleOf, ruleOf, hresolve]
          rw [rulesFrom, List.filterMap_cons_some hrule]
          exact congrArg _ hrest

theorem filterMap_rule?_filter (table : List (String × DatePattern)) (known : List String)
    (ds : List Declaration) :
    (ds.filter Declaration.isRule).filterMap (rule? table known) =
      ds.filterMap (rule? table known) := by
  rw [List.filterMap_filter]
  refine congrArg (List.filterMap · ds) (funext fun d => ?_)
  cases d <;> rfl

end Plan

theorem varNames_filter_isVar (ds : List Declaration) :
    varNames (ds.filter Declaration.isVar) = varNames ds := by
  rw [varNames, varNames, List.filterMap_filter]
  refine congrArg (List.filterMap · ds) (funext fun d => ?_)
  cases d <;> rfl

theorem mem_varNames_iff {ds : List Declaration} {y : String} :
    y ∈ varNames ds ↔ ∃ x e ps, .var x e ps ∈ ds ∧ x.name = y := by
  rw [varNames, List.mem_filterMap]
  constructor
  · rintro ⟨d, hd, hy⟩
    cases d with
    | var x e ps => exact ⟨x, e, ps, hd, Option.some.inj hy⟩
    | date x p => cases hy
    | rule when a => cases hy
  · rintro ⟨x, e, ps, hd, rfl⟩
    exact ⟨_, hd, rfl⟩

namespace Script.Reorders

variable {s s' : Script}

theorem varNames_eq (h : s.Reorders s') : varNames s'.declarations = varNames s.declarations := by
  rw [← varNames_filter_isVar, h.vars, varNames_filter_isVar]

theorem dateNames_perm (h : s.Reorders s') :
    (dateNames s'.declarations).Perm (dateNames s.declarations) :=
  h.perm.filterMap _

/-- A rule comes after all variables that it mentions, so they are known to it if they are declared
at all. -/
theorem mem_varNames (h : s.Reorders s') {before after : List Declaration} {when : When}
    {a : Action} (hsplit : s'.declarations = before ++ .rule when a :: after) {y : Ident}
    (hy : y ∈ a.names) (hdeclared : y.name ∈ varNames s.declarations) :
    y.name ∈ varNames before := by
  have horder := h.after_vars
  rw [hsplit, List.pairwise_append, List.pairwise_cons] at horder
  have hafter : y.name ∉ varNames after := by
    intro hmem
    obtain ⟨x, e, ps, hx, hname⟩ := mem_varNames_iff.mp hmem
    exact horder.2.1.1 _ hx y hy hname.symm
  have hcons : varNames (.rule when a :: after) = varNames after := rfl
  have happend : varNames s'.declarations = varNames before ++ varNames after := by
    rw [hsplit, varNames, List.filterMap_append]
    exact congrArg _ hcons
  rw [← h.varNames_eq, happend] at hdeclared
  exact (List.mem_append.mp hdeclared).resolve_right hafter

theorem wellDeclared (h : s.Reorders s') (hs : WellDeclared s.declarations) :
    WellDeclared s'.declarations where
  nodup_vars := h.varNames_eq ▸ hs.nodup_vars
  nodup_dates := h.dateNames_perm.nodup_iff.mpr hs.nodup_dates
  initial_known := by
    intro before x e ps after hsplit
    -- The variables before this one are the same in both orders.
    have hvars := h.vars
    rw [hsplit, List.filter_append, List.filter_cons_of_pos rfl] at hvars
    obtain ⟨own, rest, hrest, hown, hvar⟩ := List.filter_eq_append_iff.mp hvars.symm
    obtain ⟨others, later, rfl, hothers, -, -⟩ := List.filter_eq_cons_iff.mp hvar
    have hknown := hs.initial_known (own ++ others) x e ps later (by rw [hrest, List.append_assoc])
    have hfilter : (own ++ others).filter Declaration.isVar = before.filter Declaration.isVar := by
      rw [List.filter_append, hown, List.filter_eq_nil_iff.mpr hothers, List.append_nil]
    rwa [← varNames_filter_isVar, hfilter, varNames_filter_isVar] at hknown
  action_known := by
    intro before when a after hsplit y hy
    have hmem : .rule when a ∈ s.declarations :=
      h.perm.mem_iff.mp (hsplit ▸ List.mem_append_right _ List.mem_cons_self)
    obtain ⟨own, later, hown⟩ := List.append_of_mem hmem
    have hdeclared := hs.action_known own when a later hown y hy
    refine h.mem_varNames hsplit hy ?_
    rw [hown, varNames, List.filterMap_append]
    exact List.mem_append_left _ hdeclared
  when_known x a hrule := h.dateNames_perm.mem_iff.mpr (hs.when_known x a (h.perm.mem_iff.mp hrule))
  date_inRange x p hdate := hs.date_inRange x p (h.perm.mem_iff.mp hdate)
  pattern_inRange p a hrule := hs.pattern_inRange p a (h.perm.mem_iff.mp hrule)
  strings x e ps hvar := hs.strings x e ps (h.perm.mem_iff.mp hvar)

end Script.Reorders

namespace Plan

variable {s s' : Script}

theorem rules_of_wellDeclared (table : List (String × DatePattern)) {ds : List Declaration}
    (h : WellDeclared ds) :
    (Draft.empty.addAll table ds).value.rules =
      (ds.filter Declaration.isRule).filterMap
        (rule? table (Draft.empty.addAll table ds).value.names) := by
  have hall : ds.foldl Declaration.learn [] <+: (Draft.empty.addAll table ds).value.names := by
    rw [Draft.names_addAll]
    exact List.prefix_rfl
  rw [filterMap_rule?_filter, ← rulesFrom_eq_filterMap table hall, Draft.rules_addAll]
  · rfl
  · intro before when a after hsplit y hy
    rw [Draft.mem_foldl_learn_iff]
    exact .inr (h.action_known before when a after hsplit y hy)

theorem dates_of_wellDeclared (table : List (String × DatePattern)) {ds : List Declaration}
    (h : WellDeclared ds) : (Draft.empty.addAll table ds).value.dates = dateTable ds :=
  Draft.dates_addAll h.nodup_dates

theorem addAll_reorders (h : s.Reorders s') (hs : WellDeclared s.declarations) :
    (Draft.empty.addAll (dateTable s'.declarations) s'.declarations).value =
      { (Draft.empty.addAll (dateTable s.declarations) s.declarations).value with
        dates := dateTable s'.declarations } := by
  have hs' := h.wellDeclared hs
  have hvars : (Draft.empty.addAll (dateTable s'.declarations) s'.declarations).value.vars =
      (Draft.empty.addAll (dateTable s.declarations) s.declarations).value.vars := by
    rw [Draft.vars_addAll [] _ s'.declarations rfl, Draft.vars_addAll [] _ s.declarations rfl, h.vars]
  have hlookup : ∀ name, (dateTable s'.declarations).lookup name =
      (dateTable s.declarations).lookup name := by
    refine lookup_eq_of_perm (h.perm.filterMap _) ?_
    rw [Draft.map_fst_dateTable]
    exact hs.nodup_dates
  have hdates := dates_of_wellDeclared (dateTable s'.declarations) hs'
  have hrules := rules_of_wellDeclared (dateTable s'.declarations) hs'
  have hown := rules_of_wellDeclared (dateTable s.declarations) hs
  rw [rule?_congr hlookup, h.rules] at hrules
  generalize (Draft.empty.addAll (dateTable s'.declarations) s'.declarations).value = d' at *
  generalize (Draft.empty.addAll (dateTable s.declarations) s.declarations).value = d at *
  obtain ⟨names, initial, tracked, dates, rules⟩ := d
  obtain ⟨names', initial', tracked', dates', rules'⟩ := d'
  obtain ⟨rfl, rfl, rfl⟩ : names' = names ∧ initial' = initial ∧ tracked' = tracked := by
    simpa [Draft.vars] using hvars
  obtain rfl : dates' = _ := hdates
  obtain rfl : rules' = rules := hrules.trans hown.symm
  rfl

theorem ofScript_reorders (today : Date) (h : s.Reorders s') (hs : (ofScript today s).faults = []) :
    (ofScript today s').faults = [] ∧
      ∃ dates, dates.Perm (ofScript today s).value.dates ∧
        (ofScript today s').value = { (ofScript today s).value with dates } := by
  have hwell := (faults_ofScript_eq_nil_iff today s).mp hs
  have hfaults : (ofScript today s').faults = [] := by
    refine (faults_ofScript_eq_nil_iff today s').mpr ⟨h.wellDeclared hwell.1, ?_⟩
    rw [Script.ownStart, Script.ownDays, h.options]
    exact hwell.2
  have hdraft := addAll_reorders h hwell.1
  have hdates := dates_of_wellDeclared (dateTable s.declarations) hwell.1
  refine ⟨hfaults, dateTable s'.declarations, ?_, ?_⟩
  · simp only [ofScript, value_bind, value_pure, hdates]
    exact h.perm.filterMap _
  · simp only [ofScript, value_bind, value_pure, hdraft, h.options]

/-- The declarations of a text may be put in another order, with any layout: if its variables and
its rules stay in order and each rule stays after the variables that it mentions, it has the same
plan but for the order of its dates, and so the same forecasts. -/
theorem ofText_reorders {r : Request} {source source' : List Char} {p : Plan}
    (h : ofText r source = .ok p) (hunbroken : Token.brokenParts source' = [])
    (hspelled : s'.Spelled (Token.ofText source'))
    (horder : (Script.ofText source).value.unplaced.Reorders s'.unplaced) :
    ∃ p', ofText r source' = .ok p' ∧ p'.initialState = p.initialState ∧
      p'.settings = p.settings ∧ p'.dates.Perm p.dates ∧
        (∀ start days, p'.run start days = p.run start days) ∧
          ∀ q : Request, (p'.override q).graph = (p.override q).graph := by
  obtain ⟨-, hfaults, rfl, hspan⟩ := ofText_eq_ok_iff.mp h
  have htokens := hspelled.ofTokens_eq fun t ht => Token.isLexeme_of_mem_ofText ht
  have hscript : Script.ofText source' = ⟨s', []⟩ := by
    rw [Script.ofText, hunbroken]
    simp only [htokens, List.map_nil, List.append_nil]
  have hown : (ofScript r.today (Script.ofText source).value.unplaced).faults = [] := by
    rw [ofScript_unplaced, faults_unplaced_eq_nil_iff]
    exact hfaults
  obtain ⟨hfaults', dates, hdates, hvalue⟩ := ofScript_reorders r.today horder hown
  rw [ofScript_unplaced, faults_unplaced_eq_nil_iff] at hfaults'
  rw [ofScript_unplaced, value_unplaced] at hdates
  rw [ofScript_unplaced, ofScript_unplaced, value_unplaced, value_unplaced] at hvalue
  generalize (ofScript r.today (Script.ofText source).value).value = plan at hdates hvalue hspan ⊢
  have hplan : ofText r source' = .ok (({ plan with dates } : Plan).override r) := by
    refine ofText_eq_ok_iff.mpr ?_
    rw [hscript]
    exact ⟨rfl, hfaults', congrArg (·.override r) hvalue, hspan⟩
  exact ⟨_, hplan, rfl, rfl, hdates, fun _ _ => rfl, fun _ => rfl⟩

namespace Sorted

def name (text : String) : Ident := ⟨text, ⟨0, 0⟩⟩

def wildcard : PartLiteral := ⟨none, ⟨0, 0⟩⟩

def day (n : Int) : PartLiteral := ⟨some n, ⟨0, 0⟩⟩

def varA : Declaration := .var (name "a") (.literal ⟨1, 0⟩ ⟨0, 0⟩) none

def varB : Declaration := .var (name "b") (.reference (name "a")) none

def dateEnd : Declaration := .date (name "end") ⟨wildcard, wildcard, day (-1)⟩

def atEnd : Declaration :=
  .rule (.named (name "end")) (.assign (name "a") .add (.literal ⟨2, 0⟩ ⟨0, 0⟩))

def atStart : Declaration :=
  .rule (.pattern ⟨wildcard, wildcard, day 1⟩) (.assign (name "b") .set (.reference (name "a")))

def before : Script := ⟨[varA, atEnd, varB, atStart, dateEnd], none⟩

def after : Script := ⟨[dateEnd, varA, varB, atEnd, atStart], none⟩

theorem reorders : before.Reorders after where
  perm := (List.perm_append_singleton dateEnd [varA, varB, atEnd, atStart]).symm.trans
    ((List.Perm.swap atEnd varB [atStart, dateEnd]).cons varA)
  vars := rfl
  rules := rfl
  after_vars := by decide
  options := rfl

end Sorted

theorem ofText_reorders_sorted :
    ∃ (p : Plan) (s' : Script),
      ofText ⟨leapDay, none, none⟩ (Sorted.before.render Script.oneBlank) = .ok p ∧
      Token.brokenParts (Sorted.after.render Script.oneBlank) = [] ∧
      s'.Spelled (Token.ofText (Sorted.after.render Script.oneBlank)) ∧
      (Script.ofText (Sorted.before.render Script.oneBlank)).value.unplaced.Reorders s'.unplaced ∧
      ∃ p', ofText ⟨leapDay, none, none⟩ (Sorted.after.render Script.oneBlank) = .ok p' ∧
        p'.initialState = p.initialState ∧ p'.settings = p.settings ∧ p'.dates.Perm p.dates ∧
          (∀ start days, p'.run start days = p.run start days) ∧
            ∀ q : Request, (p'.override q).graph = (p.override q).graph := by
  have hbefore : Sorted.before.Writable := by decide +kernel
  have hafter : Sorted.after.Writable := by decide +kernel
  obtain ⟨s, -, -, htext, hunplaced⟩ :=
    Script.exists_spelled_render hbefore (Script.separates_oneBlank _)
  obtain ⟨s', hspelled, hbroken, -, heq⟩ :=
    Script.exists_spelled_render hafter (Script.separates_oneBlank _)
  have horder : (Script.ofText (Sorted.before.render Script.oneBlank)).value.unplaced.Reorders
      s'.unplaced := by
    rw [htext, hunplaced, heq]
    exact Sorted.reorders
  have hsome : ((ofText ⟨leapDay, none, none⟩
      (Sorted.before.render Script.oneBlank)).toOption.isSome) = true := by
    decide +kernel
  obtain ⟨p, h⟩ := Result.exists_ok_of_isSome hsome
  exact ⟨p, s', h, hbroken, hspelled, horder, ofText_reorders h hbroken hspelled horder⟩

end Plan

end Forecast
