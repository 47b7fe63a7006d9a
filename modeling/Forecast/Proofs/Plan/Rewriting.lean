import Mathlib.Logic.Relation
import Forecast.Proofs.Plan.Alike
import Forecast.Proofs.Script.Rewriting

namespace Forecast

open Checked

namespace Script

inductive Rewrites (s s' : Script) : Prop
  | rule {rule : Declaration} {rules before after : List Declaration} (h : s.Unfolds rule rules)
      (hs : s.Replaces before [rule] rules after s')

theorem date_mem_of_dateNamed? {s : Script} {name : String} {p : PatternLiteral}
    (h : s.dateNamed? name = some p) : ∃ x, .date x p ∈ s.declarations := by
  obtain ⟨d, hd, hp⟩ := List.exists_of_findSome?_eq_some h
  cases d with
  | date x q =>
      obtain ⟨-, hq⟩ := Option.ite_none_right_eq_some.mp hp
      obtain rfl := Option.some.inj hq
      exact ⟨x, hd⟩
  | var x e ps | rule when a => cases hp

theorem Unfolds.fits {s : Script} {rule : Declaration} {rules before : List Declaration}
    (h : s.Unfolds rule rules) (hs : WellDeclared s.declarations)
    (hrule : rule.Fits before (dateNames s.declarations)) :
    ∀ c ∈ rules, c.Fits before (dateNames s.declarations) := by
  cases h with
  | @date x p hx a =>
      obtain ⟨y, hy⟩ := date_mem_of_dateNamed? hx
      exact List.forall_mem_singleton.mpr ⟨hs.date_inRange y p hy, hrule.2⟩
  | block when body =>
      rw [List.forall_mem_map]
      intro a ha
      refine ⟨hrule.1, fun y hy => hrule.2 y ?_⟩
      rw [Action.names]
      exact Block.mem_names_of_mem_toList ha y hy
  | action when ha =>
      rw [List.forall_mem_singleton, Declaration.Fits, ha.names_eq]
      exact hrule

end Script

namespace Plan

variable {s s' : Script}

theorem ofScript_rewrites {today : Date} (h : s.Rewrites s')
    (hs : (ofScript today s).faults = []) :
    (ofScript today s').faults = [] ∧
      Alike (ofScript today s).value (ofScript today s').value := by
  obtain ⟨h, hreplaces⟩ := h
  have hwell := ((faults_ofScript_eq_nil_iff today s).mp hs).1
  have hrule := (wellDeclared_iff s.declarations).mp hwell _ _ _ hreplaces.declarations
  exact ofScript_replaces hreplaces hs (h.fits hwell hrule) h.dayFrom_eq

theorem ofScript_rewrites_all {today : Date} (h : Relation.ReflTransGen Script.Rewrites s s')
    (hs : (ofScript today s).faults = []) :
    (ofScript today s').faults = [] ∧
      Alike (ofScript today s).value (ofScript today s').value := by
  induction h with
  | refl => exact ⟨hs, .refl _⟩
  | tail _ hstep ih =>
      obtain ⟨hfaults, halike⟩ := ih
      obtain ⟨hfaults', halike'⟩ := ofScript_rewrites hstep hfaults
      exact ⟨hfaults', halike.trans halike'⟩

/-- A text may be written in another way. Put the pattern of a date for its name in a rule, make rules
of the actions of a block, put the actions of a block inside another block in its place, or put a
conditional after `else` into a block of its own, anywhere and any number of times: the new text has
a plan that starts as the old one does and has the same runs. -/
theorem ofText_rewrites {r : Request} {source source' : List Char} {p : Plan}
    (h : ofText r source = .ok p) (hunbroken : Token.brokenParts source' = [])
    (hspelled : s'.Spelled (Token.ofText source'))
    (hrewrites : Relation.ReflTransGen Script.Rewrites (Script.ofText source).value.unplaced
      s'.unplaced) :
    ∃ p', ofText r source' = .ok p' ∧ p'.initialState = p.initialState ∧
      p'.settings = p.settings ∧ ∀ start days, p'.run start days = p.run start days := by
  obtain ⟨hfaults, halike⟩ := ofScript_rewrites_all hrewrites (ofScript_unplaced_of_ofText h).1
  exact ofText_of_alike h hunbroken hspelled hfaults halike

namespace Unfolding

def test (left right : String) : Condition :=
  .one (.one ⟨.less, .reference (Sorted.name left), .reference (Sorted.name right)⟩)

def set (target value : String) : Action :=
  .assign (Sorted.name target) .set (.reference (Sorted.name value))

def atEnd (a : Action) : Declaration := .rule (.named (Sorted.name "end")) a

def onLastDay (a : Action) : Declaration :=
  .rule (.pattern ⟨Sorted.wildcard, Sorted.wildcard, Sorted.day (-1)⟩) a

def chained : Action :=
  .choose (test "a" "b") (.cons (set "a" "b") .nil)
    (.chain (test "b" "a") (.cons (set "b" "a") .nil) .nothing)

def nested : Action :=
  .choose (test "a" "b") (.cons (set "a" "b") .nil)
    (.block (.cons (.choose (test "b" "a") (.cons (set "b" "a") .nil) .nothing) .nil))

def double : Action := .assign (Sorted.name "b") .mul (.literal ⟨2, 0⟩ ⟨0, 0⟩)

def script (rules : List Declaration) : Script :=
  ⟨Sorted.varA :: Sorted.varB :: (rules ++ [Sorted.dateEnd]), none⟩

def folded : Script :=
  script [atEnd (.block (.cons (.block (.cons double .nil)) (.cons chained .nil)))]

def unfolded : Script := script [onLastDay double, onLastDay nested]

theorem rewrites_script {rule : Declaration} {rules : List Declaration}
    (h : (script [rule]).Unfolds rule rules) (hrule : rule.isRule)
    (hrules : ∀ c ∈ rules, c.isRule) : (script [rule]).Rewrites (script rules) := by
  have hreplaces : (script [rule]).Replaces [Sorted.varA, Sorted.varB] [rule] rules
      [Sorted.dateEnd] (script rules) :=
    ⟨rfl, rfl, List.forall_mem_singleton.mpr hrule, hrules, rfl⟩
  exact .rule h hreplaces

theorem rewrites_unfolded : Relation.ReflTransGen Script.Rewrites folded unfolded := by
  refine .head (rewrites_script (.date rfl _) rfl (List.forall_mem_singleton.mpr rfl)) ?_
  refine .head (rewrites_script (.action _ (.block (.splice _ _))) rfl
    (List.forall_mem_singleton.mpr rfl)) ?_
  refine .head (rewrites_script (.action _ (.block (.rest _ (.first _ (.no _ _ (.nest _ _ _))))))
    rfl (List.forall_mem_singleton.mpr rfl)) ?_
  exact .single (rewrites_script (.block _ _) rfl (by decide))

end Unfolding

theorem ofText_rewrites_unfolding :
    ∃ p p', ofText ⟨leapDay, none, none⟩ (Unfolding.folded.render Script.oneBlank) = .ok p ∧
      ofText ⟨leapDay, none, none⟩ (Unfolding.unfolded.render Script.oneBlank) = .ok p' ∧
      p.rules.length = 1 ∧ p'.rules.length = 2 ∧ p'.initialState = p.initialState ∧
      ∀ start days, p'.run start days = p.run start days := by
  have hfolded : Unfolding.folded.Writable := by decide +kernel
  have hunfolded : Unfolding.unfolded.Writable := by decide +kernel
  obtain ⟨s, -, -, htext, hunplaced⟩ :=
    Script.exists_spelled_render hfolded (Script.separates_oneBlank _)
  obtain ⟨s', hspelled, hunbroken, -, hunplaced'⟩ :=
    Script.exists_spelled_render hunfolded (Script.separates_oneBlank _)
  have hone : (ofText ⟨leapDay, none, none⟩ (Unfolding.folded.render Script.oneBlank)).map
      (·.rules.length) = .ok 1 := by
    decide +kernel
  have htwo : (ofText ⟨leapDay, none, none⟩ (Unfolding.unfolded.render Script.oneBlank)).map
      (·.rules.length) = .ok 2 := by
    decide +kernel
  obtain ⟨p, h, hrules⟩ := Result.map_eq_ok_iff.mp hone
  have hrewrites : Relation.ReflTransGen Script.Rewrites
      (Script.ofText (Unfolding.folded.render Script.oneBlank)).value.unplaced s'.unplaced := by
    rw [htext, hunplaced, hunplaced']
    exact Unfolding.rewrites_unfolded
  obtain ⟨p', hp', hinitial, -, hruns⟩ := ofText_rewrites h hunbroken hspelled hrewrites
  obtain ⟨q, hq, hrules'⟩ := Result.map_eq_ok_iff.mp htwo
  obtain rfl := Result.ok.inj (hp'.symm.trans hq)
  exact ⟨p, p', h, hp', hrules, hrules', hinitial, hruns⟩

end Plan

end Forecast
