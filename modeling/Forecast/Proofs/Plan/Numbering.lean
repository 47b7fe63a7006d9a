import Mathlib.Data.List.Nodup
import Mathlib.Tactic.SplitIfs
import Forecast.Proofs.Script.Meaning

namespace Forecast

open Checked Function

def Env.values (names : List String) (env : Env) : Values := names.map env

/-- Variables known at some point are the first ones of all, and all are distinct. -/
structure Numbered (known all : List String) : Prop where
  isPrefix : known <+: all
  nodup : all.Nodup

variable {known all : List String}

theorem value_resolve_ident (x : Ident) : (x.resolve known).value = known.idxOf? x.name := by
  rw [Ident.resolve]
  split
  · rename_i slot h
    exact h.symm
  · rename_i h
    exact h.symm

theorem mem_of_idxOf?_eq_some {x : String} {i : Nat} (hi : known.idxOf? x = some i) :
    x ∈ known := by
  by_contra hn
  rw [List.idxOf?_eq_none_iff.mpr hn] at hi
  cases hi

theorem Numbered.getElem? (h : Numbered known all) {x : String} {i : Nat}
    (hi : known.idxOf? x = some i) : all[i]? = some x := by
  obtain ⟨rest, rfl⟩ := h.isPrefix
  obtain ⟨hlt, hx, -⟩ := List.idxOf?_eq_some_iff.mp hi
  rw [List.getElem?_append_left hlt, List.getElem?_eq_getElem hlt, hx]

theorem Numbered.read_values (h : Numbered known all) (env : Env) {x : String} {i : Nat}
    (hi : known.idxOf? x = some i) : Values.read (env.values all) i = env x := by
  rw [Values.read, Env.values, List.getD_eq_getElem?_getD, List.getElem?_map, h.getElem? hi]
  rfl

theorem Numbered.set_values (h : Numbered known all) (env : Env) {x : String} {i : Nat}
    (hi : known.idxOf? x = some i) (v : Float) :
    List.set (env.values all) i v = Env.values all (update env x v) := by
  obtain ⟨hlt, hx⟩ := List.getElem?_eq_some_iff.mp (h.getElem? hi)
  apply List.ext_getElem
  · simp [Env.values]
  · intro j hj hj'
    have hjall : j < all.length := by simpa [Env.values] using hj'
    simp only [Env.values, List.getElem_set, List.getElem_map]
    split_ifs with hij
    · subst hij
      rw [hx, update_self]
    · have hne : all[j] ≠ x := by
        intro hjx
        exact hij ((List.Nodup.getElem_inj_iff h.nodup).mp (hx.trans hjx.symm))
      rw [update_of_ne hne]

theorem Numbered.eval_resolve (h : Numbered known all) (env : Env) (e : NumberExpr) :
    (e.resolve known).value.eval (env.values all) = e.meaning known env := by
  induction e with
  | literal value span => rfl
  | reference x =>
      simp only [NumberExpr.resolve, value_bind, value_pure, value_resolve_ident,
        NumberExpr.meaning]
      cases hi : known.idxOf? x.name with
      | none =>
          rw [if_neg (List.idxOf?_eq_none_iff.mp hi)]
          rfl
      | some i =>
          rw [if_pos (mem_of_idxOf?_eq_some hi)]
          exact h.read_values env hi
  | negate e ih =>
      simp only [NumberExpr.resolve, value_bind, value_pure, Expr.eval, NumberExpr.meaning, ih]
  | binary op lhs rhs ihl ihr =>
      simp only [NumberExpr.resolve, value_bind, value_pure, Expr.eval, NumberExpr.meaning, ihl, ihr]

theorem Numbered.eval_resolve_comparison (h : Numbered known all) (env : Env) (c : Comparison) :
    (c.resolve known).value.eval (env.values all) = c.holds known env := by
  simp only [Comparison.resolve, value_bind, value_pure, Test.eval, Comparison.holds,
    h.eval_resolve]

theorem Numbered.eval_resolve_conjunction (h : Numbered known all) (env : Env) (c : Conjunction) :
    (c.resolve known).value.eval (env.values all) = c.holds known env := by
  induction c with
  | one c => exact h.eval_resolve_comparison env c
  | and earlier c ih =>
      simp only [Conjunction.resolve, value_bind, value_pure, Test.eval, Conjunction.holds, ih,
        h.eval_resolve_comparison]

theorem Numbered.eval_resolve_condition (h : Numbered known all) (env : Env) (c : Condition) :
    (c.resolve known).value.eval (env.values all) = c.holds known env := by
  induction c with
  | one c => exact h.eval_resolve_conjunction env c
  | or earlier c ih =>
      simp only [Condition.resolve, value_bind, value_pure, Test.eval, Condition.holds, ih,
        h.eval_resolve_conjunction]

theorem Numbered.run_resolveAssign (h : Numbered known all) (env : Env) (x : Ident) (op : AssignOp)
    (e : NumberExpr) :
    (resolveAssign known x op e).value.run (env.values all) =
      Env.values all ((Action.assign x op e).act known env) := by
  simp only [resolveAssign, value_bind, value_pure, value_resolve_ident, Action.act]
  cases hi : known.idxOf? x.name with
  | none =>
      rw [if_neg (List.idxOf?_eq_none_iff.mp hi)]
      rfl
  | some i =>
      rw [if_pos (mem_of_idxOf?_eq_some hi)]
      simp only [Option.elim_some, Effect.run, h.read_values env hi, h.eval_resolve]
      exact h.set_values env hi _

theorem Numbered.run_choose (h : Numbered known all) (env yesEnv noEnv : Env) (test : Condition)
    (yes no : Effect) (hyes : yes.run (env.values all) = yesEnv.values all)
    (hno : no.run (env.values all) = noEnv.values all) :
    (Effect.choose (test.resolve known).value yes no).run (env.values all) =
      Env.values all (if test.holds known env then yesEnv else noEnv) := by
  rw [Effect.run, h.eval_resolve_condition]
  split_ifs
  · exact hyes
  · exact hno

mutual

theorem Numbered.run_resolve_action (h : Numbered known all) (env : Env) :
    ∀ a : Action, (a.resolve known).value.run (env.values all) = (a.act known env).values all
  | .assign x op e => by
      rw [Action.resolve]
      exact h.run_resolveAssign env x op e
  | .choose test yes no => by
      rw [Action.resolve, Action.act]
      exact h.run_choose env _ _ test _ _ (h.run_resolve_block env yes)
        (h.run_resolve_otherwise env no)
  | .block body => by
      rw [Action.resolve, Action.act]
      exact h.run_resolve_block env body

theorem Numbered.run_resolve_otherwise (h : Numbered known all) (env : Env) :
    ∀ o : Otherwise, (o.resolve known).value.run (env.values all) = (o.act known env).values all
  | .nothing => by rw [Otherwise.resolve, Otherwise.act, value_pure, Effect.run]
  | .block body => by
      rw [Otherwise.resolve, Otherwise.act]
      exact h.run_resolve_block env body
  | .chain test yes no => by
      rw [Otherwise.resolve, Otherwise.act]
      exact h.run_choose env _ _ test _ _ (h.run_resolve_block env yes)
        (h.run_resolve_otherwise env no)

theorem Numbered.run_resolve_block (h : Numbered known all) (env : Env) :
    ∀ b : Block, (b.resolve known).value.run (env.values all) = (b.act known env).values all
  | .nil => by rw [Block.resolve, Block.act, value_pure, Effect.run]
  | .cons first rest => by
      rw [Block.resolve, Block.act]
      simp only [value_bind, value_pure, Effect.run]
      rw [h.run_resolve_action env first]
      exact h.run_resolve_block _ rest

end

end Forecast
