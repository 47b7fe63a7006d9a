import Mathlib.Tactic.SplitIfs
import Forecast.Proofs.Script.Meaning
import Forecast.Proofs.Script.Names

namespace Forecast

namespace Block

def toList : Block → List Action
  | .nil => []
  | .cons first rest => first :: rest.toList

def append : Block → Block → Block
  | .nil, other => other
  | .cons first rest, other => .cons first (rest.append other)

theorem names_append (b other : Block) : (b.append other).names = b.names ++ other.names := by
  induction b using toList.induct with
  | case1 => rw [append, names, List.nil_append]
  | case2 first rest ih => rw [append, names, names, ih, List.append_assoc]

theorem act_append (known : List String) (env : Env) (b other : Block) :
    (b.append other).act known env = other.act known (b.act known env) := by
  induction b using toList.induct generalizing env with
  | case1 => rw [append, act]
  | case2 first rest ih => rw [append, act, act, ih]

theorem mem_names_of_mem_toList {b : Block} {a : Action} (ha : a ∈ b.toList) :
    ∀ y ∈ a.names, y ∈ b.names := by
  induction b using toList.induct with
  | case1 => cases ha
  | case2 first rest ih =>
      intro y hy
      rw [names, List.mem_append]
      rw [toList, List.mem_cons] at ha
      rcases ha with rfl | ha
      · exact .inl hy
      · exact .inr (ih ha y hy)

end Block

mutual

/-- The second action is the first one rewritten at one place. -/
inductive Action.Rewrites : Action → Action → Prop
  | yes (test : Condition) {yes yes' : Block} (no : Otherwise) (h : Block.Rewrites yes yes') :
      Action.Rewrites (.choose test yes no) (.choose test yes' no)
  | no (test : Condition) (yes : Block) {no no' : Otherwise} (h : Otherwise.Rewrites no no') :
      Action.Rewrites (.choose test yes no) (.choose test yes no')
  | block {body body' : Block} (h : Block.Rewrites body body') :
      Action.Rewrites (.block body) (.block body')

inductive Otherwise.Rewrites : Otherwise → Otherwise → Prop
  | nest (test : Condition) (yes : Block) (no : Otherwise) :
      Otherwise.Rewrites (.chain test yes no) (.block (.cons (.choose test yes no) .nil))
  | block {body body' : Block} (h : Block.Rewrites body body') :
      Otherwise.Rewrites (.block body) (.block body')
  | yes (test : Condition) {yes yes' : Block} (no : Otherwise) (h : Block.Rewrites yes yes') :
      Otherwise.Rewrites (.chain test yes no) (.chain test yes' no)
  | no (test : Condition) (yes : Block) {no no' : Otherwise} (h : Otherwise.Rewrites no no') :
      Otherwise.Rewrites (.chain test yes no) (.chain test yes no')

inductive Block.Rewrites : Block → Block → Prop
  | splice (body rest : Block) : Block.Rewrites (.cons (.block body) rest) (body.append rest)
  | first {a a' : Action} (rest : Block) (h : Action.Rewrites a a') :
      Block.Rewrites (.cons a rest) (.cons a' rest)
  | rest (first : Action) {rest rest' : Block} (h : Block.Rewrites rest rest') :
      Block.Rewrites (.cons first rest) (.cons first rest')

end

mutual

theorem Action.Rewrites.names_eq : ∀ {a a' : Action}, a.Rewrites a' → a'.names = a.names
  | _, _, .yes test no h => by rw [Action.names, Action.names, Block.Rewrites.names_eq h]
  | _, _, .no test yes h => by rw [Action.names, Action.names, Otherwise.Rewrites.names_eq h]
  | _, _, .block h => by rw [Action.names, Action.names, Block.Rewrites.names_eq h]

theorem Otherwise.Rewrites.names_eq : ∀ {o o' : Otherwise}, o.Rewrites o' → o'.names = o.names
  | _, _, .nest test yes no => by
      rw [Otherwise.names, Otherwise.names, Block.names, Block.names, Action.names, List.append_nil]
  | _, _, .block h => by rw [Otherwise.names, Otherwise.names, Block.Rewrites.names_eq h]
  | _, _, .yes test no h => by rw [Otherwise.names, Otherwise.names, Block.Rewrites.names_eq h]
  | _, _, .no test yes h => by rw [Otherwise.names, Otherwise.names, Otherwise.Rewrites.names_eq h]

theorem Block.Rewrites.names_eq : ∀ {b b' : Block}, b.Rewrites b' → b'.names = b.names
  | _, _, .splice body rest => by rw [Block.names_append, Block.names, Action.names]
  | _, _, .first rest h => by rw [Block.names, Block.names, Action.Rewrites.names_eq h]
  | _, _, .rest first h => by rw [Block.names, Block.names, Block.Rewrites.names_eq h]

end

mutual

theorem Action.Rewrites.act_eq (known : List String) : ∀ {a a' : Action}, a.Rewrites a' →
    ∀ env, a'.act known env = a.act known env
  | _, _, .yes test no h, env => by rw [Action.act, Action.act, Block.Rewrites.act_eq known h]
  | _, _, .no test yes h, env => by rw [Action.act, Action.act, Otherwise.Rewrites.act_eq known h]
  | _, _, .block h, env => by rw [Action.act, Action.act, Block.Rewrites.act_eq known h]

theorem Otherwise.Rewrites.act_eq (known : List String) : ∀ {o o' : Otherwise}, o.Rewrites o' →
    ∀ env, o'.act known env = o.act known env
  | _, _, .nest test yes no, env => by
      rw [Otherwise.act, Otherwise.act, Block.act, Block.act, Action.act]
  | _, _, .block h, env => by rw [Otherwise.act, Otherwise.act, Block.Rewrites.act_eq known h]
  | _, _, .yes test no h, env => by rw [Otherwise.act, Otherwise.act, Block.Rewrites.act_eq known h]
  | _, _, .no test yes h, env => by
      rw [Otherwise.act, Otherwise.act, Otherwise.Rewrites.act_eq known h]

theorem Block.Rewrites.act_eq (known : List String) : ∀ {b b' : Block}, b.Rewrites b' →
    ∀ env, b'.act known env = b.act known env
  | _, _, .splice body rest, env => by rw [Block.act_append, Block.act, Action.act]
  | _, _, .first rest h, env => by rw [Block.act, Block.act, Action.Rewrites.act_eq known h]
  | _, _, .rest first h, env => by rw [Block.act, Block.act, Block.Rewrites.act_eq known h]

end

namespace Script

theorem dayFrom_toList (s : Script) (d : Date) (known : List String) (env : Env) (when : When)
    (body : Block) : s.dayFrom d known env (body.toList.map (.rule when)) =
      if s.whenHolds d when then body.act known env else env := by
  induction body using Block.toList.induct generalizing env with
  | case1 =>
      rw [Block.toList, List.map_nil, dayFrom, Block.act, ite_self]
  | case2 first rest ih =>
      rw [Block.toList, List.map_cons, dayFrom, ih, Block.act]
      split_ifs <;> rfl

/-- What may stand in the place of a rule: the same rule with the pattern of its date, one rule for
each action of its block, or the rule with its action written in another way. -/
inductive Unfolds (s : Script) : Declaration → List Declaration → Prop
  | date {x : Ident} {p : PatternLiteral} (hx : s.dateNamed? x.name = some p) (a : Action) :
      Unfolds s (.rule (.named x) a) [.rule (.pattern p) a]
  | block (when : When) (body : Block) :
      Unfolds s (.rule when (.block body)) (body.toList.map (.rule when))
  | action (when : When) {a a' : Action} (h : a.Rewrites a') :
      Unfolds s (.rule when a) [.rule when a']

theorem Unfolds.dayFrom_eq {s : Script} {rule : Declaration} {rules : List Declaration}
    (h : s.Unfolds rule rules) (d : Date) (known : List String) (env : Env) :
    s.dayFrom d known env rules = s.dayFrom d known env [rule] := by
  cases h with
  | @date x p hx a =>
      have hwhen : s.whenHolds d (.named x) = p.holds d :=
        congrArg (Option.any (PatternLiteral.holds d)) hx
      change _ = if s.whenHolds d (.named x) then a.act known env else env
      rw [hwhen]
      rfl
  | block when body => rw [dayFrom_toList, dayFrom, dayFrom, Action.act]
  | action when h => rw [dayFrom, dayFrom, h.act_eq known]; rfl

end Script

end Forecast
