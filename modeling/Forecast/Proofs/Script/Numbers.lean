import Forecast.Proofs.Script.Lexeme

namespace Forecast

namespace Step

variable {σ α : Type} {step : σ → Option Token → Step σ α} {s s' : σ}

def run (step : σ → Option Token → Step σ α) (s : σ) : List Token → Option σ
  | [] => some s
  | t :: ts =>
    match step s (some t) with
    | .more s' => run step s' ts
    | _ => none

theorem run_cons_of_more {t : Token} (h : step s (some t) = .more s') (w : List Token) :
    run step s (t :: w) = run step s' w := by
  rw [run, h]

theorem run_append_of_some {v : List Token} (h : run step s v = some s') (w : List Token) :
    run step s (v ++ w) = run step s' w := by
  induction v generalizing s with
  | nil =>
      obtain rfl := Option.some.inj h
      rfl
  | cons t v ih =>
      rw [run] at h
      rw [List.cons_append, run]
      split at h
      · exact ih h
      · cases h

theorem run_singleton {t : Token} (h : step s (some t) = .more s') : run step s [t] = some s' := by
  rw [run_cons_of_more h, run]

theorem take_ne_done (kind : Token.Kind) (t : Option Token) (f : Token → σ) (a : α) :
    (take kind t f : Step σ α) ≠ .done a := by
  cases t with
  | none => exact nofun
  | some t =>
      dsimp only [take]
      split_ifs <;> exact nofun

theorem take_some_eq_more_iff {kind : Token.Kind} {t : Token} {f : Token → σ} :
    (take kind (some t) f : Step σ α) = .more s ↔ t.kind = kind ∧ f t = s := by
  dsimp only [take]
  split_ifs with ht <;> simp [ht]

end Step

namespace Arithmetic

theorem productOp?_eq_some_iff {k : Token.Kind} {op : ArithOp} :
    productOp? k = some op ↔ (op = .mul ∨ op = .div) ∧ k = .symbol op.symbol := by
  constructor
  · intro h
    unfold productOp? at h
    split at h
    · obtain rfl := Option.some.inj h
      exact ⟨.inl rfl, rfl⟩
    · obtain rfl := Option.some.inj h
      exact ⟨.inr rfl, rfl⟩
    · cases h
  · rintro ⟨rfl | rfl, rfl⟩ <;> rfl

theorem sumOp?_eq_some_iff {k : Token.Kind} {op : ArithOp} :
    sumOp? k = some op ↔ (op = .add ∨ op = .sub) ∧ k = .symbol op.symbol := by
  constructor
  · intro h
    unfold sumOp? at h
    split at h
    · obtain rfl := Option.some.inj h
      exact ⟨.inl rfl, rfl⟩
    · obtain rfl := Option.some.inj h
      exact ⟨.inr rfl, rfl⟩
    · cases h
  · rintro ⟨rfl | rfl, rfl⟩ <;> rfl

def Continues (t : Token) : Prop := ∃ op : ArithOp, t.kind = .symbol op.symbol

theorem continues_iff {t : Token} : Continues t ↔ t.kind = .symbol .plus ∨
    t.kind = .symbol .minus ∨ t.kind = .symbol .star ∨ t.kind = .symbol .slash := by
  constructor
  · rintro ⟨op, hop⟩
    cases op <;> simp [hop, ArithOp.symbol]
  · rintro (ht | ht | ht | ht)
    · exact ⟨.add, ht⟩
    · exact ⟨.sub, ht⟩
    · exact ⟨.mul, ht⟩
    · exact ⟨.div, ht⟩

variable {e : NumberExpr} {sum : Left} {inner : Pending} {outer : List Pending} {op : ArithOp}

theorem productStep_of_product {t : Token} (hop : op = .mul ∨ op = .div)
    (ht : t.kind = .symbol op.symbol) :
    productStep e sum outer (some t) = .more (.operand ⟨sum, some (e, op), 0⟩ outer) := by
  have h := productOp?_eq_some_iff.mpr ⟨hop, ht⟩
  simp only [productStep, Option.bind_some, h]

theorem productStep_of_sum {t : Token} (hop : op = .add ∨ op = .sub)
    (ht : t.kind = .symbol op.symbol) :
    productStep e sum outer (some t) =
      .more (.operand ⟨some (sum.combine e, op), none, 0⟩ outer) := by
  have hsum := sumOp?_eq_some_iff.mpr ⟨hop, ht⟩
  have hproduct : productOp? t.kind = none := by
    rw [ht]
    rcases hop with rfl | rfl <;> rfl
  simp only [productStep, Option.bind_some, hsum, hproduct]

theorem productStep_of_not_continues {t : Option Token} (h : ∀ t' ∈ t, ¬ Continues t') :
    productStep e sum outer t = sumStep (sum.combine e) outer t := by
  cases t with
  | none => rfl
  | some t =>
      have hnot := h t rfl
      have hproduct : productOp? t.kind = none := by
        rw [Option.eq_none_iff_forall_ne_some]
        exact fun op hop => hnot ⟨op, (productOp?_eq_some_iff.mp hop).2⟩
      have hsum : sumOp? t.kind = none := by
        rw [Option.eq_none_iff_forall_ne_some]
        exact fun op hop => hnot ⟨op, (sumOp?_eq_some_iff.mp hop).2⟩
      simp only [productStep, Option.bind_some, hsum, hproduct]

theorem negated_negate (n : Nat) (e : NumberExpr) : negated n (.negate e) = .negate (negated n e) := by
  induction n with
  | zero => rfl
  | succ n ih => rw [negated, ih, negated]

mutual

theorem run_unary {w : List Token} {e : NumberExpr} :
    NumberExpr.Unary w e → (∀ t ∈ w, t.IsLexeme) → ∀ inner outer,
      Step.run Reading.step (.operand inner outer) w = some (inner.fill e outer)
  | .name ht, _, inner, outer => by
      apply Step.run_singleton
      simp only [Reading.step, operandStep, ht]
  | @NumberExpr.Unary.literal t ht, hw, inner, outer => by
      apply Step.run_singleton
      have hd := Token.ofText?_eq_decimal (hw t List.mem_cons_self) ht
      simp only [Reading.step, operandStep, ht, hd]
  | @NumberExpr.Unary.negate t w e ht he, hw, inner, outer => by
      have hstep : Reading.step (.operand inner outer) (some t) =
          .more (.operand { inner with negations := inner.negations + 1 } outer) := by
        simp only [Reading.step, operandStep, ht]
      rw [Step.run_cons_of_more hstep, run_unary he (List.forall_mem_cons.mp hw).2]
      simp only [Pending.fill, negated, negated_negate]
  | @NumberExpr.Unary.paren l r w e hl he hr, hw, inner, outer => by
      have hstep : Reading.step (.operand inner outer) (some l) =
          .more (.operand .none (inner :: outer)) := by
        simp only [Reading.step, operandStep, hl]
      obtain ⟨-, hw, -⟩ := by simpa only [List.forall_mem_cons, List.forall_mem_append] using hw
      obtain ⟨e', sum, hrun, hcombine⟩ := run_number he hw (inner :: outer)
      rw [Step.run_cons_of_more hstep, Step.run_append_of_some hrun]
      apply Step.run_singleton
      -- The closing parenthesis hands the whole sum to what waits outside.
      have hnot : ∀ t ∈ some r, ¬ Continues t := by simp [continues_iff, hr]
      rw [Reading.step, productStep_of_not_continues hnot, hcombine]
      simp only [sumStep, Step.take, hr, if_pos]

theorem run_term {w : List Token} {e : NumberExpr} :
    NumberExpr.Term w e → (∀ t ∈ w, t.IsLexeme) → ∀ sum outer,
      Step.run Reading.step (.operand ⟨sum, none, 0⟩ outer) w = some (.product e sum outer)
  | .unary he, hw, sum, outer => run_unary he hw _ _
  | @NumberExpr.Term.binary op t v w lhs rhs hop hl ht hr, hw, sum, outer => by
      obtain ⟨hv, -, hw⟩ := by simpa only [List.forall_mem_cons, List.forall_mem_append] using hw
      rw [Step.run_append_of_some (run_term hl hv sum outer),
        Step.run_cons_of_more (productStep_of_product hop ht), run_unary hr hw]
      rfl

theorem run_number {w : List Token} {e : NumberExpr} :
    e.Spelled w → (∀ t ∈ w, t.IsLexeme) → ∀ outer, ∃ e' sum,
      Step.run Reading.step (.operand .none outer) w = some (.product e' sum outer) ∧
        Left.combine sum e' = e
  | .term he, hw, outer => ⟨e, none, run_term he hw none outer, rfl⟩
  | @NumberExpr.Spelled.binary op t v w lhs rhs hop hl ht hr, hw, outer => by
      obtain ⟨hv, -, hw⟩ := by simpa only [List.forall_mem_cons, List.forall_mem_append] using hw
      obtain ⟨e', sum, hrun, rfl⟩ := run_number hl hv outer
      refine ⟨rhs, some (Left.combine sum e', op), ?_, rfl⟩
      rw [Step.run_append_of_some hrun, Step.run_cons_of_more (productStep_of_sum hop ht)]
      exact run_term hr hw _ _

end

inductive SumReads : Left → List Token → Prop
  | none : SumReads none []
  | some {op : ArithOp} {t : Token} {v : List Token} {lhs : NumberExpr}
      (hop : op = .add ∨ op = .sub) (hl : lhs.Spelled v) (ht : t.kind = .symbol op.symbol) :
      SumReads (some (lhs, op)) (v ++ [t])

inductive ProductReads : Left → List Token → Prop
  | none : ProductReads none []
  | some {op : ArithOp} {t : Token} {v : List Token} {lhs : NumberExpr}
      (hop : op = .mul ∨ op = .div) (hl : NumberExpr.Term v lhs)
      (ht : t.kind = .symbol op.symbol) : ProductReads (some (lhs, op)) (v ++ [t])

inductive Pending.Reads : Pending → List Token → Prop
  | mk {p : Pending} {u v m : List Token} (hs : SumReads p.sum u) (hp : ProductReads p.product v)
      (hlen : m.length = p.negations) (hm : ∀ t ∈ m, t.kind = .symbol .minus) :
      Reads p (u ++ (v ++ m))

/-- The words before the innermost parentheses that are open, and the opening one. -/
inductive OuterReads : List Pending → List Token → Prop
  | nil : OuterReads [] []
  | cons {t : Token} {v w : List Token} {p : Pending} {outer : List Pending}
      (ho : OuterReads outer v) (hp : p.Reads w) (ht : t.kind = .symbol .openParen) :
      OuterReads (p :: outer) (v ++ (w ++ [t]))

inductive Reading.Reads : Reading → List Token → Prop
  | operand {v w : List Token} {inner : Pending} {outer : List Pending} (ho : OuterReads outer v)
      (hi : inner.Reads w) : Reads (.operand inner outer) (v ++ w)
  | product {u v w : List Token} {e : NumberExpr} {sum : Left} {outer : List Pending}
      (ho : OuterReads outer u) (hs : SumReads sum v) (he : NumberExpr.Term w e) :
      Reads (.product e sum outer) (u ++ (v ++ w))

theorem SumReads.combine {s : Left} {v w : List Token} {e : NumberExpr} (hs : SumReads s v)
    (he : NumberExpr.Term w e) : (s.combine e).Spelled (v ++ w) := by
  cases hs with
  | none => exact .term he
  | some hop hl ht =>
      rw [List.append_assoc]
      exact .binary hop hl ht he

theorem ProductReads.combine {p : Left} {v w : List Token} {e : NumberExpr} (hp : ProductReads p v)
    (he : NumberExpr.Unary w e) : NumberExpr.Term (v ++ w) (p.combine e) := by
  cases hp with
  | none => exact .unary he
  | some hop hl ht =>
      rw [List.append_assoc]
      exact .binary hop hl ht he

theorem unary_negated {m w : List Token} {e : NumberExpr} (hm : ∀ t ∈ m, t.kind = .symbol .minus)
    (he : NumberExpr.Unary w e) : NumberExpr.Unary (m ++ w) (negated m.length e) := by
  induction m with
  | nil => exact he
  | cons t m ih =>
      obtain ⟨ht, hm⟩ := List.forall_mem_cons.mp hm
      exact .negate ht (ih hm)

theorem Pending.reads_none : Pending.none.Reads [] :=
  @Pending.Reads.mk .none [] [] [] .none .none rfl (List.forall_mem_nil _)

theorem reads_start : start.Reads [] := .operand .nil Pending.reads_none

theorem Pending.Reads.fill {v w u : List Token} (hi : inner.Reads w) (ho : OuterReads outer v)
    (he : NumberExpr.Unary u e) : (inner.fill e outer).Reads (v ++ w ++ u) := by
  cases hi with
  | mk hs hp hlen hm =>
      have hterm := hp.combine (unary_negated hm he)
      rw [hlen] at hterm
      rw [Pending.fill]
      simpa only [List.append_assoc] using Reading.Reads.product ho hs hterm

theorem reads_operandStep {v w : List Token} {t : Token} {r : Reading} (ho : OuterReads outer v)
    (hi : inner.Reads w) (h : operandStep inner outer (some t) = .more r) :
    r.Reads (v ++ w ++ [t]) := by
  rw [operandStep] at h
  split at h
  · rename_i ht
    obtain rfl := Step.more.inj h
    exact hi.fill ho (.name ht)
  · rename_i ht
    split at h
    · rename_i d hd
      obtain rfl := Step.more.inj h
      rw [← Token.decimal_eq_of_ofText? hd]
      exact hi.fill ho (.literal ht)
    · cases h
  · rename_i ht
    obtain rfl := Step.more.inj h
    cases hi with
    | @mk u v' m hs hp hlen hm =>
        have hm' : ∀ t' ∈ m ++ [t], t'.kind = .symbol .minus := by
          simpa only [List.forall_mem_append, List.forall_mem_singleton] using ⟨hm, ht⟩
        have hpending : Pending.Reads { inner with negations := inner.negations + 1 }
            (u ++ (v' ++ (m ++ [t]))) := .mk hs hp (by simp [hlen]) hm'
        simpa only [List.append_assoc] using Reading.Reads.operand ho hpending
  · rename_i ht
    obtain rfl := Step.more.inj h
    have houter := OuterReads.cons ho hi ht
    simpa only [List.append_assoc, List.append_nil] using Reading.Reads.operand houter Pending.reads_none
  · cases h

theorem reads_productStep {u v w : List Token} {t : Token} {r : Reading} (ho : OuterReads outer u)
    (hs : SumReads sum v) (he : NumberExpr.Term w e)
    (h : productStep e sum outer (some t) = .more r) : r.Reads (u ++ (v ++ w) ++ [t]) := by
  rw [productStep, Option.bind_some, Option.bind_some] at h
  split at h
  · rename_i op hop
    obtain ⟨hop, ht⟩ := productOp?_eq_some_iff.mp hop
    obtain rfl := Step.more.inj h
    have hpending : Pending.Reads ⟨sum, some (e, op), 0⟩ (v ++ (w ++ [t] ++ [])) :=
      .mk hs (.some hop he ht) rfl (List.forall_mem_nil _)
    simpa only [List.append_assoc, List.append_nil] using Reading.Reads.operand ho hpending
  · rename_i op _ hop
    obtain ⟨hop, ht⟩ := sumOp?_eq_some_iff.mp hop
    obtain rfl := Step.more.inj h
    have hpending : Pending.Reads ⟨some (sum.combine e, op), none, 0⟩ (v ++ w ++ [t] ++ ([] ++ [])) :=
      .mk (.some hop (hs.combine he) ht) .none rfl (List.forall_mem_nil _)
    simpa only [List.append_assoc, List.append_nil] using Reading.Reads.operand ho hpending
  · cases ho with
    -- Outside of parentheses the number would be complete.
    | nil => cases h
    | @cons l u' w' p outer ho hp hl =>
        rw [sumStep, Step.take_some_eq_more_iff] at h
        obtain ⟨ht, rfl⟩ := h
        simpa only [List.append_assoc, List.cons_append, List.nil_append] using
          hp.fill ho (.paren hl (hs.combine he) ht)

theorem Reading.Reads.step {r r' : Reading} {w : List Token} {t : Token} (hr : r.Reads w)
    (h : r.step (some t) = .more r') : r'.Reads (w ++ [t]) := by
  cases hr with
  | operand ho hi => exact reads_operandStep ho hi h
  | product ho hs he => exact reads_productStep ho hs he h

theorem operandStep_ne_done (t : Option Token) : operandStep inner outer t ≠ .done e := by
  intro h
  unfold operandStep at h
  cases t with
  | none => cases h
  | some t =>
      dsimp only at h
      split at h
      case h_2 => split at h <;> cases h
      all_goals cases h

theorem Reading.Reads.spelled {r : Reading} {w : List Token} {t : Option Token} (hr : r.Reads w)
    (h : r.step t = .done e) : e.Spelled w := by
  cases hr with
  | operand ho hi => exact absurd h (operandStep_ne_done t)
  | product ho hs he =>
      rw [Reading.step, productStep] at h
      split at h
      · cases h
      · cases h
      · cases ho with
        | nil =>
            obtain rfl := Step.done.inj h
            exact hs.combine he
        | cons ho hp hl => exact absurd h (Step.take_ne_done _ _ _ _)

theorem Reading.step_none (r : Reading) :
    (∃ e, r.step none = .done e) ∨ ∃ kinds, r.step none = .wrong (.expected kinds) := by
  cases r with
  | operand inner outer => exact .inr ⟨_, rfl⟩
  | product e sum outer =>
      cases outer with
      | nil => exact .inl ⟨_, rfl⟩
      | cons p outer => exact .inr ⟨_, rfl⟩

theorem Reading.done_of_not_continues {t : Option Token} (h : ∀ t' ∈ t, ¬ Continues t') :
    (Reading.product e sum []).step t = .done (sum.combine e) := by
  rw [Reading.step, productStep_of_not_continues h, sumStep]

end Arithmetic

end Forecast
